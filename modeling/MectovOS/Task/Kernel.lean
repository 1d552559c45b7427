/-
This file models the task table of src/sys/task.c and the per-CPU state around
it: the task records, the current task and CR3 of every core, the runqueues, the
deferred page directories, and the bookkeeping of the statements (which page
directories are live, which were freed and how, which saved frames are fresh).

The state is explicit: every function of the source that runs under `task_lock`
is a function from one kernel state to the next. File descriptors, windows, FPU
images and descriptor tables are left out; no modelled function reads them.
-/

import Mathlib

namespace MectovOS.Sched

/-! ### Constants -/

/-- `MAX_TASKS`, `MAX_CPUS`, `SIG_MAX`, `MMAP_MAX_REGIONS` and `DEFERRED_PD_MAX`. -/
def maxTasks : Nat := 64
def maxCpus : Nat := 16
def sigMax : Nat := 32
def mmapMaxRegions : Nat := 8
def deferredPdMax : Nat := 8

def priorityRealtime : Int := 2
def priorityInteractive : Int := 1
def priorityBackground : Int := 0

def sigkill : Nat := 9
def sigchld : Nat := 17
def sigcont : Nat := 18
def sigstop : Nat := 19
def sigtstp : Nat := 20
def sigttin : Nat := 21
def sigttou : Nat := 22

/-- `SIG_IGN_SENTINEL`. -/
def sigIgnSentinel : Nat := 1

def saRestart : BitVec 32 := 1
def saNodefer : BitVec 32 := 2

def rlimitNproc : Nat := 0
def rlimitAs : Nat := 1
def rlimitNofile : Nat := 2

def rootUid : Int := 0

/-- `TIMER_MS_PER_TICK`. -/
def timerMsPerTick : Int := 10

/-- A table of the size every slot has, with one value throughout. -/
def signalTable {α : Type} (value : α) : List α := List.replicate sigMax value

def userHeapBase : Nat := 0x08000000

/-- `KERNEL_STACK_SIZE`, `KERNEL_STACK_GUARD` and `sizeof(registers_t)`. -/
def kernelStackSize : Nat := 32768
def kernelStackGuard : Nat := 4096
def sizeofRegisters : Nat := 72

/-! ### Task records -/

inductive TaskState where
  | free
  | running
  | ready
  | sleep
  | blocked
  | zombie
  | stopped
  deriving DecidableEq

/-- A dead task never runs again: `TASK_STATE_ZOMBIE` or `TASK_STATE_FREE`. -/
def TaskState.dead (state : TaskState) : Bool := state = .zombie || state = .free

structure MmapRegion where
  base : Nat
  size : Nat
  fileSize : Nat
  vfsNode : Int
  mapFlags : Nat
  dirty : Nat
  deriving DecidableEq

structure Rlimit where
  cur : Nat
  max : Nat
  deriving DecidableEq

structure Task where
  esp : Nat
  stackWatermark : Nat
  state : TaskState
  ring : Nat
  priority : Int
  sleepTicks : Int
  waitTicks : Int
  rqCpu : Option Nat
  isIdle : Bool
  pageDir : Nat
  launchArg : List Char
  name : List Char
  trustedShell : Bool
  currentDir : Int
  heapPtr : Nat
  parent : Nat
  exitCode : Nat
  pgrp : Nat
  session : Nat
  waiting : Int
  pendingSignals : BitVec 32
  signalHandlers : List Nat
  sigMasks : List (BitVec 32)
  sigFlags : List (BitVec 32)
  blockedSignals : BitVec 32
  sigRestartTicks : Int
  sigFrameEsp : Nat
  zombieSince : BitVec 32
  shmBits : BitVec 32
  cpuTicks : Nat
  nice : Int
  mmapRegions : List MmapRegion
  uid : Int
  gid : Int
  tlsBase : Nat
  rlimits : List Rlimit
  deriving DecidableEq

/-! ### The kernel state -/

/-- One call of `vmm_free_address_space`: the directory, whether it was live, and whether
some core still had it in CR3. -/
structure FreeEvent where
  pageDir : Nat
  wasLive : Bool
  loaded : Bool
  deriving DecidableEq

/-- What a core holds between two steps of a call it makes with interrupts off: the image
`task_exec` switched to, or the directory a thread is about to be created in. -/
inductive Pending where
  | exec (image : Nat)
  | thread (pageDir : Nat)
  deriving DecidableEq

structure Kernel where
  tasks : Nat → Task
  currentTask : Nat → Option Nat
  rq : Nat → List Nat
  numTasks : Int
  smpCpuCount : Nat
  kstacks : Nat
  cr3 : Nat → Nat
  ticks : BitVec 32
  zombieReapMs : Nat
  deferredPdQ : List (Nat × Nat)
  pending : Nat → Option Pending
  /-- The saved frame built for a task that was never resumed. -/
  fresh : Nat → Option Nat
  /-- Every task `schedule` committed, with the state it was in. -/
  commits : List (Nat × TaskState)
  pdLive : Nat → Bool
  frees : List FreeEvent

/-- Change one task record. -/
def Kernel.setTask (kernel : Kernel) (tid : Nat) (change : Task → Task) : Kernel :=
  { kernel with tasks := Function.update kernel.tasks tid (change (kernel.tasks tid)) }

def kstackGuard (kernel : Kernel) (tid : Nat) : Nat :=
  if maxTasks ≤ tid then 0
  else kernel.kstacks + tid * (kernelStackSize + kernelStackGuard)

def kstackTop (kernel : Kernel) (tid : Nat) : Nat :=
  if maxTasks ≤ tid then 0
  else kernel.kstacks + (tid + 1) * (kernelStackSize + kernelStackGuard)

/-- Is a FREE slot still named as some core's current task? -/
def slotStillCurrent (kernel : Kernel) (tid : Nat) : Bool :=
  (List.range maxCpus).any fun cid => kernel.currentTask cid = some tid

/-- `task_current_anywhere`. -/
def taskCurrentAnywhere (kernel : Kernel) (tid : Nat) : Bool := slotStillCurrent kernel tid

def taskIsCurrentElsewhere (kernel : Kernel) (cid tid : Nat) : Bool :=
  (List.range maxCpus).any fun other => other ≠ cid && kernel.currentTask other = some tid

/-- `rlimit_set_defaults`, in the order of the resources. -/
def rlimitDefaults : List Rlimit :=
  [⟨64, 64⟩, ⟨256 * 1024 * 1024, 256 * 1024 * 1024⟩, ⟨32, 32⟩]

/-- The bytes the regions of a task reserve. -/
def reservedBytes (regions : List MmapRegion) : Nat := (regions.map MmapRegion.size).sum

/-- `rlimit_as_used`: the committed heap and every reserved mmap region. -/
def rlimitAsUsed (task : Task) : Nat :=
  ((if userHeapBase < task.heapPtr then task.heapPtr - userHeapBase else 0) +
    reservedBytes task.mmapRegions) % 2 ^ 32

/-- `rlimit_nproc_allows`: may the user of this task own one more task? -/
def rlimitNprocAllows (kernel : Kernel) (tid : Nat) : Bool :=
  let task := kernel.tasks tid
  let owned := (List.range maxTasks).countP fun other =>
    0 < other && (kernel.tasks other).state ≠ .free && (kernel.tasks other).uid = task.uid
  task.uid = rootUid || owned < (task.rlimits.getD rlimitNproc ⟨0, 0⟩).cur

/-- `task_in_kernel_space`. -/
def taskInKernelSpace (kernel : Kernel) (tid : Nat) : Bool :=
  let pageDir := if maxTasks ≤ tid then 0 else (kernel.tasks tid).pageDir
  pageDir = 0 || pageDir / 4096 = (kernel.tasks 0).pageDir / 4096

/-- `mmap_free_dirty_bitmaps`: the bitmaps go back to the heap. -/
def mmapFreeDirtyBitmaps (regions : List MmapRegion) : List MmapRegion :=
  regions.map fun region => { region with dirty := 0 }

/-- Forget the reservations of every mmap region by clearing their bases. -/
def clearBases (regions : List MmapRegion) : List MmapRegion :=
  regions.map fun region => { region with base := 0 }

/-! ### Frame lemmas -/

@[simp] theorem setTask_same (kernel : Kernel) (tid : Nat) (change : Task → Task) :
    (kernel.setTask tid change).tasks tid = change (kernel.tasks tid) := by
  simp [Kernel.setTask]

theorem setTask_other (kernel : Kernel) {tid other : Nat} (change : Task → Task)
    (apart : other ≠ tid) : (kernel.setTask tid change).tasks other = kernel.tasks other :=
  Function.update_of_ne apart _ _

theorem slotStillCurrent_iff {kernel : Kernel} {tid : Nat} :
    slotStillCurrent kernel tid = true ↔
      ∃ cid, cid < maxCpus ∧ kernel.currentTask cid = some tid := by
  simp [slotStillCurrent]

theorem slotStillCurrent_eq_false {kernel : Kernel} {tid : Nat} :
    slotStillCurrent kernel tid = false ↔
      ∀ cid < maxCpus, kernel.currentTask cid ≠ some tid := by
  rw [← Bool.not_eq_true, slotStillCurrent_iff]
  simp only [not_exists, not_and, ne_eq]

end MectovOS.Sched
