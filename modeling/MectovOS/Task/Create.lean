/-
This file models how tasks are made in src/sys/task.c: `create_task`,
`create_idle_task`, `thread_create_ex`, `fork_common` and `task_fork_exec`, each
with its own search for a slot and its own list of fields it writes into the
slot, and `init_tasking`. Fields a path does not write keep what the previous
occupant of the slot left there.

What code outside the task layer returns (a user stack, a cloned address space,
a loaded image, a dirty bitmap) is an input of the call.
-/

import MectovOS.Task.Signal

namespace MectovOS.Sched

/-! ### Slots -/

/-- The first slot from `first` on that is FREE and that no core still names as current. -/
def claimSlot (kernel : Kernel) (first : Nat) : Option Nat :=
  (List.range maxTasks).find? fun tid =>
    first ≤ tid && (kernel.tasks tid).state = .free && !slotStillCurrent kernel tid

theorem claimSlot_spec {kernel : Kernel} {first tid : Nat}
    (claimed : claimSlot kernel first = some tid) :
    tid < maxTasks ∧ first ≤ tid ∧ (kernel.tasks tid).state = .free ∧
      slotStillCurrent kernel tid = false := by
  have accepted := List.find?_some claimed
  have member := List.mem_of_find?_eq_some claimed
  simp only [Bool.and_eq_true, decide_eq_true_eq, Bool.not_eq_true'] at accepted
  exact ⟨List.mem_range.mp member, accepted.1.1, accepted.1.2, accepted.2⟩

/-- The slot `create_task` takes: the first FREE one. -/
def claimAnySlot (kernel : Kernel) : Option Nat :=
  (List.range maxTasks).find? fun tid => (kernel.tasks tid).state = .free

/-- Put a finished task record into its slot and count it. -/
def occupy (kernel : Kernel) (tid : Nat) (task : Task) : Kernel :=
  { kernel with
    numTasks := kernel.numTasks + 1
    fresh := Function.update kernel.fresh tid (some task.esp) }.setTask tid
    fun _ => { task with state := .ready }

/-- Occupy a slot and queue the new task. -/
def publish (kernel : Kernel) (cpu tid : Nat) (task : Task) : Kernel :=
  rqEnqueue (occupy kernel tid task) cpu tid

/-- The saved frame of a Ring 0 task: sixteen words below the top of its stack. -/
def kernelFrame (kernel : Kernel) (tid : Nat) : Nat := kstackTop kernel tid - 64

/-- The saved frame of a Ring 3 task: eighteen words below the top of its stack. -/
def userFrame (kernel : Kernel) (tid : Nat) : Nat := kstackTop kernel tid - sizeofRegisters

/-! ### Kernel tasks -/

/-- The fields `create_task` writes. -/
def createTaskFill (kernel : Kernel) (cid tid : Nat) (slot : Task) : Task :=
  let creator := kernel.currentTask cid
  { slot with
    ring := 0
    priority := priorityInteractive
    nice := (creator.map fun tid => (kernel.tasks tid).nice).getD 0
    cpuTicks := 0
    waitTicks := 0
    currentDir := (creator.map fun tid => (kernel.tasks tid).currentDir).getD 0
    parent := 0
    exitCode := 0
    pgrp := 0
    session := 0
    waiting := 0
    pendingSignals := 0
    blockedSignals := 0
    sigFrameEsp := 0
    zombieSince := 0
    shmBits := 0
    signalHandlers := signalTable 0
    sigMasks := signalTable 0
    sigFlags := signalTable 0
    launchArg := "sys_kernel".toList
    esp := kernelFrame kernel tid
    stackWatermark := 0
    rqCpu := none
    isIdle := false
    tlsBase := 0
    rlimits := rlimitDefaults }

/-- `create_task` on core `cid`. -/
def createTask (kernel : Kernel) (cid : Nat) : Kernel × Option Nat :=
  match claimAnySlot kernel with
  | none => (kernel, none)
  | some tid =>
    (publish kernel (rqLeastLoaded kernel) tid
      (createTaskFill kernel cid tid (kernel.tasks tid)), some tid)

/-- The fields `create_idle_task` writes. -/
def createIdleTaskFill (kernel : Kernel) (tid : Nat) (slot : Task) : Task :=
  { slot with
    ring := 0
    priority := priorityBackground
    nice := 0
    cpuTicks := 0
    sleepTicks := 0
    waitTicks := 0
    pageDir := (kernel.tasks 0).pageDir
    parent := 0
    exitCode := 0
    pgrp := 0
    session := 0
    waiting := 0
    pendingSignals := 0
    blockedSignals := 0
    sigRestartTicks := 0
    sigFrameEsp := 0
    zombieSince := 0
    shmBits := 0
    mmapRegions := clearBases slot.mmapRegions
    signalHandlers := signalTable 0
    sigMasks := signalTable 0
    sigFlags := signalTable 0
    isIdle := true
    rqCpu := none
    rlimits := rlimitDefaults
    esp := kernelFrame kernel tid
    stackWatermark := 0 }

/-- `create_idle_task` for the core with LAPIC id `cpu`. -/
def createIdleTask (kernel : Kernel) (cpu : Nat) : Kernel × Option Nat :=
  match claimSlot kernel 1 with
  | none => (kernel, none)
  | some tid =>
    (publish kernel cpu tid (createIdleTaskFill kernel tid (kernel.tasks tid)), some tid)

/-! ### Threads -/

/-- The arguments of `thread_create_ex` and what `vmm_setup_user_stack` returns for a slot. -/
structure ThreadArgs where
  priority : Int
  pageDir : Nat
  childStack : Nat
  tlsBase : Nat
  userStack : Nat → Nat

/-- The fields `thread_create_ex` writes for a creator. -/
def threadFill (kernel : Kernel) (creator : Option Nat) (args : ThreadArgs) (tid : Nat)
    (slot : Task) : Task :=
  let inherit {α : Type} (field : Task → α) (default : α) : α :=
    (creator.map fun tid => field (kernel.tasks tid)).getD default
  { slot with
    ring := 3
    heapPtr := userHeapBase
    currentDir := inherit Task.currentDir 0
    priority :=
      if args.priority < priorityBackground ∨ priorityRealtime < args.priority then
        priorityInteractive
      else args.priority
    nice := inherit Task.nice 0
    cpuTicks := 0
    pageDir := args.pageDir
    sleepTicks := 0
    waitTicks := 0
    parent := creator.getD 0
    exitCode := 0
    pgrp := inherit Task.pgrp 0
    session := inherit Task.session 0
    uid := inherit Task.uid rootUid
    gid := inherit Task.gid 0
    rlimits := inherit Task.rlimits rlimitDefaults
    waiting := 0
    pendingSignals := 0
    blockedSignals := 0
    sigRestartTicks := 0
    sigFrameEsp := 0
    zombieSince := 0
    shmBits := 0
    mmapRegions := clearBases (mmapFreeDirtyBitmaps slot.mmapRegions)
    signalHandlers := signalTable 0
    tlsBase := args.tlsBase
    esp := userFrame kernel tid
    stackWatermark := 0
    rqCpu := none
    isIdle := false }

/-- `thread_create_ex` on core `cid`. -/
def threadCreateEx (kernel : Kernel) (cid : Nat) (args : ThreadArgs) : Kernel × Option Nat :=
  let creator := kernel.currentTask cid
  if (creator.map fun tid => 0 < tid && !rlimitNprocAllows kernel tid) = some true then
    (kernel, none)
  else
    match claimSlot kernel 0 with
    | none => (kernel, none)
    | some tid =>
      if args.childStack = 0 ∧ args.userStack tid = 0 then (kernel, none)
      else
        (publish kernel (rqLeastLoaded kernel) tid
          (threadFill kernel creator args tid (kernel.tasks tid)), some tid)

/-! ### fork -/

/-- The arguments of `fork_common`, the directory `vmm_clone_address_space` returns, and what
`kmalloc` returns for the dirty bitmap of each region (`0` for none). -/
structure ForkArgs where
  childArg : List Char
  clone : Nat
  bitmap : Nat → Nat

/-- A file-backed region gets a bitmap of its own, or is dropped when there is no memory. -/
def forkRegion (args : ForkArgs) (index : Nat) (region : MmapRegion) : MmapRegion :=
  if region.base ≠ 0 ∧ region.mapFlags = 1 then
    if args.bitmap index ≠ 0 then { region with dirty := args.bitmap index }
    else ⟨0, 0, 0, 0, 0, 0⟩
  else region

/-- The fields `fork_common` writes. -/
def forkFill (kernel : Kernel) (parent : Nat) (args : ForkArgs) (tid : Nat) (slot : Task) :
    Task :=
  let source := kernel.tasks parent
  { slot with
    esp := userFrame kernel tid
    stackWatermark := 0
    tlsBase := source.tlsBase
    ring := 3
    priority := source.priority
    sleepTicks := 0
    waitTicks := 0
    rqCpu := none
    isIdle := false
    pageDir := args.clone
    parent := parent
    exitCode := 0
    pgrp := source.pgrp
    session := source.session
    uid := source.uid
    gid := source.gid
    waiting := 0
    pendingSignals := 0
    blockedSignals := source.blockedSignals
    sigRestartTicks := 0
    sigFrameEsp := 0
    zombieSince := 0
    shmBits := source.shmBits
    cpuTicks := 0
    nice := source.nice
    signalHandlers := source.signalHandlers
    sigMasks := source.sigMasks
    sigFlags := source.sigFlags
    launchArg := if args.childArg = [] then source.launchArg else args.childArg.take 127
    name := "fork".toList ++ (Nat.repr parent).toList
    trustedShell := source.trustedShell
    currentDir := source.currentDir
    heapPtr := source.heapPtr
    rlimits := source.rlimits
    mmapRegions := source.mmapRegions.mapIdx (forkRegion args) }

/-- A directory that came from `vmm_create_address_space` or `vmm_clone_address_space`. -/
def allocPageDir (kernel : Kernel) (pageDir : Nat) : Kernel :=
  { kernel with pdLive := Function.update kernel.pdLive pageDir true }

/-- The section of `fork_common` under `task_lock`, on core `cid`; without a slot the clone
is freed again. -/
def forkCommon (kernel : Kernel) (cid : Nat) (args : ForkArgs) : Kernel × Option Nat :=
  match kernel.currentTask cid with
  | none => (kernel, none)
  | some parent =>
    if parent = 0 ∨ rlimitNprocAllows kernel parent = false ∨ args.clone = 0 then (kernel, none)
    else
      let kernel := allocPageDir kernel args.clone
      match claimSlot kernel 1 with
      | none => (vmmFreeAddressSpace kernel args.clone, none)
      | some tid =>
        (publish kernel (rqLeastLoaded kernel) tid
          (forkFill kernel parent args tid (kernel.tasks tid)), some tid)

/-! ### fork and exec in one step -/

/-- The arguments of `task_fork_exec`, the directory and heap start `loader_build_image`
returns (`0` for a failure), and what `vmm_setup_user_stack` returns for a slot. -/
structure ForkExecArgs where
  path : List Char
  arg : List Char
  image : Nat
  heapStart : Nat
  userStack : Nat → Nat

/-- The fields `task_fork_exec` writes. -/
def forkExecFill (kernel : Kernel) (creator : Nat) (args : ForkExecArgs) (tid : Nat)
    (slot : Task) : Task :=
  let source := kernel.tasks creator
  { slot with
    ring := 3
    priority := priorityInteractive
    pageDir := args.image
    sleepTicks := 0
    waitTicks := 0
    rqCpu := none
    isIdle := false
    parent := creator
    exitCode := 0
    pgrp := source.pgrp
    session := source.session
    waiting := 0
    pendingSignals := 0
    blockedSignals := 0
    sigRestartTicks := 0
    sigFrameEsp := 0
    zombieSince := 0
    shmBits := 0
    heapPtr := args.heapStart
    currentDir := source.currentDir
    rlimits := source.rlimits
    mmapRegions := clearBases (mmapFreeDirtyBitmaps slot.mmapRegions)
    signalHandlers := signalTable 0
    launchArg := if args.arg = [] then args.path.take 127 else args.arg.take 127
    esp := userFrame kernel tid
    stackWatermark := 0 }

/-- `task_fork_exec` on core `cid`; on failure the image is freed again. -/
def taskForkExec (kernel : Kernel) (cid : Nat) (args : ForkExecArgs) : Kernel × Option Nat :=
  match kernel.currentTask cid with
  | none => (kernel, none)
  | some creator =>
    if creator = 0 ∨ args.image = 0 then (kernel, none)
    else
      let kernel := allocPageDir kernel args.image
      if rlimitNprocAllows kernel creator = false then
        (vmmFreeAddressSpace kernel args.image, none)
      else
        match claimSlot kernel 1 with
        | none => (vmmFreeAddressSpace kernel args.image, none)
        | some tid =>
          if args.userStack tid = 0 then (vmmFreeAddressSpace kernel args.image, none)
          else
            (publish kernel (rqLeastLoaded kernel) tid
              (forkExecFill kernel creator args tid (kernel.tasks tid)), some tid)

end MectovOS.Sched
