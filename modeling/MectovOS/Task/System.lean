/-
This file assembles the task layer into one transition system: `init_tasking`
gives the initial states, and every label is one critical section of one core,
with the inputs that come from outside the task layer. A core that holds
something between two sections of one call has its interrupts off, so it takes
no tick and starts nothing else.
-/

import MectovOS.Lib.Transition
import MectovOS.Task.Schedule

namespace MectovOS.Sched

/-! ### init_tasking -/

/-- A zeroed slot as the first loop of `init_tasking` leaves it. -/
def bootTask : Task where
  esp := 0
  stackWatermark := 0
  state := .free
  ring := 0
  priority := priorityInteractive
  sleepTicks := 0
  waitTicks := 0
  rqCpu := none
  isIdle := false
  pageDir := 0
  launchArg := []
  name := []
  trustedShell := false
  currentDir := 0
  heapPtr := userHeapBase
  parent := 0
  exitCode := 0
  pgrp := 0
  session := 0
  waiting := 0
  pendingSignals := 0
  signalHandlers := signalTable 0
  sigMasks := signalTable 0
  sigFlags := signalTable 0
  blockedSignals := 0
  sigRestartTicks := 0
  sigFrameEsp := 0
  zombieSince := 0
  shmBits := 0
  cpuTicks := 0
  nice := 0
  mmapRegions := List.replicate mmapMaxRegions ⟨0, 0, 0, 0, 0, 0⟩
  uid := 0
  gid := 0
  tlsBase := 0
  rlimits := rlimitDefaults

/-- What the machine gives `init_tasking`: the number of cores (`MAX_CORES` bounds it), the
kernel stacks, the boot page directory, and the timeout of the reaper. -/
structure Machine where
  cores : Nat
  kstacks : Nat
  bootCr3 : Nat
  zombieReapMs : Nat
  cores_pos : 0 < cores
  cores_le : cores ≤ maxCpus
  bootCr3_pos : 0 < bootCr3

/-- The kernel after the slots are cleared and task 0 is the running kernel task. -/
def bootKernel (machine : Machine) : Kernel where
  tasks := Function.update (fun _ => bootTask) 0
    { bootTask with
      state := .running, pageDir := machine.bootCr3, launchArg := "idle".toList
      rqCpu := some 0 }
  currentTask := fun cid => if cid = 0 then some 0 else none
  rq := fun cid => if cid = 0 then [0] else []
  numTasks := 1
  smpCpuCount := machine.cores
  kstacks := machine.kstacks
  cr3 := fun _ => machine.bootCr3
  ticks := 0
  zombieReapMs := machine.zombieReapMs
  deferredPdQ := []
  pending := fun _ => none
  fresh := fun _ => none
  commits := []
  pdLive := fun pageDir => pageDir = machine.bootCr3
  frees := []

/-- `init_tasking`: an idle task for every core but the boot core, in the order of their
LAPIC ids. -/
def initTasking (machine : Machine) : Kernel :=
  ((List.range machine.cores).filter (0 < ·)).foldl
    (fun kernel cpu => (createIdleTask kernel cpu).1) (bootKernel machine)

/-! ### Attributes set without a lock -/

/-- The setters of the task table that other parts of the kernel call. -/
inductive Attribute where
  | sigaction (sig handler : Nat) (mask flags : BitVec 32)
  | blocked (bits : BitVec 32)
  | sigFrameEsp (esp : Nat)
  | uid (id : Int)
  | gid (id : Int)
  | trustedShell (trusted : Bool)
  | nice (value callerUid : Int)
  | tlsBase (base : Nat)
  | heapPtr (ptr : Nat)
  | mmapRegion (index : Nat) (region : MmapRegion)

/-- The attribute a setter leaves in the task. -/
def Attribute.apply (task : Task) : Attribute → Task
  | .sigaction sig handler mask flags =>
    if sig = 0 ∨ sigMax ≤ sig then task
    else { task with
      signalHandlers := task.signalHandlers.set sig handler
      sigMasks := task.sigMasks.set sig mask
      sigFlags := task.sigFlags.set sig flags }
  | .blocked bits => { task with blockedSignals := bits }
  | .sigFrameEsp esp => { task with sigFrameEsp := esp }
  | .uid id => { task with uid := id }
  | .gid id => { task with gid := id }
  | .trustedShell trusted => { task with trustedShell := trusted }
  | .nice value callerUid =>
    let value := max (-20) (min 19 value)
    if task.state = .free ∨ (value < task.nice ∧ callerUid ≠ rootUid) then task
    else { task with nice := value }
  | .tlsBase base => { task with tlsBase := base }
  | .heapPtr ptr => { task with heapPtr := ptr }
  | .mmapRegion index region =>
    { task with mmapRegions := task.mmapRegions.set index region }

def setAttribute (kernel : Kernel) (tid : Nat) (value : Attribute) : Kernel :=
  if maxTasks ≤ tid then kernel
  else kernel.setTask tid fun task => value.apply task

/-! ### The transition system -/

/-- One critical section, with the core that runs it. -/
inductive Label where
  | tick (cid esp : Nat) (sweep : Bool) (frames : Nat → UserFrame)
  | clock (ticks : BitVec 32)
  | createTask (cid : Nat)
  | spawn (cid : Nat) (args : ThreadArgs)
  | threadBegin (cid : Nat)
  | threadCreate (cid : Nat) (args : ThreadArgs)
  | fork (cid : Nat) (args : ForkArgs)
  | forkExec (cid : Nat) (args : ForkExecArgs)
  | execSwitch (cid image : Nat)
  | execRewire (cid : Nat) (args : ExecArgs)
  | exit (cid code : Nat)
  | signal (cid tid sig : Nat)
  | deliver (cid : Nat) (frame : UserFrame)
  | fault (cid sig : Nat) (frame : UserFrame)
  | sleep (cid : Nat) (ticks : Int)
  | wake (cid tid : Nat)
  | block (cid : Nat)
  | unblock (cid tid : Nat)
  | waitReap (cid child : Nat)
  | waitPark (cid : Nat) (pid : Int)
  | waitDone (cid : Nat)
  | reap (cid : Nat) (now : BitVec 32)
  | set (cid tid : Nat) (value : Attribute)

/-- The core exists and is not inside a call with its interrupts off. -/
def quiet (kernel : Kernel) (cid : Nat) : Bool :=
  cid < kernel.smpCpuCount && kernel.pending cid = none

/-- The task that makes calls on a core: its current task, unless that is an idle task,
which only halts. -/
def caller (kernel : Kernel) (cid : Nat) : Option Nat :=
  if quiet kernel cid then
    (kernel.currentTask cid).filter fun tid => !(kernel.tasks tid).isIdle
  else none

/-- A directory the frame allocator may return: no live directory, and not 0. -/
def freshDir (kernel : Kernel) (pageDir : Nat) : Bool :=
  pageDir ≠ 0 && !kernel.pdLive pageDir

/-- The saved frame of a Ring 0 task never returns to Ring 3. -/
def framesMatch (kernel : Kernel) (frames : Nat → UserFrame) : Bool :=
  (List.range maxTasks).all fun tid => (kernel.tasks tid).ring ≠ 0 || (frames tid).ring3 = false

def setPending (kernel : Kernel) (cid : Nat) (pending : Option Pending) : Kernel :=
  { kernel with pending := Function.update kernel.pending cid pending }

/-- `load_mct_app` from `finish_loaded_task` on: a thread in a directory of its own, which is
freed when the thread cannot be made. -/
def spawnTask (kernel : Kernel) (cid : Nat) (args : ThreadArgs) : Kernel :=
  match threadCreateEx (allocPageDir kernel args.pageDir) cid args with
  | (kernel, some _) => kernel
  | (kernel, none) => vmmFreeAddressSpace kernel args.pageDir

/-- One step of the system; `none` when the label is not enabled. -/
def step (kernel : Kernel) : Label → Option Kernel
  | .tick cid esp sweep frames =>
    if quiet kernel cid ∧ framesMatch kernel frames then
      (schedule kernel cid esp sweep frames).map Prod.fst
    else none
  | .clock ticks => some { kernel with ticks := ticks }
  | .createTask cid => (caller kernel cid).map fun _ => (createTask kernel cid).1
  | .spawn cid args =>
    (caller kernel cid).bind fun _ =>
      if freshDir kernel args.pageDir then some (spawnTask kernel cid args) else none
  | .threadBegin cid =>
    (caller kernel cid).bind fun tid =>
      if taskInKernelSpace kernel tid then none
      else some (setPending kernel cid (some (.thread (kernel.tasks tid).pageDir)))
  | .threadCreate cid args =>
    if kernel.pending cid = some (.thread args.pageDir) then
      some (threadCreateEx (setPending kernel cid none) cid args).1
    else none
  | .fork cid args =>
    (caller kernel cid).bind fun tid =>
      if taskInKernelSpace kernel tid ∧ (kernel.tasks tid).state.dead = false then none
      else if args.clone = 0 ∨ freshDir kernel args.clone then
        some (forkCommon kernel cid args).1
      else none
  | .forkExec cid args =>
    (caller kernel cid).bind fun _ =>
      if args.image = 0 ∨ freshDir kernel args.image then some (taskForkExec kernel cid args).1
      else none
  | .execSwitch cid image =>
    (caller kernel cid).bind fun tid =>
      if tid = 0 ∨ taskInKernelSpace kernel tid ∧ (kernel.tasks tid).state.dead = false then none
      else if freshDir kernel image then
        some (setPending (taskExecSwitch (allocPageDir kernel image) cid tid image) cid
          (some (.exec image)))
      else none
  | .execRewire cid args =>
    match kernel.pending cid, kernel.currentTask cid with
    | some (.exec image), some tid =>
      some (taskExecRewire (setPending kernel cid none) tid image args)
    | _, _ => none
  | .exit cid code => (caller kernel cid).map fun _ => taskExitWithCode kernel cid code
  | .signal cid tid sig => if quiet kernel cid then some (taskSignal kernel cid tid sig) else none
  | .deliver cid frame =>
    (caller kernel cid).map fun _ => (taskDeliverSignals kernel cid frame).1
  | .fault cid sig frame => (caller kernel cid).map fun _ => taskFaultSignal kernel cid sig frame
  | .sleep cid ticks => (caller kernel cid).map fun _ => taskSleep kernel cid ticks
  | .wake cid tid => if quiet kernel cid then some (taskWake kernel tid) else none
  | .block cid => (caller kernel cid).map fun tid => taskSetState kernel tid .blocked
  | .unblock cid tid => if quiet kernel cid then some (taskSetState kernel tid .ready) else none
  | .waitReap cid child =>
    (caller kernel cid).bind fun self =>
      if self = 0 ∨ child = 0 ∨ maxTasks ≤ child then none
      else some (waitpidReap kernel self child)
  | .waitPark cid pid =>
    (caller kernel cid).bind fun self =>
      if self = 0 then none else some (waitpidPark kernel self pid)
  | .waitDone cid =>
    (caller kernel cid).map fun self =>
      kernel.setTask self fun task => { task with waiting := 0 }
  | .reap cid now => (caller kernel cid).map fun _ => taskReapZombies kernel now
  | .set cid tid value =>
    if quiet kernel cid then some (setAttribute kernel tid value) else none

/-- The task layer as a transition system. -/
def taskSystem : Transition.System Kernel Label :=
  Transition.System.ofStep (fun kernel => ∃ machine, kernel = initTasking machine) step

/-! ### Small machines -/

/-- A machine with its kernel stacks at 2 MiB and its boot directory at 1 MiB. -/
def smallMachine (cores : Nat) (cores_pos : 0 < cores) (cores_le : cores ≤ maxCpus) : Machine :=
  ⟨cores, 0x200000, 0x100000, 30000, cores_pos, cores_le, by decide⟩

def oneCore : Machine := smallMachine 1 (by decide) (by decide)

def twoCores : Machine := smallMachine 2 (by decide) (by decide)

/-- A thread of a directory, with the default stack. -/
def threadArgs (pageDir : Nat) : ThreadArgs :=
  ⟨priorityInteractive, pageDir, 0, 0, fun _ => 0xBFFFF000⟩

/-! ### Runs from boot -/

/-- The kernel after a history that starts at boot. -/
def bootRun (machine : Machine) (history : List Label) : Kernel :=
  (Transition.execute step (initTasking machine) history).getD (initTasking machine)

theorem bootRun_reachable {machine : Machine} {history : List Label}
    (completes : (Transition.execute step (initTasking machine) history).isSome = true) :
    taskSystem.Reachable Transition.anyStep (bootRun machine history) := by
  obtain ⟨final, run⟩ := Option.isSome_iff_exists.mp completes
  unfold bootRun
  rw [run]
  exact Transition.reachable_execute (.init ⟨machine, rfl⟩) run

end MectovOS.Sched
