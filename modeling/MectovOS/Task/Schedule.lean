/-
This file models the scheduler of src/sys/task.c: `schedule` with its sleep
upkeep, its integrity sweep, the save of the preempted frame, the choice of the
next task, the commit and the delivery of signals to the task about to run; and
the operations by which tasks sleep, block, wait and wake. A running task that
parks itself stays current until its core ticks.
-/

import MectovOS.Task.Create

namespace MectovOS.Sched

/-! ### The parts of `schedule` -/

/-- One task of the sleep upkeep. -/
def sleepTick (kernel : Kernel) (tid : Nat) : Kernel :=
  let task := kernel.tasks tid
  if task.state = .sleep then
    let left := if 0 < task.sleepTicks then task.sleepTicks - timerMsPerTick else task.sleepTicks
    let kernel := kernel.setTask tid fun task => { task with sleepTicks := left }
    if left ≤ 0 then
      rqEnqueueWake (kernel.setTask tid fun task => { task with state := .ready }) tid
    else kernel
  else kernel

/-- The sleep upkeep of the boot core. -/
def sleepUpkeep (kernel : Kernel) : Kernel := (List.range maxTasks).foldl sleepTick kernel

/-- `sched_integrity_sweep`: drop dead tasks from the runqueues. -/
def schedIntegritySweep (kernel : Kernel) : Kernel :=
  ((List.range maxTasks).filter (0 < ·)).foldl (fun kernel tid =>
    if (kernel.tasks tid).state.dead ∧ (kernel.tasks tid).rqCpu.isSome then rqRemove kernel tid
    else kernel) kernel

/-- The upkeep of one tick: on the boot core only, the sweep once a second. -/
def upkeep (kernel : Kernel) (cid : Nat) (sweep : Bool) : Kernel :=
  if cid = 0 then
    if sweep then schedIntegritySweep (sleepUpkeep kernel) else sleepUpkeep kernel
  else kernel

/-- `cur_dead`: the current task has exited or been freed. -/
def curDead (kernel : Kernel) (cur : Option Nat) : Bool :=
  match cur with
  | none => false
  | some tid => 0 < tid && tid < maxTasks && (kernel.tasks tid).state.dead

/-- Save the frame of the preempted task; a running task becomes ready and stays queued. -/
def saveCurrent (kernel : Kernel) (cid : Nat) (cur : Option Nat) (esp : Nat) : Kernel :=
  match cur with
  | none => kernel
  | some tid =>
    if maxTasks ≤ tid ∨ curDead kernel cur then kernel
    else
      let kernel := kernel.setTask tid fun task =>
        { task with
          esp := esp
          stackWatermark :=
            if kstackGuard kernel tid + kernelStackGuard ≤ esp ∧ esp ≤ kstackTop kernel tid ∧
                task.stackWatermark < kstackTop kernel tid - esp then
              kstackTop kernel tid - esp
            else task.stackWatermark
          state := if task.state = .running then .ready else task.state }
      if (kernel.tasks tid).state = .ready ∧ (kernel.tasks tid).rqCpu = none then
        rqEnqueue kernel cid tid
      else kernel

/-- The idle task of a core: the kernel main loop on the boot core. -/
def idleOf (cid : Nat) : Nat := if cid = 0 then 0 else if cid < maxTasks then cid else 0

/-- `rq_pick`, then `rq_steal` when nothing was picked. -/
def pickOrSteal (kernel : Kernel) (cid : Nat) : Kernel × Option Nat :=
  match rqPick kernel cid with
  | (kernel, some tid) => (kernel, some tid)
  | (kernel, none) => rqSteal kernel cid

/-- The choice of the next task; `none` returns into the current frame. -/
def chooseNext (kernel : Kernel) (cid : Nat) (cur : Option Nat) (dead : Bool) :
    Kernel × Option Nat :=
  match pickOrSteal kernel cid with
  | (kernel, some tid) => (kernel, some tid)
  | (kernel, none) =>
    match cur with
    | none => (kernel, none)
    | some tid =>
      if dead then (kernel, if idleOf cid ≠ tid then some (idleOf cid) else none)
      else if (kernel.tasks tid).state = .ready ∨ (kernel.tasks tid).state = .running then
        (kernel, some tid)
      else (kernel, none)

/-- The commit: the task runs on this core, under its own page directory. -/
def commit (kernel : Kernel) (cid next : Nat) : Kernel :=
  let entry := (next, (kernel.tasks next).state)
  let kernel := kernel.setTask next fun task => { task with state := .running }
  let kernel := { kernel with
    currentTask := Function.update kernel.currentTask cid (some next)
    commits := entry :: kernel.commits
    fresh := Function.update kernel.fresh next none }
  vmmSwitchPageDir kernel cid
    (if (kernel.tasks next).pageDir ≠ 0 then (kernel.tasks next).pageDir
      else (kernel.tasks 0).pageDir)

/-- Pick again after a signal killed the committed task; `none` when only the idle task is
left and the core came from it. -/
def repick (kernel : Kernel) (cid : Nat) (cur : Option Nat) : Kernel × Option Nat :=
  match pickOrSteal kernel cid with
  | (kernel, some tid) => (kernel, some tid)
  | (kernel, none) => (kernel, if cur = some (idleOf cid) then none else some (idleOf cid))

/-- Deliver the pending signals of the committed task, and pick again when one kills it;
`none` returns into the frame the core came from. -/
def deliverLoop (cid : Nat) (cur : Option Nat) (frames : Nat → UserFrame) :
    Nat → Kernel → Nat → Kernel × Option Nat
  | 0, kernel, next => (kernel, some next)
  | fuel + 1, kernel, next =>
    if (kernel.tasks next).state = .running ∧ (kernel.tasks next).pendingSignals ≠ 0 then
      match taskDeliverSignals kernel cid (frames next) with
      | (kernel, false) => (kernel, some next)
      | (kernel, true) =>
        if (kernel.tasks next).state = .zombie then
          match repick kernel cid cur with
          | (kernel, none) => (kernel, none)
          | (kernel, some tid) => deliverLoop cid cur frames fuel (commit kernel cid tid) tid
        else deliverLoop cid cur frames fuel kernel next
    else (kernel, some next)

/-- Every delivery clears a pending bit of a task or kills it. -/
def deliverFuel : Nat := maxTasks * sigMax

/-- The switches `schedule` refuses: a foreign idle task, a dead task, a bad slot. -/
def refuseCommit (kernel : Kernel) (cid next : Nat) : Bool :=
  (0 < next && next < maxTasks && (kernel.tasks next).isIdle && cid ≠ next) ||
    (0 < next && next < maxTasks && (kernel.tasks next).state.dead) || maxTasks ≤ next

/-- The end of `schedule`: commit the next task, deliver its signals, return its frame. -/
def switchTo (kernel : Kernel) (cid esp : Nat) (cur : Option Nat) (next : Nat)
    (frames : Nat → UserFrame) : Kernel × Nat :=
  if refuseCommit kernel cid next then (kernel, esp)
  else
    let kernel := commit kernel cid next
    if (kernel.tasks next).ring = 3 then
      match deliverLoop cid cur frames deliverFuel kernel next with
      | (kernel, none) => (kernel, esp)
      | (kernel, some final) => (kernel, (kernel.tasks final).esp)
    else (kernel, (kernel.tasks next).esp)

/-- The accounting of the tick to the task that lost the core. -/
def accountTick (kernel : Kernel) (cur : Option Nat) (dead : Bool) : Kernel :=
  match cur with
  | none => kernel
  | some tid =>
    if 0 < tid ∧ dead = false ∧ (kernel.tasks tid).isIdle = false then
      kernel.setTask tid fun task => { task with cpuTicks := task.cpuTicks + 1 }
    else kernel

/-- An idle task is current on a foreign core: `schedule` panics and the machine halts. -/
def foreignIdle (kernel : Kernel) (cid : Nat) (cur : Option Nat) : Bool :=
  match cur with
  | none => false
  | some tid => 0 < tid && tid < maxTasks && (kernel.tasks tid).isIdle && cid ≠ tid

/-- `schedule` on core `cid`, interrupted with its frame at `esp`: the kernel after the tick
and the frame it returns to. -/
def schedule (kernel : Kernel) (cid esp : Nat) (sweep : Bool) (frames : Nat → UserFrame) :
    Option (Kernel × Nat) :=
  let cur := kernel.currentTask cid
  let kernel := upkeep kernel cid sweep
  if kernel.numTasks ≤ 1 ∧ cur.isSome then some (kernel, esp)
  else if foreignIdle kernel cid cur then none
  else
    let dead := curDead kernel cur
    match chooseNext (saveCurrent kernel cid cur esp) cid cur dead with
    | (kernel, none) => some (kernel, esp)
    | (kernel, some next) =>
      some (switchTo (accountTick kernel cur dead) cid esp cur next frames)

/-! ### Parking and waking -/

/-- The section of `task_sleep` for the current task of core `cid`. -/
def taskSleep (kernel : Kernel) (cid : Nat) (ticks : Int) : Kernel :=
  match kernel.currentTask cid with
  | none => kernel
  | some tid =>
    if ticks ≤ 0 then kernel
    else
      rqRemove (kernel.setTask tid fun task =>
        { task with sleepTicks := ticks, state := .sleep }) tid

/-- `task_wake`. -/
def taskWake (kernel : Kernel) (tid : Nat) : Kernel :=
  if maxTasks ≤ tid then kernel
  else if (kernel.tasks tid).state = .sleep then
    rqEnqueueWake (kernel.setTask tid fun task =>
      { task with sleepTicks := 0, state := .ready }) tid
  else kernel

/-- `task_set_state`. -/
def taskSetState (kernel : Kernel) (tid : Nat) (state : TaskState) : Kernel :=
  if maxTasks ≤ tid then kernel
  else if (kernel.tasks tid).isIdle ∧ state ≠ .running ∧ state ≠ .ready then kernel
  else if (kernel.tasks tid).state.dead ∧ (state = .ready ∨ state = .running) then kernel
  else if (kernel.tasks tid).state = state then kernel
  else
    let kernel := kernel.setTask tid fun task => { task with state := state }
    if state = .ready then
      let kernel := kernel.setTask tid fun task => { task with sleepTicks := 0 }
      if taskCurrentAnywhere kernel tid then kernel else rqEnqueueWake kernel tid
    else if state ≠ .running then rqRemove kernel tid
    else kernel

/-! ### Waiting for children -/

/-- The children `task_waitpid` accepts. -/
def waitsFor (kernel : Kernel) (self : Nat) (pid : Int) (child : Nat) : Bool :=
  0 < child && (kernel.tasks child).state ≠ .free && (kernel.tasks child).parent = self &&
    !(0 < pid && (child : Int) ≠ pid)

/-- The section of `task_waitpid` that reaps a zombie, after checking it again. -/
def waitpidReap (kernel : Kernel) (self child : Nat) : Kernel :=
  if (kernel.tasks child).state ≠ .zombie ∨ (kernel.tasks child).parent ≠ self then kernel
  else freeSlot kernel child

/-- Park a task until one of its children exits. -/
def parkWaiting (kernel : Kernel) (self : Nat) (pid : Int) : Kernel :=
  rqRemove (kernel.setTask self fun task =>
    { task with waiting := if 0 < pid then pid else -1, state := .blocked }) self

/-- The section of `task_waitpid` that parks the caller, undone when a zombie is found. -/
def waitpidPark (kernel : Kernel) (self : Nat) (pid : Int) : Kernel :=
  let kernel := parkWaiting kernel self pid
  if (List.range maxTasks).any fun child =>
      waitsFor kernel self pid child && (kernel.tasks child).state = .zombie then
    kernel.setTask self fun task => { task with waiting := 0, state := .ready }
  else kernel

/-! ### exec -/

/-- The part of `task_exec` that loads the new image and frees the old directory when no
other task uses it. It does not take `task_lock`. -/
def taskExecSwitch (kernel : Kernel) (cid tid image : Nat) : Kernel :=
  let kernel := vmmSwitchPageDir kernel cid image
  let oldPd := (kernel.tasks tid).pageDir
  if oldPd ≠ 0 ∧ oldPd ≠ (kernel.tasks 0).pageDir ∧ sharers kernel tid oldPd = 0 then
    vmmFreeAddressSpace kernel oldPd
  else kernel

/-- What `task_exec` rewires the task to: the start of the heap, the launch argument, and
the trust of the new image. -/
structure ExecArgs where
  heapStart : Nat
  launchArg : List Char
  trusted : Bool

/-- The part of `task_exec` that rewires the task to the new image. -/
def taskExecRewire (kernel : Kernel) (tid image : Nat) (args : ExecArgs) : Kernel :=
  kernel.setTask tid fun task =>
    { task with
      pageDir := image
      heapPtr := args.heapStart
      mmapRegions := clearBases (mmapFreeDirtyBitmaps task.mmapRegions)
      signalHandlers := task.signalHandlers.mapIdx fun sig handler =>
        if 1 ≤ sig ∧ handler ≠ sigIgnSentinel then 0 else handler
      sigMasks := task.sigMasks.mapIdx fun sig mask => if 1 ≤ sig then 0 else mask
      sigFlags := task.sigFlags.mapIdx fun sig flags => if 1 ≤ sig then 0 else flags
      pendingSignals := 0
      sigRestartTicks := 0
      sigFrameEsp := 0
      launchArg := args.launchArg.take 127
      trustedShell := args.trusted
      tlsBase := 0 }

end MectovOS.Sched
