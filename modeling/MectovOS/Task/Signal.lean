/-
This file models the signals of src/sys/task.c. `task_signal` decides under
`task_lock`; its checks that the target is alive come before the lock and may be
stale by then, so the section is modelled for any target. `task_deliver_signals`
delivers one pending signal to the current task: what the saved user frame and
the user stack look like is an input of the step.
-/

import MectovOS.Task.Terminate

namespace MectovOS.Sched

def signalBit (sig : Nat) : BitVec 32 := 1#32 <<< sig

def handlerOf (task : Task) (sig : Nat) : Nat := task.signalHandlers.getD sig 0

def maskOf (task : Task) (sig : Nat) : BitVec 32 := task.sigMasks.getD sig 0

def flagsOf (task : Task) (sig : Nat) : BitVec 32 := task.sigFlags.getD sig 0

/-- Suspend a task: off its runqueue until it is continued. -/
def stopTask (kernel : Kernel) (tid : Nat) (cleared : BitVec 32) : Kernel :=
  rqRemove (kernel.setTask tid fun task =>
    { task with state := .stopped, pendingSignals := task.pendingSignals &&& ~~~cleared }) tid

/-- The signals that suspend a task by default. -/
def stopsByDefault (sig : Nat) : Bool := sig = sigtstp || sig = sigttin || sig = sigttou

/-- A handler is installed: mark the signal pending and wake a parked task. -/
def postSignal (kernel : Kernel) (tid sig : Nat) : Kernel :=
  let kernel := kernel.setTask tid fun task =>
    { task with pendingSignals := task.pendingSignals ||| signalBit sig }
  let task := kernel.tasks tid
  if task.state = .blocked ∨ task.state = .sleep then
    let restart := flagsOf task sig &&& saRestart ≠ 0 ∧ task.state = .sleep
    rqEnqueueWake (kernel.setTask tid fun task =>
      { task with
        sigRestartTicks := if restart then task.sleepTicks else task.sigRestartTicks,
        state := .ready }) tid
  else kernel

/-- The section of `task_signal` under `task_lock`, on core `cid`. -/
def taskSignal (kernel : Kernel) (cid tid sig : Nat) : Kernel :=
  if tid = 0 ∨ maxTasks ≤ tid ∨ sig = 0 ∨ sigMax ≤ sig then kernel
  else if sig = sigkill then terminateTask kernel cid tid (128 + sigkill)
  else if sig = sigstop then stopTask kernel tid (signalBit sigstop ||| signalBit sigtstp)
  else if sig = sigcont then
    let kernel := kernel.setTask tid fun task => { task with
      pendingSignals := task.pendingSignals &&& ~~~(signalBit sigstop ||| signalBit sigtstp) }
    if (kernel.tasks tid).state = .stopped then
      rqEnqueueWake (kernel.setTask tid fun task => { task with state := .ready }) tid
    else kernel
  else if (kernel.tasks tid).blockedSignals &&& signalBit sig ≠ 0 then
    kernel.setTask tid fun task =>
      { task with pendingSignals := task.pendingSignals ||| signalBit sig }
  else if handlerOf (kernel.tasks tid) sig = sigIgnSentinel then kernel
  else if handlerOf (kernel.tasks tid) sig = 0 then
    if sig = sigchld then kernel
    else if stopsByDefault sig then stopTask kernel tid (signalBit sig)
    else terminateTask kernel cid tid (128 + sig)
  else postSignal kernel tid sig

/-- What `task_deliver_signals` finds in user space: the frame returns to Ring 3, the user
stack is mapped and writable, and its top. -/
structure UserFrame where
  ring3 : Bool
  stackValid : Bool
  useresp : Nat

/-- Enter a user handler: the mask while it runs, and the frame it will return through. -/
def enterHandler (kernel : Kernel) (tid sig : Nat) (frame : UserFrame) : Kernel :=
  kernel.setTask tid fun task =>
    { task with
      sigRestartTicks := 0
      blockedSignals := task.blockedSignals ||| maskOf task sig |||
        (if flagsOf task sig &&& saNodefer ≠ 0 then 0 else signalBit sig)
      sigFrameEsp := frame.useresp - 64 }

/-- The scan of `task_deliver_signals` over the signals from `sig` on; the flag says whether
the frame was rewritten. -/
def deliverScan (cid tid : Nat) (frame : UserFrame) : Nat → Nat → Kernel → Kernel × Bool
  | 0, _, kernel => (kernel, false)
  | fuel + 1, sig, kernel =>
    let task := kernel.tasks tid
    if task.pendingSignals &&& signalBit sig = 0 then
      deliverScan cid tid frame fuel (sig + 1) kernel
    else if task.blockedSignals &&& signalBit sig ≠ 0 ∧
        sig ≠ sigkill ∧ sig ≠ sigstop ∧ sig ≠ sigcont then
      deliverScan cid tid frame fuel (sig + 1) kernel
    else
      let kernel := kernel.setTask tid fun task =>
        { task with pendingSignals := task.pendingSignals &&& ~~~signalBit sig }
      if handlerOf task sig = sigIgnSentinel then
        deliverScan cid tid frame fuel (sig + 1) kernel
      else if handlerOf task sig = 0 then
        if sig = sigchld then deliverScan cid tid frame fuel (sig + 1) kernel
        else (terminateTask kernel cid tid (128 + sig), true)
      else if frame.stackValid then (enterHandler kernel tid sig frame, true)
      else (terminateTask kernel cid tid (128 + sig), true)

/-- `task_deliver_signals` on the current task of core `cid`. -/
def taskDeliverSignals (kernel : Kernel) (cid : Nat) (frame : UserFrame) : Kernel × Bool :=
  match kernel.currentTask cid with
  | none => (kernel, false)
  | some tid =>
    if frame.ring3 = false ∨ tid = 0 ∨ maxTasks ≤ tid ∨ (kernel.tasks tid).state.dead ∨
        (kernel.tasks tid).pendingSignals = 0 ∨ (kernel.tasks tid).sigFrameEsp ≠ 0 then
      (kernel, false)
    else deliverScan cid tid frame (sigMax - 1) 1 kernel

/-- `task_fault_signal`: a fault of the current task, delivered or deadly. -/
def taskFaultSignal (kernel : Kernel) (cid sig : Nat) (frame : UserFrame) : Kernel :=
  match kernel.currentTask cid with
  | none => kernel
  | some tid =>
    if frame.ring3 = false ∨ tid = 0 ∨ maxTasks ≤ tid ∨ sig = 0 ∨ sigMax ≤ sig then kernel
    else if handlerOf (kernel.tasks tid) sig = 0 ∨
        handlerOf (kernel.tasks tid) sig = sigIgnSentinel then
      terminateTask kernel cid tid (128 + sig)
    else
      let (kernel, delivered) := taskDeliverSignals (kernel.setTask tid fun task =>
        { task with pendingSignals := task.pendingSignals ||| signalBit sig }) cid frame
      if delivered then kernel else terminateTask kernel cid tid (128 + sig)

end MectovOS.Sched
