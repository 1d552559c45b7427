/-
This file models the per-CPU runqueues of src/sys/task.c: enqueueing with its
refusals, removal by moving the last entry into the hole, the least-loaded core,
the weighted pick from a core's own queue and the steal from a peer.
-/

import MectovOS.Lib.SwapRemove
import MectovOS.Task.Kernel

namespace MectovOS.Sched

open Function

open SwapRemove (swapRemove)

/-! ### Membership -/

/-- `rq_enqueue`: queue a task that is not queued, not dead, and not a foreign idle task. -/
def rqEnqueue (kernel : Kernel) (cpu tid : Nat) : Kernel :=
  if maxTasks ≤ tid ∨ maxCpus ≤ cpu then kernel
  else if (kernel.tasks tid).rqCpu.isSome then kernel
  else if (kernel.tasks tid).state.dead then kernel
  else if (kernel.tasks tid).isIdle ∧ cpu ≠ tid then kernel
  else
    let cpu := if maxTasks ≤ (kernel.rq cpu).length then 0 else cpu
    { kernel with rq := update kernel.rq cpu (kernel.rq cpu ++ [tid]) }.setTask tid
      fun task => { task with rqCpu := some cpu }

/-- `rq_remove`. -/
def rqRemove (kernel : Kernel) (tid : Nat) : Kernel :=
  if maxTasks ≤ tid then kernel
  else
    match (kernel.tasks tid).rqCpu with
    | none => kernel
    | some cpu =>
      if maxCpus ≤ cpu then kernel
      else
        { kernel with rq := update kernel.rq cpu (swapRemove (kernel.rq cpu) tid)
          }.setTask tid fun task => { task with rqCpu := none }

/-- `rq_cpu_count`: the cores that exist. -/
def rqCpuCount (kernel : Kernel) : Nat :=
  if kernel.smpCpuCount < 1 ∨ maxCpus < kernel.smpCpuCount then 1 else kernel.smpCpuCount

/-- `rq_least_loaded`: the core with the fewest queued tasks, ties to the lowest id. -/
def rqLeastLoaded (kernel : Kernel) : Nat :=
  (List.range (rqCpuCount kernel)).foldl
    (fun best cid => if (kernel.rq cid).length < (kernel.rq best).length then cid else best) 0

/-- `rq_enqueue_wake`: the kernel's main loop and idle tasks are never woken. -/
def rqEnqueueWake (kernel : Kernel) (tid : Nat) : Kernel :=
  if tid = 0 ∨ maxTasks ≤ tid then kernel
  else if (kernel.tasks tid).isIdle then kernel
  else rqEnqueue kernel (rqLeastLoaded kernel) tid

/-! ### Picking -/

/-- The weight of a task: class, then nice, then the ticks it has waited. -/
def score (task : Task) : Int :=
  task.priority * 10 + (10 - task.nice).tdiv 2 + task.waitTicks

/-- May `rq_pick` on this core take the task? -/
def pickable (kernel : Kernel) (cid tid : Nat) : Bool :=
  (kernel.tasks tid).state = .ready && !(tid = 0 && cid ≠ 0) &&
    !((kernel.tasks tid).isIdle && cid ≠ tid) && !taskIsCurrentElsewhere kernel cid tid

/-- The scan of `rq_pick`: every candidate ages by a tick, the heaviest wins. -/
def pickScan (cid : Nat) : Kernel → Option Nat → Int → List Nat → Kernel × Option Nat
  | kernel, best, _, [] => (kernel, best)
  | kernel, best, bestScore, tid :: rest =>
    if pickable kernel cid tid then
      let kernel := kernel.setTask tid fun task => { task with waitTicks := task.waitTicks + 1 }
      if bestScore < score (kernel.tasks tid) then
        pickScan cid kernel (some tid) (score (kernel.tasks tid)) rest
      else pickScan cid kernel best bestScore rest
    else pickScan cid kernel best bestScore rest

/-- `rq_pick`. -/
def rqPick (kernel : Kernel) (cid : Nat) : Kernel × Option Nat :=
  match pickScan cid kernel none (-1) (kernel.rq cid) with
  | (kernel, none) => (kernel, none)
  | (kernel, some tid) =>
    (kernel.setTask tid fun task => { task with waitTicks := 0 }, some tid)

/-- May `rq_steal` on this core take the task from a peer? -/
def stealable (kernel : Kernel) (cid tid : Nat) : Bool :=
  tid ≠ 0 && !(kernel.tasks tid).isIdle && (kernel.tasks tid).state = .ready &&
    !taskIsCurrentElsewhere kernel cid tid

/-- The scan of `rq_steal` over the tasks queued on the peers, each with its queue. -/
def stealScan (kernel : Kernel) (cid : Nat) :
    Option (Nat × Nat) → Int → List (Nat × Nat) → Option (Nat × Nat)
  | best, _, [] => best
  | best, bestScore, (source, tid) :: rest =>
    if stealable kernel cid tid ∧ bestScore < score (kernel.tasks tid) then
      stealScan kernel cid (some (source, tid)) (score (kernel.tasks tid)) rest
    else stealScan kernel cid best bestScore rest

/-- The tasks queued on every other core that exists. -/
def peerQueues (kernel : Kernel) (cid : Nat) : List (Nat × Nat) :=
  ((List.range (rqCpuCount kernel)).filter (· ≠ cid)).flatMap fun source =>
    (kernel.rq source).map fun tid => (source, tid)

/-- Move a queued task to the end of another runqueue. -/
def migrate (kernel : Kernel) (source cid tid : Nat) : Kernel :=
  let taken := update kernel.rq source (swapRemove (kernel.rq source) tid)
  { kernel with rq := update taken cid (taken cid ++ [tid]) }.setTask tid
    fun task => { task with rqCpu := some cid }

/-- `rq_steal`: migrate the heaviest task of the peers to this core. -/
def rqSteal (kernel : Kernel) (cid : Nat) : Kernel × Option Nat :=
  match stealScan kernel cid none (-1) (peerQueues kernel cid) with
  | none => (kernel, none)
  | some (source, tid) => (migrate kernel source cid tid, some tid)

end MectovOS.Sched
