/-
This file models what src/sys/sync.c sees of the tasks: whether a task is alive,
whether it is blocked, and whether it is still on a core. A task that blocks
itself spins on its core until the timer takes it off, so it notices any change
of its state at once; off its core it goes on only when it is ready again.
-/

import MectovOS.Task.Kernel

namespace MectovOS.Sync

open Function

open Sched (maxTasks)

/-! ### States of a task -/

/-- The states of a task: `dead` is FREE or ZOMBIE, and `ready` is READY, RUNNING or SLEEP. -/
inductive TaskState where
  | dead
  | ready
  | blocked
  | stopped
  deriving DecidableEq

structure Task where
  state : TaskState
  onCpu : Bool
  isIdle : Bool

/-- All tasks by their id. -/
abbrev Tasks := Nat → Task

/-- `task_is_alive`. -/
def taskIsAlive (tasks : Tasks) (tid : Nat) : Bool :=
  decide (tid < maxTasks) && decide ((tasks tid).state ≠ .dead)

/-- `task_set_state`: an idle task does not block, and a dead one is not revived. -/
def taskSetState (tasks : Tasks) (tid : Nat) (state : TaskState) : Tasks :=
  if maxTasks ≤ tid then tasks
  else if (tasks tid).isIdle ∧ state ≠ .ready then tasks
  else if (tasks tid).state = .dead ∧ state = .ready then tasks
  else update tasks tid { tasks tid with state := state }

theorem taskSetState_of_ne (tasks : Tasks) {tid other : Nat} (different : other ≠ tid)
    (state : TaskState) : taskSetState tasks tid state other = tasks other := by
  unfold taskSetState
  split
  · rfl
  split
  · rfl
  split
  · rfl
  · exact update_of_ne different _ _

@[simp] theorem taskSetState_isIdle (tasks : Tasks) (tid other : Nat) (state : TaskState) :
    (taskSetState tasks tid state other).isIdle = (tasks other).isIdle := by
  rcases eq_or_ne other tid with rfl | different
  · unfold taskSetState
    split
    · rfl
    split
    · rfl
    split
    · rfl
    · rw [update_self]
  · rw [taskSetState_of_ne tasks different]

/-- What happens to a task outside src/sys/sync.c. `wake` is a signal with a handler, or any
other path that makes a blocked task ready; `reuse` gives the id to a new task; `preempt` and
`dispatch` take a task off its core and put it on one. -/
inductive TaskStep where
  | wake (tid : Nat)
  | stop (tid : Nat)
  | cont (tid : Nat)
  | kill (tid : Nat)
  | reuse (tid : Nat)
  | preempt (tid : Nat)
  | dispatch (tid : Nat)

/-- The task a step is about. -/
def TaskStep.tid : TaskStep → Nat
  | .wake tid => tid
  | .stop tid => tid
  | .cont tid => tid
  | .kill tid => tid
  | .reuse tid => tid
  | .preempt tid => tid
  | .dispatch tid => tid

/-- What a step makes of its task; `none` when it does not apply. -/
def TaskStep.apply (task : Task) : TaskStep → Option Task
  | .wake _ => if task.state = .blocked then some { task with state := .ready } else none
  | .stop _ => if task.state ≠ .dead then some { task with state := .stopped } else none
  | .cont _ => if task.state = .stopped then some { task with state := .ready } else none
  | .kill _ => if task.state ≠ .dead then some { task with state := .dead } else none
  | .reuse _ =>
    if task.state = .dead ∧ task.onCpu = false then some { task with state := .ready } else none
  | .preempt _ => if task.onCpu then some { task with onCpu := false } else none
  | .dispatch _ =>
    if task.state = .ready ∧ task.onCpu = false then some { task with onCpu := true } else none

def TaskStep.run (tasks : Tasks) (step : TaskStep) : Option Tasks :=
  (step.apply (tasks step.tid)).map fun task => update tasks step.tid task

/-! ### Waking -/

/-- May an entry of a queue be woken? -/
def wakeable (tasks : Tasks) (tid : Nat) : Bool :=
  decide (0 < tid) && !(tasks tid).isIdle && taskIsAlive tasks tid

/-- `wake_one` and `wake_one_f` up to the change of state: entries that are not to be woken are
dropped, and the first one that is leaves the queue. -/
def wakeOne {Entry : Type} (tasks : Tasks) (tidOf : Entry → Nat) :
    List Entry → Option Entry × List Entry
  | [] => (none, [])
  | entry :: rest =>
    if wakeable tasks (tidOf entry) then (some entry, rest) else wakeOne tasks tidOf rest

theorem wakeOne_none {Entry : Type} {tasks : Tasks} {tidOf : Entry → Nat} {queue : List Entry}
    (nobody : (wakeOne tasks tidOf queue).1 = none) :
    (wakeOne tasks tidOf queue).2 = [] ∧ ∀ entry ∈ queue, wakeable tasks (tidOf entry) = false := by
  induction queue with
  | nil => exact ⟨rfl, fun entry member => absurd member List.not_mem_nil⟩
  | cons entry rest inductionHypothesis =>
    unfold wakeOne at nobody ⊢
    by_cases may : wakeable tasks (tidOf entry) = true
    · rw [if_pos may] at nobody
      exact absurd nobody (by simp)
    · rw [if_neg may] at nobody ⊢
      obtain ⟨empty, none'⟩ := inductionHypothesis nobody
      refine ⟨empty, fun other member => ?_⟩
      rcases List.mem_cons.mp member with rfl | later
      · exact Bool.not_eq_true _ ▸ may
      · exact none' other later

/-- The entry that is woken is the first that may be, and the entries behind it stay. -/
theorem wakeOne_some {Entry : Type} {tasks : Tasks} {tidOf : Entry → Nat} {queue : List Entry}
    {entry : Entry} (woken : (wakeOne tasks tidOf queue).1 = some entry) :
    ∃ dropped, queue = dropped ++ entry :: (wakeOne tasks tidOf queue).2 ∧
      (∀ other ∈ dropped, wakeable tasks (tidOf other) = false) ∧
      wakeable tasks (tidOf entry) = true := by
  induction queue with
  | nil => exact absurd woken (by simp [wakeOne])
  | cons first rest inductionHypothesis =>
    unfold wakeOne at woken ⊢
    by_cases may : wakeable tasks (tidOf first) = true
    · rw [if_pos may] at woken ⊢
      obtain rfl := Option.some.inj woken
      exact ⟨[], rfl, fun other member => absurd member List.not_mem_nil, may⟩
    · rw [if_neg may] at woken ⊢
      obtain ⟨dropped, split, none', first'⟩ := inductionHypothesis woken
      refine ⟨first :: dropped, congrArg (first :: ·) split, fun other member => ?_, first'⟩
      rcases List.mem_cons.mp member with rfl | later
      · exact Bool.not_eq_true _ ▸ may
      · exact none' other later

theorem wakeable_iff {tasks : Tasks} {tid : Nat} : wakeable tasks tid = true ↔
    0 < tid ∧ (tasks tid).isIdle = false ∧ tid < maxTasks ∧ (tasks tid).state ≠ .dead := by
  unfold wakeable taskIsAlive
  rw [Bool.and_eq_true, Bool.and_eq_true, Bool.and_eq_true, decide_eq_true_iff, decide_eq_true_iff,
    decide_eq_true_iff, Bool.not_eq_true', and_assoc]

/-- A task that is woken becomes ready. -/
theorem taskSetState_ready {tasks : Tasks} {tid : Nat} (may : wakeable tasks tid = true) :
    taskSetState tasks tid .ready =
      update tasks tid { tasks tid with state := .ready } := by
  obtain ⟨_, _, within, alive⟩ := wakeable_iff.mp may
  unfold taskSetState
  rw [if_neg (by omega), if_neg (by simp), if_neg (by simp [alive])]

/-- A user task that blocks itself is blocked. -/
theorem taskSetState_blocked {tasks : Tasks} {tid : Nat} (within : tid < maxTasks)
    (user : (tasks tid).isIdle = false) :
    taskSetState tasks tid .blocked =
      update tasks tid { tasks tid with state := .blocked } := by
  unfold taskSetState
  rw [if_neg (by omega), if_neg (by simp [user]), if_neg (by simp)]

/-! ### Waiting -/

/-- A waiting task is blocked, or it is off its core and has been stopped or killed there. It
notices nothing before somebody makes it ready. -/
def Task.Resting (task : Task) : Prop :=
  task.state = .blocked ∨ (task.onCpu = false ∧ (task.state = .stopped ∨ task.state = .dead))

/-- What does not disturb the tasks that wait: none of them is woken or continued from outside,
none is stopped or killed while it is still on its core, and no id is given to a new task while
it is queued. -/
def TaskStep.Calm (tasks : Tasks) (waiting queued : Nat → Prop) : TaskStep → Prop
  | .wake tid => ¬ waiting tid
  | .cont tid => ¬ waiting tid
  | .stop tid => waiting tid → (tasks tid).onCpu = false
  | .kill tid => waiting tid → (tasks tid).onCpu = false
  | .reuse tid => ¬ queued tid
  | .preempt _ => True
  | .dispatch _ => True

/-- A calm step leaves a waiting task at rest, unless its id is given to a new one. -/
theorem Task.Resting.apply {tasks : Tasks} {waiting queued : Nat → Prop} {step : TaskStep}
    {next : Task} (resting : (tasks step.tid).Resting) (calm : step.Calm tasks waiting queued)
    (waits : waiting step.tid) (taken : step.apply (tasks step.tid) = some next) :
    next.Resting ∨ ∃ tid, step = .reuse tid := by
  cases step with
  | wake tid => exact absurd waits calm
  | cont tid => exact absurd waits calm
  | stop tid =>
    obtain ⟨_, same⟩ := Option.ite_none_right_eq_some.mp taken
    obtain rfl := Option.some.inj same
    exact Or.inl (Or.inr ⟨calm waits, Or.inl rfl⟩)
  | kill tid =>
    obtain ⟨_, same⟩ := Option.ite_none_right_eq_some.mp taken
    obtain rfl := Option.some.inj same
    exact Or.inl (Or.inr ⟨calm waits, Or.inr rfl⟩)
  | reuse tid => exact Or.inr ⟨tid, rfl⟩
  | preempt tid =>
    obtain ⟨_, same⟩ := Option.ite_none_right_eq_some.mp taken
    obtain rfl := Option.some.inj same
    rcases resting with blocked | ⟨_, others⟩
    · exact Or.inl (Or.inl blocked)
    · exact Or.inl (Or.inr ⟨rfl, others⟩)
  | dispatch tid =>
    obtain ⟨ready, _⟩ := Option.ite_none_right_eq_some.mp taken
    rcases resting with blocked | ⟨_, stopped | dead⟩
    · exact absurd (ready.1.symm.trans blocked) (by simp)
    · exact absurd (ready.1.symm.trans stopped) (by simp)
    · exact absurd (ready.1.symm.trans dead) (by simp)

end MectovOS.Sync
