/-
This file connects the faithful kernel to the abstract scheduler: it says what
each operation of the task layer does to the roster. Most record changes leave
the roster alone; queueing and removal are the roster's own queue and dequeue,
and a wake puts its task where a core will find it.
-/

import MectovOS.Task.Pick
import MectovOS.Task.Roster

namespace MectovOS.Sched

open Roster Function

/-! ### The roster of a kernel -/

def rosterOf (kernel : Kernel) : Roster where
  currentTask := kernel.currentTask
  rq := kernel.rq
  numTasks := kernel.numTasks
  smpCpuCount := kernel.smpCpuCount
  commits := kernel.commits
  state := fun tid => (kernel.tasks tid).state
  rqCpu := fun tid => (kernel.tasks tid).rqCpu
  isIdle := fun tid => (kernel.tasks tid).isIdle
  ring := fun tid => (kernel.tasks tid).ring
  waiting := fun tid => (kernel.tasks tid).waiting

/-- The invariant of the scheduler, between two critical sections. -/
def Safe (kernel : Kernel) : Prop := (rosterOf kernel).Safe

theorem field_setTask {Field : Type} (field : Task → Field) (kernel : Kernel) (tid : Nat)
    (change : Task → Task) :
    (fun other => field ((kernel.setTask tid change).tasks other)) =
      update (fun other => field (kernel.tasks other)) tid
        (field (change (kernel.tasks tid))) := by
  funext other
  by_cases apart : other = tid
  · rw [apart, setTask_same, update_self]
  · rw [setTask_other _ _ apart, update_of_ne apart]

/-- A change of a record that keeps its queue, kind and ring. -/
theorem rosterOf_setTask (kernel : Kernel) (tid : Nat) (change : Task → Task)
    (kept : ∀ task, (change task).rqCpu = task.rqCpu ∧ (change task).isIdle = task.isIdle ∧
      (change task).ring = task.ring) :
    rosterOf (kernel.setTask tid change) =
      ((rosterOf kernel).setState tid (change (kernel.tasks tid)).state).setWaiting tid
        (change (kernel.tasks tid)).waiting := by
  obtain ⟨rqCpu, isIdle, ring⟩ := kept (kernel.tasks tid)
  have homes := field_setTask Task.rqCpu kernel tid change
  have kinds := field_setTask Task.isIdle kernel tid change
  have rings := field_setTask Task.ring kernel tid change
  rw [rqCpu, update_eq_self] at homes
  rw [isIdle, update_eq_self] at kinds
  rw [ring, update_eq_self] at rings
  unfold rosterOf
  rw [homes, kinds, rings, field_setTask Task.state, field_setTask Task.waiting]
  rfl

/-- A change of a record that the roster does not show. -/
theorem rosterOf_unseen (kernel : Kernel) (tid : Nat) (change : Task → Task)
    (kept : ∀ task, (change task).rqCpu = task.rqCpu ∧ (change task).isIdle = task.isIdle ∧
      (change task).ring = task.ring ∧ (change task).state = task.state ∧
      (change task).waiting = task.waiting) :
    rosterOf (kernel.setTask tid change) = rosterOf kernel := by
  rw [rosterOf_setTask kernel tid change fun task =>
    ⟨(kept task).1, (kept task).2.1, (kept task).2.2.1⟩, (kept _).2.2.2.1, (kept _).2.2.2.2]
  unfold setState setWaiting rosterOf
  simp only [update_eq_self]

/-- A change of a record that the roster shows as a change of state. -/
theorem rosterOf_setState (kernel : Kernel) (tid : Nat) (change : Task → Task)
    (kept : ∀ task, (change task).rqCpu = task.rqCpu ∧ (change task).isIdle = task.isIdle ∧
      (change task).ring = task.ring ∧ (change task).waiting = task.waiting) :
    rosterOf (kernel.setTask tid change) =
      (rosterOf kernel).setState tid (change (kernel.tasks tid)).state := by
  rw [rosterOf_setTask kernel tid change fun task =>
    ⟨(kept task).1, (kept task).2.1, (kept task).2.2.1⟩, (kept _).2.2.2]
  unfold setState setWaiting rosterOf
  simp only [update_eq_self]

theorem Aged.roster {before after : Kernel} (aged : Aged before after) :
    rosterOf after = rosterOf before := by
  have field : ∀ {Field : Type} (field : Task → Field),
      (∀ task wait, field { task with waitTicks := wait } = field task) →
      (fun tid => field (after.tasks tid)) = fun tid => field (before.tasks tid) := by
    intro Field field blind
    funext tid
    obtain ⟨wait, equal⟩ := aged.tasks tid
    rw [equal, blind]
  unfold rosterOf
  rw [field Task.state (fun _ _ => rfl), field Task.rqCpu (fun _ _ => rfl),
    field Task.isIdle (fun _ _ => rfl), field Task.ring (fun _ _ => rfl),
    field Task.waiting (fun _ _ => rfl), aged.kernel]

/-! ### Queues -/

theorem rqCpuCount_eq {kernel : Kernel} (sane : (rosterOf kernel).Sane) :
    rqCpuCount kernel = kernel.smpCpuCount := by
  unfold rqCpuCount
  refine if_neg fun bad => ?_
  rcases bad with few | many
  · exact Nat.not_lt_of_le sane.cores_pos few
  · exact Nat.not_lt_of_le sane.cores_le many

theorem foldl_lt {bound : Nat} {better : Nat → Nat → Bool} (cids : List Nat)
    (below : ∀ cid ∈ cids, cid < bound) {best : Nat} (start : best < bound) :
    cids.foldl (fun best cid => if better best cid then cid else best) best < bound := by
  induction cids generalizing best with
  | nil => exact start
  | cons cid rest inductionHypothesis =>
    refine inductionHypothesis (fun other member => below other (List.mem_cons_of_mem _ member)) ?_
    dsimp only
    split_ifs
    · exact below cid List.mem_cons_self
    · exact start

theorem rqLeastLoaded_lt {kernel : Kernel} (sane : (rosterOf kernel).Sane) :
    rqLeastLoaded kernel < kernel.smpCpuCount := by
  have chosen := @foldl_lt (rqCpuCount kernel)
    (fun best cid => decide ((kernel.rq cid).length < (kernel.rq best).length))
    (List.range (rqCpuCount kernel)) (fun cid => List.mem_range.mp) 0
    (by rw [rqCpuCount_eq sane]; exact sane.cores_pos)
  simp only [decide_eq_true_eq] at chosen
  rw [← rqCpuCount_eq sane]
  exact chosen

/-- `rq_enqueue` on a queue with room. -/
theorem rosterOf_rqEnqueue_of_short {kernel : Kernel} {cpu tid : Nat} (slot : tid < maxTasks)
    (core : cpu < maxCpus) (short : (kernel.rq cpu).length < maxTasks)
    (unqueued : (kernel.tasks tid).rqCpu = none) (alive : (kernel.tasks tid).state.dead = false)
    (pinned : (kernel.tasks tid).isIdle = true → cpu = tid) :
    rosterOf (rqEnqueue kernel cpu tid) = (rosterOf kernel).enqueue cpu tid := by
  unfold rqEnqueue
  rw [if_neg (by omega), if_neg (by rw [unqueued]; exact Bool.false_ne_true),
    if_neg (by rw [alive]; exact Bool.false_ne_true),
    if_neg fun foreign => foreign.2 (pinned foreign.1)]
  dsimp only
  rw [if_neg (Nat.not_le_of_lt short)]
  unfold rosterOf
  simp only [field_setTask]
  simp only [Roster.enqueue, Kernel.setTask, update_eq_self]

/-- `rq_enqueue` queues an alive task that is on no queue; a full queue never gets in the
way. -/
theorem rosterOf_rqEnqueue {kernel : Kernel} (sane : (rosterOf kernel).Sane) {cpu tid : Nat}
    (slot : tid < maxTasks) (core : cpu < kernel.smpCpuCount)
    (unqueued : (kernel.tasks tid).rqCpu = none) (alive : (kernel.tasks tid).state.dead = false)
    (pinned : (kernel.tasks tid).isIdle = true → cpu = tid) :
    rosterOf (rqEnqueue kernel cpu tid) = (rosterOf kernel).enqueue cpu tid :=
  rosterOf_rqEnqueue_of_short slot (core.trans_le sane.cores_le)
    (sane.queue_short slot unqueued) unqueued alive pinned

theorem rqEnqueue_of_queued {kernel : Kernel} {cpu tid home : Nat}
    (queued : (kernel.tasks tid).rqCpu = some home) : rqEnqueue kernel cpu tid = kernel := by
  unfold rqEnqueue
  split_ifs with bad queuedAlready
  · rfl
  · rfl
  all_goals exact absurd (by rw [queued]; rfl) queuedAlready

theorem rosterOf_rqRemove {kernel : Kernel} (sane : (rosterOf kernel).Sane) {tid : Nat}
    (slot : tid < maxTasks) : rosterOf (rqRemove kernel tid) = (rosterOf kernel).remove tid := by
  unfold rqRemove Roster.remove
  rw [if_neg (Nat.not_le_of_lt slot)]
  have same : (rosterOf kernel).rqCpu tid = (kernel.tasks tid).rqCpu := rfl
  rw [same]
  cases home : (kernel.tasks tid).rqCpu with
  | none => rfl
  | some cpu =>
    have core : cpu < maxCpus := (sane.queue_core tid cpu slot home).trans_le sane.cores_le
    simp only [if_neg (Nat.not_le_of_lt core)]
    unfold rosterOf
    simp only [field_setTask]
    simp only [Roster.dequeue, Kernel.setTask, update_eq_self]

/-- A wake leaves a pinned task to its core and queues every other one. -/
theorem rqEnqueueWake_seats {kernel : Kernel} (sane : (rosterOf kernel).Sane) {tid : Nat}
    (slot : tid < maxTasks) (alive : (kernel.tasks tid).state.dead = false) :
    (rosterOf (rqEnqueueWake kernel tid) = rosterOf kernel ∧
        (tid < kernel.smpCpuCount ∨ (kernel.tasks tid).rqCpu ≠ none)) ∨
      ∃ cpu, cpu < kernel.smpCpuCount ∧ kernel.smpCpuCount ≤ tid ∧
        (kernel.tasks tid).rqCpu = none ∧
        rosterOf (rqEnqueueWake kernel tid) = (rosterOf kernel).enqueue cpu tid := by
  unfold rqEnqueueWake
  by_cases first : tid = 0 ∨ maxTasks ≤ tid
  · rw [if_pos first]
    refine .inl ⟨rfl, .inl ?_⟩
    rw [first.resolve_right (Nat.not_le_of_lt slot)]
    exact sane.cores_pos
  · rw [if_neg first]
    by_cases idle : (kernel.tasks tid).isIdle = true
    · rw [if_pos idle]
      exact .inl ⟨rfl, .inl ((sane.idle_iff tid slot).mp idle).2⟩
    · rw [if_neg idle]
      cases home : (kernel.tasks tid).rqCpu with
      | some cpu =>
        rw [rqEnqueue_of_queued home]
        exact .inl ⟨rfl, .inr (Option.some_ne_none cpu)⟩
      | none =>
        refine .inr ⟨rqLeastLoaded kernel, rqLeastLoaded_lt sane, ?_, rfl, ?_⟩
        · by_contra low
          refine idle ((sane.idle_iff tid slot).mpr ⟨?_, Nat.lt_of_not_le low⟩)
          exact Nat.pos_of_ne_zero fun equal => first (.inl equal)
        · exact rosterOf_rqEnqueue sane slot (rqLeastLoaded_lt sane) home alive
            fun absurdly => absurd absurdly idle

/-- The wake of a task that was made READY finds it a place, if it is pinned and current or
not pinned at all. -/
theorem safe_wake {kernel : Kernel} (sane : (rosterOf kernel).Sane) {tid : Nat}
    (placed : (rosterOf kernel).Placed (· = tid)) (slot : tid < maxTasks)
    (alive : (kernel.tasks tid).state.dead = false)
    (reachable : tid < kernel.smpCpuCount → ∃ cid, kernel.currentTask cid = some tid) :
    Safe (rqEnqueueWake kernel tid) := by
  unfold Safe
  rcases rqEnqueueWake_seats sane slot alive with ⟨same, seated⟩ | ⟨cpu, core, high, home, queued⟩
  · rw [same]
    refine ⟨sane, placed.seat ?_⟩
    rcases seated with pinned | queued
    · exact .inr (reachable pinned)
    · exact .inl queued
  · rw [queued]
    refine ⟨sane.enqueue slot core home alive fun low => absurd low (Nat.not_lt_of_le high),
      (placed.enqueue cpu tid).seat (.inl ?_)⟩
    simp only [Roster.enqueue]
    rw [update_self]
    exact Option.some_ne_none cpu

/-- Make an alive task READY and wake it. -/
theorem safe_makeReady {kernel : Kernel} (safe : Safe kernel) {tid : Nat} (slot : tid < maxTasks)
    (alive : (kernel.tasks tid).state.dead = false)
    (reachable : tid < kernel.smpCpuCount → ∃ cid, kernel.currentTask cid = some tid)
    (change : Task → Task)
    (kept : ∀ task, (change task).rqCpu = task.rqCpu ∧ (change task).isIdle = task.isIdle ∧
      (change task).ring = task.ring ∧ (change task).state = .ready)
    (waiting : (change (kernel.tasks tid)).waiting = (kernel.tasks tid).waiting ∨
      (change (kernel.tasks tid)).waiting = 0) :
    Safe (rqEnqueueWake (kernel.setTask tid change) tid) := by
  have roster := rosterOf_setTask kernel tid change fun task =>
    ⟨(kept task).1, (kept task).2.1, (kept task).2.2.1⟩
  rw [(kept _).2.2.2] at roster
  have occupied : (kernel.tasks tid).state ≠ .free := by
    intro unused
    rw [unused] at alive
    cases alive
  have ready : ((rosterOf kernel).setState tid .ready).Sane :=
    safe.sane.setState (iff_of_false TaskState.noConfusion occupied)
      (fun dead => by cases dead) (fun _ => rfl)
      (fun _ _ => ⟨TaskState.noConfusion, TaskState.noConfusion⟩)
  have placed : ((rosterOf kernel).setState tid .ready).Placed (· = tid) :=
    (safe.placed.exempting (· = tid) fun _ => False.elim).setState (.inr (.inl rfl))
  refine safe_wake ?_ ?_ slot ?_ reachable
  · rw [roster]
    refine ready.setWaiting fun positive low => ?_
    rcases waiting with same | zero
    · rw [same]
      exact safe.sane.idle_waiting tid positive low
    · exact zero
  · rw [roster]
    exact placed
  · rw [setTask_same, (kept _).2.2.2]
    rfl

/-- Park an alive task off its queue. -/
theorem safe_park {kernel : Kernel} (safe : Safe kernel) {tid : Nat} (slot : tid < maxTasks)
    (occupied : (kernel.tasks tid).state ≠ .free) (state : TaskState) (parked : state ≠ .ready)
    (lasting : state.dead = false)
    (idle : 0 < tid → tid < kernel.smpCpuCount → state ≠ .sleep ∧ state ≠ .blocked)
    (change : Task → Task)
    (kept : ∀ task, (change task).rqCpu = task.rqCpu ∧ (change task).isIdle = task.isIdle ∧
      (change task).ring = task.ring ∧ (change task).state = state ∧
      (change task).waiting = task.waiting) :
    Safe (rqRemove (kernel.setTask tid change) tid) := by
  have roster : rosterOf (kernel.setTask tid change) = (rosterOf kernel).setState tid state := by
    rw [rosterOf_setState kernel tid change fun task =>
      ⟨(kept task).1, (kept task).2.1, (kept task).2.2.1, (kept task).2.2.2.2⟩, (kept _).2.2.2.1]
  have kept : state = .free ↔ (rosterOf kernel).state tid = .free := by
    refine iff_of_false (fun equal => ?_) occupied
    rw [equal] at lasting
    cases lasting
  have sane : ((rosterOf kernel).setState tid state).Sane :=
    safe.sane.setState kept (fun dead => by rw [lasting] at dead; cases dead) (fun _ => lasting)
      idle
  unfold Safe
  rw [rosterOf_rqRemove (roster ▸ sane) slot, roster]
  exact Roster.Safe.park safe parked lasting occupied idle

end MectovOS.Sched
