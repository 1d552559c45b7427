/-
This file shows that parking, waking, creating and the tick itself keep the
invariant of the scheduler. A tick saves the task it interrupts, so that a READY
task that loses its core is queued; the task it commits is alive, is current
nowhere else, and is pinned to no other core.
-/

import MectovOS.Task.Safety

namespace MectovOS.Sched

open Function

/-! ### Parking and waking -/

theorem Safe.slot {kernel : Kernel} (safe : Safe kernel) {cid tid : Nat}
    (current : kernel.currentTask cid = some tid) : tid < maxTasks :=
  safe.sane.current_slot cid tid current

theorem Safe.unpinned {kernel : Kernel} (safe : Safe kernel) {tid : Nat} (slot : tid < maxTasks)
    (positive : 0 < tid) (busy : (kernel.tasks tid).isIdle = false) :
    kernel.smpCpuCount ≤ tid := by
  by_contra low
  have idle := (safe.sane.idle_iff tid slot).mpr ⟨positive, Nat.lt_of_not_le low⟩
  exact Bool.false_ne_true (busy.symm.trans idle)

theorem safe_taskSleep {kernel : Kernel} (safe : Safe kernel) {cid : Nat} (ticks : Int)
    (busy : ∀ tid, kernel.currentTask cid = some tid →
      (kernel.tasks tid).isIdle = false ∧ (kernel.tasks tid).state ≠ .free) :
    Safe (taskSleep kernel cid ticks) := by
  unfold taskSleep
  split
  · exact safe
  · rename_i tid current
    split_ifs
    · exact safe
    · refine safe_park safe (safe.slot current) (busy tid current).2 .sleep TaskState.noConfusion
        rfl (fun positive low => ?_) _ (by simp)
      exact absurd low (Nat.not_lt_of_le
        (safe.unpinned (safe.slot current) positive (busy tid current).1))

/-- The task is pinned to a core, and no core names it as current. -/
def Stranded (kernel : Kernel) (tid : Nat) : Prop :=
  (tid = 0 ∨ (kernel.tasks tid).isIdle = true) ∧ ∀ cid, kernel.currentTask cid ≠ some tid

theorem Safe.current_of_pinned {kernel : Kernel} (safe : Safe kernel) {tid : Nat}
    (slot : tid < maxTasks) (seated : ¬Stranded kernel tid) (low : tid < kernel.smpCpuCount) :
    ∃ cid, kernel.currentTask cid = some tid := by
  by_contra nowhere
  refine seated ⟨?_, fun cid current => nowhere ⟨cid, current⟩⟩
  rcases Nat.eq_zero_or_pos tid with zero | positive
  · exact .inl zero
  · exact .inr ((safe.sane.idle_iff tid slot).mpr ⟨positive, low⟩)

theorem safe_taskWake {kernel : Kernel} (safe : Safe kernel) {tid : Nat}
    (seated : (kernel.tasks tid).state = .sleep → ¬Stranded kernel tid) :
    Safe (taskWake kernel tid) := by
  unfold taskWake
  split_ifs with outside asleep
  · exact safe
  · have slot := Nat.lt_of_not_le outside
    exact safe_makeReady safe slot (by rw [asleep]; rfl)
      (fun low => safe.current_of_pinned slot (seated asleep) low) _ (by simp) (.inl rfl)
  · exact safe

theorem safe_unblock {kernel : Kernel} (safe : Safe kernel) {tid : Nat}
    (seated : (kernel.tasks tid).state ≠ .ready → ¬Stranded kernel tid) :
    Safe (taskSetState kernel tid .ready) := by
  unfold taskSetState
  split_ifs with outside foreign dead same
  · exact safe
  · exact safe
  · exact safe
  · exact safe
  · have slot := Nat.lt_of_not_le outside
    have alive : (kernel.tasks tid).state.dead = false := by
      cases life : (kernel.tasks tid).state.dead with
      | true => exact absurd ⟨life, .inl rfl⟩ dead
      | false => rfl
    have woken : Kernel.setTask (kernel.setTask tid fun task => { task with state := .ready }) tid
        (fun task => { task with sleepTicks := 0 }) =
        kernel.setTask tid fun task => { task with state := .ready, sleepTicks := 0 } := by
      simp only [Kernel.setTask, update_self, update_idem]
    dsimp only
    rw [woken]
    split_ifs with current
    · obtain ⟨cid, _, named⟩ := slotStillCurrent_iff.mp current
      unfold Safe
      rw [rosterOf_setState _ _ _ (by simp)]
      have used : (kernel.tasks tid).state ≠ .free := (alive_iff.mp alive).2
      have sane : ((rosterOf kernel).setState tid .ready).Sane :=
        safe.sane.setState (iff_of_false TaskState.noConfusion used) (fun dies => by cases dies)
          (fun _ => rfl) (fun _ _ => ⟨TaskState.noConfusion, TaskState.noConfusion⟩)
      have placed : ((rosterOf kernel).setState tid .ready).Placed (· = tid) :=
        (safe.placed.exempting (· = tid) fun _ => False.elim).setState (.inr (.inl rfl))
      exact ⟨sane, placed.seat (.inr ⟨cid, named⟩)⟩
    · exact safe_makeReady safe slot alive
        (fun low => safe.current_of_pinned slot (seated same) low) _ (by simp) (.inl rfl)
  all_goals exact absurd rfl (by assumption)

theorem safe_block {kernel : Kernel} (safe : Safe kernel) {tid : Nat}
    (used : (kernel.tasks tid).state ≠ .free) : Safe (taskSetState kernel tid .blocked) := by
  unfold taskSetState
  split_ifs with outside foreign dead same ready parks
  · exact safe
  · exact safe
  · exact safe
  · exact safe
  · cases ready
  · have slot := Nat.lt_of_not_le outside
    refine safe_park safe slot used .blocked TaskState.noConfusion rfl (fun positive low => ?_) _
      (by simp)
    refine absurd ⟨?_, TaskState.noConfusion, TaskState.noConfusion⟩ foreign
    exact (safe.sane.idle_iff tid slot).mpr ⟨positive, low⟩
  · exact absurd TaskState.noConfusion parks

/-- Parking a task that is not pinned blocks it and takes it off its queue. -/
theorem parkWaiting_spec {kernel : Kernel} (safe : Safe kernel) {self : Nat} (pid : Int)
    (slot : self < maxTasks) (unpinned : kernel.smpCpuCount ≤ self)
    (used : (kernel.tasks self).state ≠ .free) :
    Safe (parkWaiting kernel self pid) ∧ ((parkWaiting kernel self pid).tasks self).state = .blocked
    := by
  have roster := rosterOf_setTask kernel self (fun task =>
    { task with waiting := if 0 < pid then pid else -1, state := .blocked }) (by simp)
  have sane : (rosterOf (kernel.setTask self fun task =>
      { task with waiting := if 0 < pid then pid else -1, state := .blocked })).Sane := by
    rw [roster]
    have blocked : ((rosterOf kernel).setState self .blocked).Sane :=
      safe.sane.setState (iff_of_false TaskState.noConfusion used) (fun dies => by cases dies)
        (fun _ => rfl) fun _ low => absurd low (Nat.not_lt_of_le unpinned)
    exact blocked.setWaiting fun _ low => absurd low (Nat.not_lt_of_le unpinned)
  have placed : (rosterOf (kernel.setTask self fun task =>
      { task with waiting := if 0 < pid then pid else -1, state := .blocked })).Placed
      (· = self) := by
    rw [roster]
    exact (safe.placed.exempting (· = self) fun _ => False.elim).setState (.inr (.inl rfl))
  have removed := rosterOf_rqRemove sane slot
  have state : (rosterOf (parkWaiting kernel self pid)).state self = .blocked := by
    unfold parkWaiting
    rw [removed, (Roster.remove_kept _ self).1, roster]
    exact Roster.setState_self _ _ _
  refine ⟨?_, state⟩
  have parked : (rosterOf (parkWaiting kernel self pid)).Placed (· = self) := by
    unfold parkWaiting
    rw [removed]
    exact placed.remove rfl
  refine ⟨?_, parked.settle (by rw [state]; exact TaskState.noConfusion)⟩
  unfold parkWaiting
  rw [removed]
  exact sane.remove self

theorem safe_waitpidPark {kernel : Kernel} (safe : Safe kernel) {cid self : Nat} (pid : Int)
    (current : kernel.currentTask cid = some self) (unpinned : kernel.smpCpuCount ≤ self)
    (used : (kernel.tasks self).state ≠ .free) : Safe (waitpidPark kernel self pid) := by
  obtain ⟨parked, blocked⟩ := parkWaiting_spec safe pid (safe.slot current) unpinned used
  have same := fixed_iff.mp (fixed_parkWaiting kernel self pid)
  unfold waitpidPark
  dsimp only
  split_ifs
  · unfold Safe
    rw [rosterOf_setTask _ _ _ (by simp)]
    have ready : ((rosterOf (parkWaiting kernel self pid)).setState self .ready).Sane :=
      parked.sane.setState
        (iff_of_false TaskState.noConfusion (by
          change ((parkWaiting kernel self pid).tasks self).state ≠ .free
          rw [blocked]
          exact TaskState.noConfusion))
        (fun dies => by cases dies) (fun _ => rfl)
        fun _ _ => ⟨TaskState.noConfusion, TaskState.noConfusion⟩
    have placed : ((rosterOf (parkWaiting kernel self pid)).setState self .ready).Placed
        (· = self) :=
      (parked.placed.exempting (· = self) fun _ => False.elim).setState (.inr (.inl rfl))
    exact ⟨ready.setWaiting fun _ _ => rfl,
      placed.seat (.inr ⟨cid, (congrFun same.1 cid).trans current⟩)⟩
  · exact parked

theorem safe_waitDone {kernel : Kernel} (safe : Safe kernel) (self : Nat) :
    Safe (kernel.setTask self fun task => { task with waiting := 0 }) := by
  unfold Safe
  rw [rosterOf_setTask _ _ _ (by simp)]
  have same : (rosterOf kernel).setState self (kernel.tasks self).state = rosterOf kernel := by
    unfold Roster.setState rosterOf
    simp only [update_eq_self]
  dsimp only
  rw [same]
  exact ⟨safe.sane.setWaiting fun _ _ => rfl, safe.placed⟩

/-! ### Upkeep -/

/-- The sleep of the task ends in this tick. -/
def sleepEnds (task : Task) : Prop := task.state = .sleep ∧ task.sleepTicks ≤ timerMsPerTick

theorem safe_sleepTick {kernel : Kernel} (safe : Safe kernel) {tid : Nat} (slot : tid < maxTasks)
    (seated : sleepEnds (kernel.tasks tid) → ¬Stranded kernel tid) :
    Safe (sleepTick kernel tid) := by
  unfold sleepTick
  dsimp only
  by_cases asleep : (kernel.tasks tid).state = .sleep
  · rw [if_pos asleep]
    generalize left : (if 0 < (kernel.tasks tid).sleepTicks then
      (kernel.tasks tid).sleepTicks - timerMsPerTick else (kernel.tasks tid).sleepTicks) = rest
    have counted : rosterOf (kernel.setTask tid fun task => { task with sleepTicks := rest }) =
        rosterOf kernel := rosterOf_unseen _ _ _ (by simp)
    have start : Safe (kernel.setTask tid fun task => { task with sleepTicks := rest }) := by
      unfold Safe
      rw [counted]
      exact safe
    split_ifs with finished
    · have ends : sleepEnds (kernel.tasks tid) := by
        refine ⟨asleep, ?_⟩
        split_ifs at left
        · omega
        · exact (not_lt.mp (by assumption)).trans (by decide)
      refine safe_makeReady start slot ?_
        (fun low => safe.current_of_pinned slot (seated ends) low) _ (by simp) (.inl rfl)
      rw [setTask_same, asleep]
      rfl
    · exact start
  · rw [if_neg asleep]
    exact safe

/-- Only task 0 can be woken by the upkeep away from its core: an idle task never sleeps. -/
theorem safe_sleepUpkeep {kernel : Kernel} (safe : Safe kernel)
    (seated : sleepEnds (kernel.tasks 0) → ¬Stranded kernel 0) : Safe (sleepUpkeep kernel) := by
  have split : List.range maxTasks = 0 :: (List.range 63).map (· + 1) :=
    List.range_succ_eq_map
  have first := safe_sleepTick safe (by decide) seated
  unfold sleepUpkeep
  rw [split, List.foldl_cons]
  have below : ∀ tid ∈ (List.range 63).map (· + 1), 0 < tid ∧ tid < maxTasks := by
    intro tid member
    obtain ⟨pred, bound, rfl⟩ := List.mem_map.mp member
    exact ⟨Nat.succ_pos pred, Nat.succ_lt_succ (List.mem_range.mp bound)⟩
  generalize (List.range 63).map (· + 1) = tids at below
  generalize sleepTick kernel 0 = ticked at first
  induction tids generalizing ticked with
  | nil => exact first
  | cons tid rest inductionHypothesis =>
    refine inductionHypothesis (fun other member => below other (List.mem_cons_of_mem _ member)) _ ?_
    obtain ⟨positive, slot⟩ := below tid List.mem_cons_self
    refine safe_sleepTick first slot fun ends stranded => ?_
    have unpinned := first.unpinned_of_parked positive (.inr ends.1)
    rcases stranded.1 with zero | idle
    · exact absurd zero positive.ne'
    · exact absurd ((first.sane.idle_iff tid slot).mp idle).2 (Nat.not_lt_of_le unpinned)

/-- The sweep finds nothing: no dead task is queued. -/
theorem schedIntegritySweep_eq {kernel : Kernel} (safe : Safe kernel) :
    schedIntegritySweep kernel = kernel := by
  have below : ∀ tid ∈ (List.range maxTasks).filter (0 < ·), tid < maxTasks :=
    fun tid member => List.mem_range.mp (List.mem_of_mem_filter member)
  unfold schedIntegritySweep
  generalize (List.range maxTasks).filter (0 < ·) = tids at below
  induction tids with
  | nil => rfl
  | cons tid rest inductionHypothesis =>
    rw [List.foldl_cons, if_neg]
    · exact inductionHypothesis fun other member => below other (List.mem_cons_of_mem _ member)
    · rintro ⟨dead, queued⟩
      have home : (kernel.tasks tid).rqCpu = none :=
        safe.sane.dead_unqueued tid (below tid List.mem_cons_self) dead
      rw [home] at queued
      cases queued

theorem safe_upkeep {kernel : Kernel} (safe : Safe kernel) (cid : Nat) (sweep : Bool)
    (seated : cid = 0 → sleepEnds (kernel.tasks 0) → ¬Stranded kernel 0) :
    Safe (upkeep kernel cid sweep) := by
  unfold upkeep
  split_ifs with boot
  · rw [schedIntegritySweep_eq (safe_sleepUpkeep safe (seated boot))]
    exact safe_sleepUpkeep safe (seated boot)
  · exact safe_sleepUpkeep safe (seated boot)
  · exact safe

/-! ### The commit -/

/-- The task may become the current task of the core. -/
structure Committable (roster : Roster) (cid next : Nat) : Prop where
  slot : next < maxTasks
  alive : (roster.state next).dead = false
  elsewhere : ∀ other, roster.currentTask other = some next → other = cid
  pinned : next < roster.smpCpuCount → cid = next
  saved : ∀ tid, roster.currentTask cid = some tid → roster.state tid = .ready →
    roster.rqCpu tid ≠ none

theorem rosterOf_commit (kernel : Kernel) (cid next : Nat) :
    rosterOf (commit kernel cid next) = (rosterOf kernel).commit cid next := by
  unfold commit
  dsimp only
  rw [rosterOf_vmmSwitchPageDir]
  have changed : rosterOf (kernel.setTask next fun task => { task with state := .running }) =
      (rosterOf kernel).setState next .running := rosterOf_setState _ _ _ (by simp)
  unfold Roster.commit
  rw [← changed]
  rfl

theorem safe_commit {kernel : Kernel} (safe : Safe kernel) {cid next : Nat}
    (core : cid < kernel.smpCpuCount) (fits : Committable (rosterOf kernel) cid next) :
    Safe (commit kernel cid next) := by
  unfold Safe
  rw [rosterOf_commit]
  exact ⟨safe.sane.commit core fits.slot fits.alive fits.elsewhere fits.pinned,
    safe.placed.commit fits.saved⟩

/-- A saved record: a task that was running is READY. -/
def yielded (state : TaskState) : TaskState := if state = .running then .ready else state

theorem yielded_free (state : TaskState) : yielded state = .free ↔ state = .free := by
  cases state <;> decide

theorem yielded_dead (state : TaskState) : (yielded state).dead = state.dead := by
  cases state <;> rfl

theorem yielded_parked (state : TaskState) (awake : state ≠ .sleep ∧ state ≠ .blocked) :
    yielded state ≠ .sleep ∧ yielded state ≠ .blocked := by
  unfold yielded
  split_ifs
  · exact ⟨TaskState.noConfusion, TaskState.noConfusion⟩
  · exact awake

/-- Queue a saved task on its core when it is READY and on no queue. -/
theorem safe_requeue {kernel : Kernel} (safe : Safe kernel) {cid own : Nat}
    (current : kernel.currentTask cid = some own) (change : Task → Task)
    (kept : ∀ task, (change task).rqCpu = task.rqCpu ∧ (change task).isIdle = task.isIdle ∧
      (change task).ring = task.ring ∧ (change task).waiting = task.waiting)
    (saved : (change (kernel.tasks own)).state = yielded (kernel.tasks own).state)
    {after : Kernel}
    (queued : after = if ((kernel.setTask own change).tasks own).state = .ready ∧
        ((kernel.setTask own change).tasks own).rqCpu = none then
      rqEnqueue (kernel.setTask own change) cid own else kernel.setTask own change) :
    Safe after ∧ ((after.tasks own).state = .ready → (after.tasks own).rqCpu ≠ none) := by
  have slot := safe.slot current
  have core := safe.sane.current_core cid own current
  have roster := rosterOf_setState kernel own change kept
  rw [saved] at roster
  have sane : (rosterOf (kernel.setTask own change)).Sane := by
    rw [roster]
    exact safe.sane.setState (yielded_free _)
      (fun died => safe.sane.dead_unqueued own slot ((yielded_dead _).symm.trans died))
      (fun low => (yielded_dead _).trans (safe.sane.pinned_alive own low))
      (fun positive low => yielded_parked _ (safe.sane.idle_state own positive low))
  have placed : (rosterOf (kernel.setTask own change)).Placed (· = own) := by
    rw [roster]
    exact (safe.placed.exempting (· = own) fun _ => False.elim).setState (.inr (.inl rfl))
  rw [queued]
  split_ifs with unqueued
  · have joined := rosterOf_rqEnqueue sane slot core unqueued.2
      (by rw [unqueued.1]; rfl) fun idle =>
        safe.sane.pinned_current own cid ((sane.idle_iff own slot).mp idle).2 current
    have queuedNow : (rosterOf (rqEnqueue (kernel.setTask own change) cid own)).rqCpu own ≠
        none := by
      rw [joined]
      simp only [Roster.enqueue]
      rw [update_self]
      exact Option.some_ne_none cid
    refine ⟨⟨?_, ?_⟩, fun _ => queuedNow⟩
    · rw [joined]
      exact sane.enqueue slot core unqueued.2 (by
        change ((kernel.setTask own change).tasks own).state.dead = false
        rw [unqueued.1]
        rfl) fun low => safe.sane.pinned_current own cid low current
    · have still := placed.enqueue cid own
      rw [← joined] at still
      exact still.seat (.inl queuedNow)
  · refine ⟨⟨sane, ?_⟩, fun ready unqueuedNow => unqueued ⟨ready, unqueuedNow⟩⟩
    exact placed.seat (.inr ⟨cid, current⟩)

/-- Saving leaves the current task of the core queued when it is READY. -/
theorem safe_saveCurrent {kernel : Kernel} (safe : Safe kernel) (cid esp : Nat) :
    Safe (saveCurrent kernel cid (kernel.currentTask cid) esp) ∧
      ∀ tid, kernel.currentTask cid = some tid →
        ((saveCurrent kernel cid (kernel.currentTask cid) esp).tasks tid).state = .ready →
        ((saveCurrent kernel cid (kernel.currentTask cid) esp).tasks tid).rqCpu ≠ none := by
  generalize result : saveCurrent kernel cid (kernel.currentTask cid) esp = after
  unfold saveCurrent at result
  cases current : kernel.currentTask cid with
  | none =>
    simp only [current] at result
    exact ⟨result ▸ safe, fun tid absent => by cases absent⟩
  | some own =>
    have slot := safe.slot current
    simp only [current] at result
    by_cases dead : curDead kernel (some own) = true
    · rw [if_pos (.inr dead)] at result
      subst result
      refine ⟨safe, fun tid equal ready => ?_⟩
      obtain rfl := Option.some.inj equal
      simp only [curDead, Bool.and_eq_true, ready] at dead
      exact absurd dead.2 (by decide)
    · rw [if_neg (by rw [not_or]; exact ⟨Nat.not_le_of_lt slot, dead⟩)] at result
      obtain ⟨kept, seated⟩ := safe_requeue safe current _ (by simp) rfl result.symm
      refine ⟨kept, fun tid equal => ?_⟩
      obtain rfl := Option.some.inj equal
      exact seated

/-- A task of a runqueue that is READY and current on no other core may be committed. -/
theorem committable_of_ready {kernel : Kernel} (safe : Safe kernel) {cid next : Nat}
    (slot : next < maxTasks) (ready : (kernel.tasks next).state = .ready)
    (elsewhere : taskIsCurrentElsewhere kernel cid next = false)
    (pinned : next < kernel.smpCpuCount → cid = next)
    (saved : ∀ tid, kernel.currentTask cid = some tid → (kernel.tasks tid).state = .ready →
      (kernel.tasks tid).rqCpu ≠ none) : Committable (rosterOf kernel) cid next where
  slot := slot
  alive := by
    change (kernel.tasks next).state.dead = false
    rw [ready]
    rfl
  elsewhere := by
    intro other current
    by_contra apart
    refine Bool.false_ne_true (elsewhere.symm.trans (List.any_eq_true.mpr ⟨other, ?_, ?_⟩))
    · exact List.mem_range.mpr
        ((safe.sane.current_core other next current).trans_le safe.sane.cores_le)
    · rw [Bool.and_eq_true, decide_eq_true_eq, decide_eq_true_eq]
      exact ⟨apart, current⟩
  pinned := pinned
  saved := saved

theorem rosterOf_migrate (kernel : Kernel) (source cid tid : Nat) :
    rosterOf (migrate kernel source cid tid) =
      ((rosterOf kernel).dequeue source tid).enqueue cid tid := by
  unfold migrate
  dsimp only
  unfold rosterOf
  simp only [field_setTask]
  simp only [Roster.enqueue, Roster.dequeue, Kernel.setTask, update_eq_self,
    update_idem]

theorem idleOf_eq {kernel : Kernel} (safe : Safe kernel) {cid : Nat}
    (core : cid < kernel.smpCpuCount) : idleOf cid = cid := by
  unfold idleOf
  split_ifs with boot
  · exact boot.symm
  · rfl
  · exact absurd (safe.sane.cores_lt_slots core) (by assumption)

/-- Whatever the next task comes from, it may be committed. -/
theorem Chosen.committable {before after : Kernel} {cid next : Nat} (safe : Safe before)
    (core : cid < before.smpCpuCount)
    (saved : ∀ tid, before.currentTask cid = some tid → (before.tasks tid).state = .ready →
      (before.tasks tid).rqCpu ≠ none)
    (chosen : Chosen before cid after next) :
    Safe after ∧ Committable (rosterOf after) cid next := by
  cases chosen with
  | own aged queued pickable =>
    obtain ⟨slot, -⟩ := (safe.sane.queued cid next).mp queued
    simp only [Sched.pickable, Bool.and_eq_true, decide_eq_true_eq, Bool.not_eq_true',
      Bool.and_eq_false_iff, decide_eq_false_iff_not, not_not] at pickable
    obtain ⟨⟨⟨ready, boot⟩, idle⟩, elsewhere⟩ := pickable
    unfold Safe
    rw [aged.roster]
    refine ⟨safe, committable_of_ready safe slot ready elsewhere (fun low => ?_) saved⟩
    rcases Nat.eq_zero_or_pos next with zero | positive
    · rw [zero] at boot ⊢
      exact boot.resolve_left (not_not.mpr rfl)
    · refine idle.resolve_left fun busy => Bool.false_ne_true (busy.symm.trans ?_)
      exact (safe.sane.idle_iff next slot).mpr ⟨positive, low⟩
  | stolen aged bound apart queued stealable =>
    rename_i scanned source
    have start : Safe scanned := by
      unfold Safe
      rw [aged.roster]
      exact safe
    obtain ⟨slot, home⟩ := (start.sane.queued source next).mp queued
    simp only [Sched.stealable, Bool.and_eq_true, decide_eq_true_eq, Bool.not_eq_true'] at stealable
    obtain ⟨⟨⟨nonzero, busy⟩, ready⟩, elsewhere⟩ := stealable
    have unpinned := start.unpinned slot (Nat.pos_of_ne_zero nonzero) busy
    have stillCore : cid < scanned.smpCpuCount := by
      rw [(fixed_iff.mp aged.fixed).2.2.2.1]
      exact core
    have alive : ((rosterOf scanned).state next).dead = false := by
      change (scanned.tasks next).state.dead = false
      rw [ready]
      rfl
    have taken := start.sane.dequeue home
    have dequeued : ((rosterOf scanned).dequeue source next).Placed (· = next) :=
      Roster.Placed.dequeue (start.placed.exempting (· = next) fun _ => False.elim) source rfl
    have joined := taken.enqueue slot stillCore (update_self _ _ _) alive
      fun low => absurd low (Nat.not_lt_of_le unpinned)
    have fits := committable_of_ready start slot ready elsewhere
      (fun low => absurd low (Nat.not_lt_of_le unpinned)) fun tid current readyNow => by
        rw [aged.currentTask] at current
        rw [aged.state] at readyNow
        rw [aged.rqCpu]
        exact saved tid current readyNow
    have seated : (((rosterOf scanned).dequeue source next).enqueue cid next).rqCpu next ≠ none := by
      simp only [Roster.enqueue]
      rw [update_self]
      exact Option.some_ne_none cid
    unfold Safe
    rw [rosterOf_migrate]
    refine ⟨⟨joined, (dequeued.enqueue cid next).seat (.inl seated)⟩,
      { fits with saved := fun tid current readyNow => ?_ }⟩
    by_cases apart : tid = next
    · rw [apart]
      exact seated
    · simp only [Roster.enqueue, Roster.dequeue]
      rw [update_of_ne apart, update_of_ne apart]
      exact fits.saved tid current readyNow
  | kept aged current running =>
    unfold Safe
    rw [aged.roster]
    refine ⟨safe, safe.slot current, ?_, fun other named => ?_, fun low => ?_, saved⟩
    · change (before.tasks next).state.dead = false
      rcases running with ready | running
      · rw [ready]
        rfl
      · rw [running]
        rfl
    · exact safe.sane.current_once other cid next named current
    · exact safe.sane.pinned_current next cid low current
  | idle aged =>
    unfold Safe
    rw [aged.roster, idleOf_eq safe core]
    refine ⟨safe, safe.sane.cores_lt_slots core, safe.sane.pinned_alive cid core,
      fun other named => safe.sane.pinned_current cid other core named, fun _ => rfl, saved⟩

/-! ### The tick -/

theorem rosterOf_accountTick (kernel : Kernel) (cur : Option Nat) (dead : Bool) :
    rosterOf (accountTick kernel cur dead) = rosterOf kernel := by
  unfold accountTick
  split
  · rfl
  · split_ifs
    · exact rosterOf_unseen _ _ _ (by simp)
    · rfl

/-- Idle tasks never return to Ring 3. -/
def IdleFrames (cores : Nat) (frames : Nat → UserFrame) : Prop :=
  ∀ tid, 0 < tid → tid < cores → (frames tid).ring3 = false

theorem Safe.idleFrames {kernel : Kernel} (safe : Safe kernel) {frames : Nat → UserFrame}
    (returns : framesMatch kernel frames = true) : IdleFrames kernel.smpCpuCount frames := by
  intro tid positive low
  have slot := safe.sane.cores_lt_slots low
  have ring : (kernel.tasks tid).ring = 0 := safe.sane.idle_ring tid positive low
  have agreed := List.all_eq_true.mp returns tid (List.mem_range.mpr slot)
  simpa only [ring, ne_eq, not_true_eq_false, decide_false, Bool.false_or, decide_eq_true_eq]
    using agreed

/-- The commit and the delivery of signals, which may kill the committed task. -/
theorem safe_switchTo {kernel : Kernel} (safe : Safe kernel) {cid next : Nat}
    (core : cid < kernel.smpCpuCount) (fits : Committable (rosterOf kernel) cid next) (esp : Nat)
    (cur : Option Nat) {frames : Nat → UserFrame}
    (halted : IdleFrames kernel.smpCpuCount frames) :
    Safe (switchTo kernel cid esp cur next frames).1 := by
  have committed := safe_commit safe core fits
  have delivered := (@deliverLoop_rule cid cur frames
    (fun later => Safe later ∧ later.smpCpuCount = kernel.smpCpuCount)
    (fun before after aged kept => by
      unfold Safe
      rw [aged.roster]
      exact ⟨kept.1, (fixed_iff.mp aged.fixed).2.2.2.1.trans kept.2⟩)
    (fun later next kept current => by
      refine ⟨safe_taskDeliverSignals kept.1 fun tid named ring3 => ?_,
        (fixed_iff.mp (fixed_taskDeliverSignals _ _ _)).2.2.2.1.trans kept.2⟩
      rw [current] at named
      obtain rfl := Option.some.inj named
      cases idle : (later.tasks next).isIdle with
      | false => rfl
      | true =>
        obtain ⟨positive, low⟩ := (kept.1.sane.idle_iff next (kept.1.slot current)).mp idle
        exact (ring3.symm.trans (halted next positive (kept.2 ▸ low))))
    (fun later after last tid kept current died chosen => by
      have onCore : cid < later.smpCpuCount := kept.2 ▸ core
      obtain ⟨stillSafe, fits⟩ := chosen.committable kept.1 onCore fun other named ready => by
        rw [current] at named
        obtain rfl := Option.some.inj named
        rw [died] at ready
        cases ready
      have cores := (fixed_iff.mp chosen.fixed).2.2.2.1
      exact ⟨safe_commit stillSafe (cores ▸ onCore) fits,
        ((commit_spec after cid tid).2.2.1.trans cores).trans kept.2⟩)
    deliverFuel _ next ⟨committed, (commit_spec kernel cid next).2.2.1⟩
    (by rw [commit_currentTask, update_self])).1.1
  unfold switchTo
  dsimp only
  split_ifs
  · exact safe
  · split
    · rename_i done
      rwa [done] at delivered
    · rename_i done
      rwa [done] at delivered
  · exact committed

theorem safe_schedule {kernel after : Kernel} (safe : Safe kernel) {cid esp ret : Nat}
    {sweep : Bool} {frames : Nat → UserFrame} (core : cid < kernel.smpCpuCount)
    (returns : framesMatch kernel frames = true)
    (seated : cid = 0 → sleepEnds (kernel.tasks 0) → ¬Stranded kernel 0)
    (ticked : schedule kernel cid esp sweep frames = some (after, ret)) : Safe after := by
  have upkept := safe_upkeep safe cid sweep seated
  have same := fixed_iff.mp (fixed_upkeep kernel cid sweep)
  obtain ⟨saved, seatedNow⟩ := safe_saveCurrent upkept cid esp
  rw [same.1] at saved seatedNow
  have cores : (savedKernel kernel cid esp sweep).smpCpuCount = kernel.smpCpuCount :=
    (saveCurrent_spec _ _ _ _).2.2.1.trans same.2.2.2.1
  rcases schedule_cases ticked with rfl | aged | ⟨chosen, next, dead, chosenNext, switched⟩
  · exact upkept
  · unfold Safe
    rw [aged.roster]
    exact saved
  · obtain ⟨safeNow, fits⟩ := chosenNext.committable saved (cores ▸ core) fun tid current ready => by
      exact seatedNow tid
        ((congrFun (savedKernel_currentTask kernel cid esp sweep) cid).symm.trans current) ready
    have counted := rosterOf_accountTick chosen (kernel.currentTask cid) dead
    have chosenCores : (accountTick chosen (kernel.currentTask cid) dead).smpCpuCount =
        kernel.smpCpuCount :=
      (congrArg Roster.smpCpuCount counted).trans
        ((fixed_iff.mp chosenNext.fixed).2.2.2.1.trans cores)
    have result := @safe_switchTo (accountTick chosen (kernel.currentTask cid) dead)
      (by unfold Safe; rw [counted]; exact safeNow) cid next (chosenCores ▸ core)
      (by rw [counted]; exact fits) esp (kernel.currentTask cid) frames
      (chosenCores ▸ safe.idleFrames returns)
    rwa [← switched] at result

end MectovOS.Sched
