/-
This file shows that every critical section of the task layer keeps the
invariant of the scheduler, under the conditions the code relies on without
checking them: a task that parks itself still has its slot, a stop finds a slot
in use, no signal kills an idle task, and no wake makes task 0 or an idle task
READY while no core is on it.
-/

import MectovOS.Task.Seats

namespace MectovOS.Sched

/-! ### Ends of tasks -/

theorem rosterOf_vmmSwitchPageDir (kernel : Kernel) (cid pageDir : Nat) :
    rosterOf (vmmSwitchPageDir kernel cid pageDir) = rosterOf kernel := by
  unfold vmmSwitchPageDir
  split_ifs <;> rfl

theorem rosterOf_deferredPdPush (kernel : Kernel) (pageDir slot : Nat) :
    rosterOf (deferredPdPush kernel pageDir slot) = rosterOf kernel := by
  unfold deferredPdPush
  split_ifs <;> rfl

theorem rosterOf_cleanupPageDir (kernel : Kernel) (cid tid : Nat) :
    rosterOf (cleanupPageDir kernel cid tid) = rosterOf kernel := by
  unfold cleanupPageDir
  dsimp only
  split_ifs
  · exact (rosterOf_unseen _ _ _ (by simp)).trans (rosterOf_deferredPdPush _ _ _)
  · exact (rosterOf_unseen _ _ _ (by simp)).trans (rosterOf_vmmSwitchPageDir _ _ _)
  · exact rosterOf_unseen _ _ _ (by simp)
  · exact rosterOf_unseen _ _ _ (by simp)
  · rfl

theorem rosterOf_taskCleanup (kernel : Kernel) (cid tid : Nat) :
    rosterOf (taskCleanup kernel cid tid) = rosterOf kernel := by
  unfold taskCleanup
  split_ifs
  · rfl
  · exact (rosterOf_cleanupPageDir _ _ _).trans (rosterOf_unseen _ _ _ (by simp))

theorem rosterOf_freeSlot (kernel : Kernel) (tid : Nat) :
    rosterOf (freeSlot kernel tid) = (rosterOf kernel).release tid := by
  unfold freeSlot
  exact rosterOf_setState _ _ _ (by simp)

theorem dead_iff {state : TaskState} : state.dead = true ↔ state = .zombie ∨ state = .free := by
  simp only [TaskState.dead, Bool.or_eq_true, decide_eq_true_eq]

theorem alive_iff {state : TaskState} : state.dead = false ↔ state ≠ .zombie ∧ state ≠ .free := by
  rw [← Bool.not_eq_true, dead_iff, not_or]

/-- A task between its removal from its queue and its burial. -/
structure Dying (roster : Roster) (tid : Nat) : Prop where
  sane : roster.Sane
  placed : roster.Placed (· = tid)
  slot : tid < maxTasks
  alive : (roster.state tid).dead = false
  unqueued : roster.rqCpu tid = none
  unpinned : roster.smpCpuCount ≤ tid

/-- A zombie child of a dying parent is given back at once. -/
theorem Dying.release {roster : Roster} {tid child : Nat} (dying : Dying roster tid)
    (slot : child < maxTasks) (zombie : roster.state child = .zombie) (apart : child ≠ tid) :
    Dying (roster.release child) tid where
  sane := dying.sane.release slot (by rw [zombie]; exact TaskState.noConfusion)
    (dying.sane.dead_unqueued child slot (by rw [zombie]; rfl))
    (dying.sane.unpinned (by rw [zombie]; rfl))
  placed := dying.placed.setState (.inl TaskState.noConfusion)
  slot := dying.slot
  alive := by
    rw [Roster.release, Roster.setState_other _ _ (Ne.symm apart)]
    exact dying.alive
  unqueued := dying.unqueued
  unpinned := dying.unpinned

theorem dying_reparentChildren {kernel : Kernel} {tid : Nat} (dying : Dying (rosterOf kernel) tid) :
    Dying (rosterOf (reparentChildren kernel tid)) tid := by
  have below : ∀ child ∈ (List.range maxTasks).filter (0 < ·), child < maxTasks :=
    fun child member => List.mem_range.mp (List.mem_of_mem_filter member)
  unfold reparentChildren
  generalize (List.range maxTasks).filter (0 < ·) = children at below
  induction children generalizing kernel with
  | nil => exact dying
  | cons child rest inductionHypothesis =>
    refine inductionHypothesis ?_ fun other member => below other (List.mem_cons_of_mem _ member)
    unfold reparentChild
    dsimp only
    split_ifs with mine zombie
    · rw [rosterOf_freeSlot]
      exact dying.release (below child List.mem_cons_self) zombie mine.1
    · rw [rosterOf_unseen _ _ _ (by simp)]
      exact dying
    · exact dying

theorem safe_notifyParent {kernel : Kernel} (safe : Safe kernel) {parent : Nat}
    (positive : 0 < parent) (slot : parent < maxTasks)
    (alive : (kernel.tasks parent).state.dead = false) : Safe (notifyParent kernel parent) := by
  unfold notifyParent Safe
  rw [rosterOf_unseen _ _ _ (by simp)]
  split_ifs with waits
  · refine safe_makeReady safe slot alive (fun low => ?_) _ (by simp) (.inr rfl)
    exact absurd (safe.sane.idle_waiting parent positive low) waits
  · exact safe

theorem safe_buryTask {kernel : Kernel} {tid : Nat} (dying : Dying (rosterOf kernel) tid)
    (code : Nat) : Safe (buryTask kernel tid code) := by
  have occupied : (kernel.tasks tid).state ≠ .free := (alive_iff.mp dying.alive).2
  unfold buryTask
  dsimp only
  split_ifs with waited
  · obtain ⟨positive, slot, apart, used, unburied⟩ := waited
    refine safe_notifyParent ?_ positive slot ?_
    · unfold Safe
      rw [rosterOf_setState _ _ _ (by simp)]
      have buried : ((rosterOf kernel).setState tid .zombie).Placed (· = tid) :=
        dying.placed.setState (.inl TaskState.noConfusion)
      refine ⟨dying.sane.setState (iff_of_false TaskState.noConfusion occupied)
        (fun _ => dying.unqueued) (fun low => absurd low (Nat.not_lt_of_le dying.unpinned))
        (fun _ low => absurd low (Nat.not_lt_of_le dying.unpinned)), buried.settle ?_⟩
      rw [Roster.setState_self]
      exact TaskState.noConfusion
    · rw [setTask_other _ _ apart]
      exact alive_iff.mpr ⟨unburied, used⟩
  · unfold Safe
    rw [rosterOf_freeSlot]
    have freed : ((rosterOf kernel).release tid).Placed (· = tid) :=
      dying.placed.setState (.inl TaskState.noConfusion)
    refine ⟨dying.sane.release dying.slot occupied dying.unqueued dying.unpinned, freed.settle ?_⟩
    rw [Roster.release, Roster.setState_self]
    exact TaskState.noConfusion

/-- Any task but an idle task may be terminated. -/
theorem safe_terminateTask {kernel : Kernel} (safe : Safe kernel) (cid : Nat) {tid : Nat}
    (code : Nat) (mortal : tid < maxTasks → (kernel.tasks tid).isIdle = false) :
    Safe (terminateTask kernel cid tid code) := by
  unfold terminateTask
  split_ifs with outside dead
  · exact safe
  · exact safe
  · rw [not_or] at outside dead
    have slot : tid < maxTasks := Nat.lt_of_not_le outside.2
    have unpinned : kernel.smpCpuCount ≤ tid := by
      by_contra low
      have idle := (safe.sane.idle_iff tid slot).mpr
        ⟨Nat.pos_of_ne_zero outside.1, Nat.lt_of_not_le low⟩
      exact Bool.false_ne_true ((mortal slot).symm.trans idle)
    dsimp only
    refine safe_buryTask (dying_reparentChildren ?_) code
    rw [rosterOf_taskCleanup]
    have renamed : rosterOf (kernel.setTask tid fun task => { task with name := [] }) =
        rosterOf kernel := rosterOf_unseen _ _ _ (by simp)
    rw [rosterOf_rqRemove (renamed.symm ▸ safe.sane) slot, renamed]
    obtain ⟨state, _, cores, unqueued⟩ := Roster.remove_kept (rosterOf kernel) tid
    exact
      { sane := safe.sane.remove tid
        placed := Roster.Placed.remove (safe.placed.exempting (· = tid) fun _ => False.elim) rfl
        slot := slot
        alive := by rw [state]; exact alive_iff.mpr ⟨dead.2, dead.1⟩
        unqueued := unqueued
        unpinned := cores ▸ unpinned }

/-! ### Reaping -/

theorem rosterOf_reapDeferred (fuel : Nat) (kernel : Kernel) (index : Nat) :
    rosterOf (reapDeferred fuel kernel index) = rosterOf kernel := by
  induction fuel generalizing kernel index with
  | zero => rfl
  | succ fuel inductionHypothesis =>
    unfold reapDeferred
    dsimp only
    split_ifs
    · exact inductionHypothesis _ _
    · exact (inductionHypothesis _ _).trans rfl
    · rfl

/-- A zombie's slot may be given back. -/
theorem safe_freeSlot {kernel : Kernel} (safe : Safe kernel) {tid : Nat} (slot : tid < maxTasks)
    (zombie : (kernel.tasks tid).state = .zombie) : Safe (freeSlot kernel tid) := by
  unfold Safe
  rw [rosterOf_freeSlot]
  have dead : ((rosterOf kernel).state tid).dead = true := by
    change (kernel.tasks tid).state.dead = true
    rw [zombie]
    rfl
  exact ⟨safe.sane.release slot (show (kernel.tasks tid).state ≠ .free by
      rw [zombie]; exact TaskState.noConfusion) (safe.sane.dead_unqueued tid slot dead)
      (safe.sane.unpinned dead),
    safe.placed.setState (.inl TaskState.noConfusion)⟩

theorem safe_taskReapZombies {kernel : Kernel} (safe : Safe kernel) (now : BitVec 32) :
    Safe (taskReapZombies kernel now) := by
  have below : ∀ tid ∈ (List.range maxTasks).filter (0 < ·), tid < maxTasks :=
    fun tid member => List.mem_range.mp (List.mem_of_mem_filter member)
  have start : Safe (reapDeferred kernel.deferredPdQ.length kernel 0) := by
    unfold Safe
    rw [rosterOf_reapDeferred]
    exact safe
  unfold taskReapZombies
  generalize (List.range maxTasks).filter (0 < ·) = tids at below
  generalize reapDeferred kernel.deferredPdQ.length kernel 0 = reaped at start
  induction tids generalizing reaped with
  | nil => exact start
  | cons tid rest inductionHypothesis =>
    refine inductionHypothesis (fun other member => below other (List.mem_cons_of_mem _ member)) _ ?_
    unfold reapZombie
    dsimp only
    split_ifs with alive
    · exact start
    · exact safe_freeSlot start (below tid List.mem_cons_self) (not_not.mp alive)
    · exact start

theorem safe_waitpidReap {kernel : Kernel} (safe : Safe kernel) (self : Nat) {child : Nat}
    (slot : child < maxTasks) : Safe (waitpidReap kernel self child) := by
  unfold waitpidReap
  split_ifs with lost
  · exact safe
  · rw [not_or] at lost
    exact safe_freeSlot safe slot (not_not.mp lost.1)

/-! ### Signals -/

/-- The default action of the signal applies: it is not blocked, and no handler is set. -/
def actsByDefault (task : Task) (sig : Nat) : Prop :=
  task.blockedSignals &&& signalBit sig = 0 ∧ handlerOf task sig = 0

/-- The signal kills the task. -/
def killsTask (task : Task) (sig : Nat) : Prop :=
  sig = sigkill ∨ (sig ≠ sigstop ∧ sig ≠ sigcont ∧ sig ≠ sigchld ∧ stopsByDefault sig = false ∧
    actsByDefault task sig)

/-- The signal suspends the task. -/
def stopsTask (task : Task) (sig : Nat) : Prop :=
  sig = sigstop ∨ (sig ≠ sigkill ∧ sig ≠ sigcont ∧ stopsByDefault sig = true ∧
    actsByDefault task sig)

theorem safe_stopTask {kernel : Kernel} (safe : Safe kernel) {tid : Nat} (slot : tid < maxTasks)
    (cleared : BitVec 32) (used : (kernel.tasks tid).state ≠ .free) :
    Safe (stopTask kernel tid cleared) := by
  unfold stopTask
  exact safe_park safe slot used .stopped TaskState.noConfusion rfl
    (fun _ _ => ⟨TaskState.noConfusion, TaskState.noConfusion⟩) _ (by simp)

/-- A task that sleeps or is blocked is not an idle task. -/
theorem Safe.unpinned_of_parked {kernel : Kernel} (safe : Safe kernel) {tid : Nat}
    (positive : 0 < tid)
    (parked : (kernel.tasks tid).state = .blocked ∨ (kernel.tasks tid).state = .sleep) :
    kernel.smpCpuCount ≤ tid := by
  by_contra low
  obtain ⟨awake, unblocked⟩ := safe.sane.idle_state tid positive (Nat.lt_of_not_le low)
  rcases parked with blocked | asleep
  · exact unblocked blocked
  · exact awake asleep

theorem safe_postSignal {kernel : Kernel} (safe : Safe kernel) {tid : Nat} (positive : 0 < tid)
    (slot : tid < maxTasks) (sig : Nat) : Safe (postSignal kernel tid sig) := by
  have marked : rosterOf (kernel.setTask tid fun task =>
      { task with pendingSignals := task.pendingSignals ||| signalBit sig }) = rosterOf kernel :=
    rosterOf_unseen _ _ _ (by simp)
  have start : Safe (kernel.setTask tid fun task =>
      { task with pendingSignals := task.pendingSignals ||| signalBit sig }) := by
    unfold Safe
    rw [marked]
    exact safe
  unfold postSignal
  dsimp only
  split
  · rename_i parked
    have unpinned := start.unpinned_of_parked positive parked
    refine safe_makeReady start slot (alive_iff.mpr ?_)
      (fun low => absurd low (Nat.not_lt_of_le unpinned)) _ (by simp) (.inl rfl)
    rcases parked with blocked | asleep
    · rw [blocked]
      exact ⟨TaskState.noConfusion, TaskState.noConfusion⟩
    · rw [asleep]
      exact ⟨TaskState.noConfusion, TaskState.noConfusion⟩
  · exact start

/-- What a signal relies on: it kills no idle task, it stops a slot in use, and it continues an
idle task only on its core. -/
structure SignalFits (kernel : Kernel) (tid sig : Nat) : Prop where
  kills : killsTask (kernel.tasks tid) sig → (kernel.tasks tid).isIdle = false
  stops : stopsTask (kernel.tasks tid) sig → (kernel.tasks tid).state ≠ .free
  continues : sig = sigcont → (kernel.tasks tid).state = .stopped →
    (kernel.tasks tid).isIdle = true → ∃ cid, kernel.currentTask cid = some tid

theorem safe_taskSignal {kernel : Kernel} (safe : Safe kernel) (cid : Nat) {tid sig : Nat}
    (fits : 0 < tid → tid < maxTasks → SignalFits kernel tid sig) :
    Safe (taskSignal kernel cid tid sig) := by
  unfold taskSignal
  by_cases outside : tid = 0 ∨ maxTasks ≤ tid ∨ sig = 0 ∨ sigMax ≤ sig
  · rw [if_pos outside]
    exact safe
  · rw [if_neg outside]
    simp only [not_or, not_le] at outside
    obtain ⟨nonzero, slot, -, -⟩ := outside
    have positive := Nat.pos_of_ne_zero nonzero
    have fits := fits positive slot
    by_cases isKill : sig = sigkill
    · rw [if_pos isKill]
      exact safe_terminateTask safe cid _ fun _ => fits.kills (.inl isKill)
    rw [if_neg isKill]
    by_cases isStop : sig = sigstop
    · rw [if_pos isStop]
      exact safe_stopTask safe slot _ (fits.stops (.inl isStop))
    rw [if_neg isStop]
    by_cases isCont : sig = sigcont
    · rw [if_pos isCont]
      have start : Safe (kernel.setTask tid fun task => { task with
          pendingSignals := task.pendingSignals &&& ~~~(signalBit sigstop ||| signalBit sigtstp) }) := by
        unfold Safe
        rw [rosterOf_unseen _ _ _ (by simp)]
        exact safe
      dsimp only
      split_ifs with stopped
      · rw [setTask_same] at stopped
        refine safe_makeReady start slot ?_ (fun low => ?_) _ (by simp) (.inl rfl)
        · rw [setTask_same, stopped]
          rfl
        · exact fits.continues isCont stopped ((safe.sane.idle_iff tid slot).mpr ⟨positive, low⟩)
      · exact start
    rw [if_neg isCont]
    by_cases blocked : (kernel.tasks tid).blockedSignals &&& signalBit sig ≠ 0
    · rw [if_pos blocked]
      unfold Safe
      rw [rosterOf_unseen _ _ _ (by simp)]
      exact safe
    rw [if_neg blocked]
    by_cases ignored : handlerOf (kernel.tasks tid) sig = sigIgnSentinel
    · rw [if_pos ignored]
      exact safe
    rw [if_neg ignored]
    by_cases unset : handlerOf (kernel.tasks tid) sig = 0
    · rw [if_pos unset]
      have default : actsByDefault (kernel.tasks tid) sig := ⟨not_not.mp blocked, unset⟩
      split_ifs with isChild stops
      · exact safe
      · exact safe_stopTask safe slot _ (fits.stops (.inr ⟨isKill, isCont, stops, default⟩))
      · exact safe_terminateTask safe cid _ fun _ => fits.kills
          (.inr ⟨isStop, isCont, isChild, Bool.not_eq_true _ ▸ stops, default⟩)
    · rw [if_neg unset]
      exact safe_postSignal safe positive slot sig

theorem safe_deliverScan {kernel : Kernel} (safe : Safe kernel) (cid : Nat) {tid : Nat}
    (mortal : (kernel.tasks tid).isIdle = false) (frame : UserFrame) (fuel sig : Nat) :
    Safe (deliverScan cid tid frame fuel sig kernel).1 := by
  induction fuel generalizing sig kernel with
  | zero => exact safe
  | succ fuel inductionHypothesis =>
    have cleared : Safe (kernel.setTask tid fun task =>
        { task with pendingSignals := task.pendingSignals &&& ~~~signalBit sig }) := by
      unfold Safe
      rw [rosterOf_unseen _ _ _ (by simp)]
      exact safe
    have still : ((kernel.setTask tid fun task => { task with
        pendingSignals := task.pendingSignals &&& ~~~signalBit sig }).tasks tid).isIdle = false := by
      rw [setTask_same]
      exact mortal
    unfold deliverScan
    dsimp only
    split_ifs
    · exact inductionHypothesis safe mortal _
    · exact inductionHypothesis safe mortal _
    · exact inductionHypothesis cleared still _
    · exact inductionHypothesis cleared still _
    · exact safe_terminateTask cleared cid _ fun _ => still
    · unfold Safe enterHandler
      rw [rosterOf_unseen _ _ _ (by simp)]
      exact cleared
    · exact safe_terminateTask cleared cid _ fun _ => still

theorem safe_taskDeliverSignals {kernel : Kernel} (safe : Safe kernel) {cid : Nat}
    {frame : UserFrame}
    (mortal : ∀ tid, kernel.currentTask cid = some tid → frame.ring3 = true →
      (kernel.tasks tid).isIdle = false) :
    Safe (taskDeliverSignals kernel cid frame).1 := by
  unfold taskDeliverSignals
  split
  · exact safe
  · rename_i tid current
    split_ifs with refused
    · exact safe
    · rw [not_or] at refused
      exact safe_deliverScan safe cid (mortal tid current (Bool.not_eq_false _ ▸ refused.1)) frame
        _ _

theorem safe_taskFaultSignal {kernel : Kernel} (safe : Safe kernel) {cid : Nat} (sig : Nat)
    (frame : UserFrame)
    (mortal : ∀ tid, kernel.currentTask cid = some tid → (kernel.tasks tid).isIdle = false) :
    Safe (taskFaultSignal kernel cid sig frame) := by
  unfold taskFaultSignal
  split
  · exact safe
  · rename_i tid current
    split_ifs with refused unhandled
    · exact safe
    · exact safe_terminateTask safe cid _ fun _ => mortal tid current
    · have marked : Safe (kernel.setTask tid fun task =>
          { task with pendingSignals := task.pendingSignals ||| signalBit sig }) := by
        unfold Safe
        rw [rosterOf_unseen _ _ _ (by simp)]
        exact safe
      have kinds := (fixed_iff.mp (fixed_setTask kernel tid (fun task =>
        { task with pendingSignals := task.pendingSignals ||| signalBit sig }) (by simp)))
      have delivered := @safe_taskDeliverSignals _ marked cid frame
        fun other named _ => (kinds.2.2.2.2.2.2.1 other).trans
          (mortal other ((congrFun kinds.1 cid).symm.trans named))
      dsimp only
      split_ifs
      · exact delivered
      · refine safe_terminateTask delivered cid _ fun _ => ?_
        rw [(fixed_iff.mp (fixed_taskDeliverSignals _ cid frame)).2.2.2.2.2.2.1 tid,
          kinds.2.2.2.2.2.2.1 tid]
        exact mortal tid current

end MectovOS.Sched
