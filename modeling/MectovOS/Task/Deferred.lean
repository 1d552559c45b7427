/-
This file compares the two paths of a signal: `task_signal` acts at once on a
signal that is not blocked, and marks a blocked one, which
`task_deliver_signals` then acts on when the task returns to Ring 3 with the
signal unblocked. Each path has a table of default actions of its own.
-/

import MectovOS.Task.Delivery

namespace MectovOS.Sched

/-! ### SYS_SIGPROCMASK -/

/-- The signals that are never blocked. -/
def unblockable : BitVec 32 := signalBit sigkill ||| signalBit sigstop ||| signalBit sigcont

inductive MaskChange where
  | block
  | unblock
  | setmask

/-- The mask SYS_SIGPROCMASK leaves. -/
def changedMask (how : MaskChange) (cur newset : BitVec 32) : BitVec 32 :=
  let mask := newset &&& ~~~unblockable
  match how with
  | .block => cur ||| mask
  | .unblock => cur &&& ~~~mask
  | .setmask => mask

/-- SYS_SIGPROCMASK with a new set. -/
def sigprocmask (kernel : Kernel) (tid : Nat) (how : MaskChange) (newset : BitVec 32) : Kernel :=
  kernel.setTask tid fun task =>
    { task with blockedSignals := changedMask how task.blockedSignals newset }

/-! ### The two paths -/

/-- The signal is sent while it is blocked; the task then unblocks it and returns to Ring 3. -/
def deferredPath (kernel : Kernel) (cid tid sig : Nat) (how : MaskChange) (newset : BitVec 32)
    (frame : UserFrame) : Kernel :=
  (taskDeliverSignals (sigprocmask (taskSignal kernel cid tid sig) tid how newset) cid frame).1

/-- The task unblocks the signal, which is sent then; the task returns to Ring 3. -/
def immediatePath (kernel : Kernel) (cid tid sig : Nat) (how : MaskChange) (newset : BitVec 32)
    (frame : UserFrame) : Kernel :=
  (taskDeliverSignals (taskSignal (sigprocmask kernel tid how newset) cid tid sig) cid frame).1

/-- The signal is blocked, and the new mask unblocks it. -/
structure Unblocks (task : Task) (sig : Nat) (how : MaskChange) (newset : BitVec 32) : Prop where
  positive : 0 < sig
  bound : sig < sigMax
  blockable : sig ≠ sigkill ∧ sig ≠ sigstop ∧ sig ≠ sigcont
  blocked : task.blockedSignals &&& signalBit sig ≠ 0
  unblocked : changedMask how task.blockedSignals newset &&& signalBit sig = 0

/-- The record with the mark of a signal. -/
def markedTask (task : Task) (sig : Nat) : Task :=
  { task with pendingSignals := task.pendingSignals ||| signalBit sig }

/-- Sending a blocked signal only marks it, whenever it is sent. -/
theorem taskSignal_blocked {kernel : Kernel} (cid : Nat) {tid sig : Nat} (inside : 0 < tid)
    (slot : tid < maxTasks) (positive : 0 < sig) (bound : sig < sigMax)
    (blockable : sig ≠ sigkill ∧ sig ≠ sigstop ∧ sig ≠ sigcont)
    (blocked : (kernel.tasks tid).blockedSignals &&& signalBit sig ≠ 0) :
    taskSignal kernel cid tid sig = kernel.setTask tid fun task => markedTask task sig := by
  unfold taskSignal
  rw [if_neg (by omega), if_neg blockable.1, if_neg blockable.2.1, if_neg blockable.2.2,
    if_pos blocked]
  rfl

theorem acts_marked_other (task : Task) {sig other : Nat} (bound : sig < sigMax)
    (low : other < sigMax) (apart : other ≠ sig) :
    acts (markedTask task sig) other = acts task other := by
  have disjoint : signalBit sig &&& signalBit other = 0 := by
    have all : ∀ sig < sigMax, ∀ other < sigMax, other ≠ sig →
        signalBit sig &&& signalBit other = 0 := by decide +kernel
    exact all sig bound other low apart
  have same : (task.pendingSignals ||| signalBit sig) &&& signalBit other =
      task.pendingSignals &&& signalBit other := by
    rw [BitVec.and_or_distrib_right, disjoint]
    exact BitVec.or_zero
  unfold acts markedTask
  simp only [same]
  rfl

theorem acts_marked_self (task : Task) {sig : Nat} (bound : sig < sigMax)
    (unblocked : task.blockedSignals &&& signalBit sig = 0) :
    acts (markedTask task sig) sig =
      (handlerOf task sig ≠ sigIgnSentinel && !(handlerOf task sig = 0 && sig = sigchld)) := by
  have marked : (task.pendingSignals ||| signalBit sig) &&& signalBit sig ≠ 0 := by
    have absorbed : (task.pendingSignals ||| signalBit sig) &&& signalBit sig = signalBit sig := by
      ext index
      simp only [BitVec.getElem_and, BitVec.getElem_or]
      cases task.pendingSignals[index] <;> cases (signalBit sig)[index] <;> rfl
    rw [absorbed]
    exact signalBit_ne_zero bound
  unfold acts markedTask
  simp only [marked, ne_eq, not_false_eq_true, decide_true, unblocked, Bool.true_or, Bool.true_and]
  rfl

/-- The record once the mask is changed. -/
def unmaskedTask (task : Task) (how : MaskChange) (newset : BitVec 32) : Task :=
  { task with blockedSignals := changedMask how task.blockedSignals newset }

section
variable {kernel : Kernel} {cid tid sig : Nat} {how : MaskChange} {newset : BitVec 32}
  {frame : UserFrame}

theorem sigprocmask_same : (sigprocmask kernel tid how newset).tasks tid =
    unmaskedTask (kernel.tasks tid) how newset :=
  setTask_same _ _ _

/-- The mark of the signal and the change of the mask do not depend on their order. -/
theorem sigprocmask_marked :
    sigprocmask (kernel.setTask tid fun task => markedTask task sig) tid how newset =
      (sigprocmask kernel tid how newset).setTask tid fun task => markedTask task sig := by
  unfold sigprocmask Kernel.setTask
  simp only [Function.update_self, Function.update_idem]
  rfl

theorem firstEffect_marked (found : Option Nat) :
    firstEffect (kernel.setTask tid fun task => markedTask task sig) tid frame found =
      firstEffect kernel tid frame found := by
  cases found with
  | none =>
    unfold firstEffect
    rw [setTask_same]
    rfl
  | some other => exact deliveryEffect_pending kernel tid other frame _

/-- The deferred path delivers the lowest signal that acts, the unblocked one among them. -/
theorem effect_deferredPath (current : kernel.currentTask cid = some tid) (inside : 0 < tid)
    (slot : tid < maxTasks) (alive : (kernel.tasks tid).state.dead = false)
    (ring3 : frame.ring3 = true) (unblocks : Unblocks (kernel.tasks tid) sig how newset) :
    effect ((deferredPath kernel cid tid sig how newset frame).tasks tid) =
      firstEffect (sigprocmask kernel tid how newset) tid frame
        (deliverable (markedTask (unmaskedTask (kernel.tasks tid) how newset) sig)) := by
  unfold deferredPath
  rw [taskSignal_blocked cid inside slot unblocks.positive unblocks.bound unblocks.blockable
    unblocks.blocked, sigprocmask_marked, effect_taskDeliverSignals, setTask_same,
    sigprocmask_same, firstEffect_marked]
  · exact current
  · exact inside
  · exact slot
  · rw [setTask_same, sigprocmask_same]
    exact alive
  · exact ring3

/-- The state after the exit is dead, and the status tells exits with a live parent apart. -/
theorem exitEffect_dead (code : Nat) : (exitEffect kernel tid code).state.dead = true := by
  unfold exitEffect
  dsimp only
  split_ifs <;> rfl

theorem exitEffect_inj {first second : Nat} (below : first < 256) (under : second < 256) :
    exitEffect kernel tid first = exitEffect kernel tid second ↔
      first = second ∨ hasLiveParent kernel tid = false := by
  unfold exitEffect
  dsimp only
  by_cases lives : hasLiveParent kernel tid = true
  · rw [if_pos lives, if_pos lives, Effect.mk.injEq, Nat.mod_eq_of_lt below,
      Nat.mod_eq_of_lt under, lives]
    simp
  · rw [if_neg lives, if_neg lives]
    exact iff_of_true rfl (.inr (Bool.eq_false_of_not_eq_true lives))

/-- A record without its queue: all that signals read. -/
def homeless (task : Task) : Task := { task with rqCpu := none }

theorem homeless_blind : HomeBlind homeless := fun _ _ => rfl

theorem deliverable_homeless {before after : Kernel}
    (same : viewOf homeless after = viewOf homeless before) :
    deliverable (after.tasks tid) = deliverable (before.tasks tid) := by
  have own := congrArg deliverable (congrFun same tid)
  exact own

theorem firstEffect_homeless {before after : Kernel}
    (same : viewOf homeless after = viewOf homeless before) (found : Option Nat) :
    firstEffect after tid frame found = firstEffect before tid frame found := by
  have own : homeless (after.tasks tid) = homeless (before.tasks tid) := congrFun same tid
  have parents := congrArg Task.parent own
  have states := fun other => congrArg (fun task => task.state.dead) (congrFun same other)
  have lives : hasLiveParent after tid = hasLiveParent before tid :=
    hasLiveParent_congr parents states
  have effects : effect (after.tasks tid) = effect (before.tasks tid) := by
    have shown := congrArg effect own
    exact shown
  cases found with
  | none => exact effects
  | some other =>
    have kills : killsOnDelivery (after.tasks tid) other frame =
        killsOnDelivery (before.tasks tid) other frame := by
      have shown := congrArg (fun task => killsOnDelivery task other frame) own
      exact shown
    have handler : handlerEffect (after.tasks tid) other frame =
        handlerEffect (before.tasks tid) other frame := by
      have shown := congrArg (fun task => handlerEffect task other frame) own
      exact shown
    unfold firstEffect deliveryEffect exitEffect
    dsimp only
    rw [kills, handler, lives, effects]

/-- A task that is stopped and whose marks of the signal are cleared. -/
def stoppedTask (task : Task) (sig : Nat) : Task :=
  { task with
    state := .stopped, pendingSignals := task.pendingSignals &&& ~~~signalBit sig }

theorem stopTask_homeless (kernel : Kernel) (tid sig : Nat) :
    viewOf homeless (stopTask kernel tid (signalBit sig)) =
      viewOf homeless (kernel.setTask tid fun task => stoppedTask task sig) :=
  viewOf_rqRemove homeless_blind _ _

theorem deliverable_marked_of_inert {task : Task} (bound : sig < sigMax)
    (unblocked : task.blockedSignals &&& signalBit sig = 0)
    (inert : handlerOf task sig = sigIgnSentinel ∨ (handlerOf task sig = 0 ∧ sig = sigchld)) :
    deliverable (markedTask task sig) = deliverable task := by
  have same : (List.range' 1 (sigMax - 1)).find? (acts (markedTask task sig)) =
      (List.range' 1 (sigMax - 1)).find? (acts task) := by
    refine find_congr fun other member => ?_
    by_cases apart : other = sig
    · rw [apart, acts_eq_false.mpr (.inr (.inr inert)), acts_marked_self task bound unblocked,
        Bool.and_eq_false_iff, Bool.not_eq_false', Bool.and_eq_true, decide_eq_false_iff_not,
        decide_eq_true_eq, decide_eq_true_eq, not_not]
      exact inert
    · exact acts_marked_other task bound (by
        have range := List.mem_range'_1.mp member
        unfold sigMax at range ⊢
        omega) apart
  unfold deliverable
  rw [same]
  rfl

/-- A signal that finds no action leaves both paths with what else is pending. -/
theorem effect_immediatePath_inert (current : kernel.currentTask cid = some tid)
    (inside : 0 < tid) (slot : tid < maxTasks) (alive : (kernel.tasks tid).state.dead = false)
    (ring3 : frame.ring3 = true)
    (unchanged : taskSignal (sigprocmask kernel tid how newset) cid tid sig =
      sigprocmask kernel tid how newset) :
    effect ((immediatePath kernel cid tid sig how newset frame).tasks tid) =
      firstEffect (sigprocmask kernel tid how newset) tid frame
        (deliverable (unmaskedTask (kernel.tasks tid) how newset)) := by
  have still : ((sigprocmask kernel tid how newset).tasks tid).state.dead = false := by
    rw [sigprocmask_same]
    exact alive
  have delivered := @effect_taskDeliverSignals (sigprocmask kernel tid how newset) cid tid current
    inside slot still frame ring3
  unfold immediatePath
  rw [unchanged, delivered, sigprocmask_same]

theorem effect_immediatePath_stop (current : kernel.currentTask cid = some tid)
    (inside : 0 < tid) (slot : tid < maxTasks) (ring3 : frame.ring3 = true)
    (stops : taskSignal (sigprocmask kernel tid how newset) cid tid sig =
      stopTask (sigprocmask kernel tid how newset) tid (signalBit sig)) :
    effect ((immediatePath kernel cid tid sig how newset frame).tasks tid) =
      firstEffect ((sigprocmask kernel tid how newset).setTask tid fun task =>
          stoppedTask task sig) tid frame
        (deliverable (stoppedTask (unmaskedTask (kernel.tasks tid) how newset) sig)) := by
  have same := stopTask_homeless (sigprocmask kernel tid how newset) tid sig
  have own := congrFun same tid
  have parked : ((stopTask (sigprocmask kernel tid how newset) tid (signalBit sig)).tasks
      tid).state = .stopped := by
    refine (congrArg Task.state own).trans ?_
    exact congrArg Task.state (setTask_same _ _ _)
  have still : ((stopTask (sigprocmask kernel tid how newset) tid (signalBit sig)).tasks
      tid).state.dead = false := by
    rw [parked]
    rfl
  have named : (stopTask (sigprocmask kernel tid how newset) tid (signalBit sig)).currentTask cid =
      some tid :=
    (congrFun (fixed_iff.mp (fixed_stopTask _ _ _)).1 cid).trans current
  unfold immediatePath
  rw [stops, effect_taskDeliverSignals named inside slot still ring3,
    deliverable_homeless same, firstEffect_homeless same, setTask_same, sigprocmask_same]

theorem effect_immediatePath_exit (current : kernel.currentTask cid = some tid)
    (inside : 0 < tid) (slot : tid < maxTasks) (alive : (kernel.tasks tid).state.dead = false)
    (exits : taskSignal (sigprocmask kernel tid how newset) cid tid sig =
      terminateTask (sigprocmask kernel tid how newset) cid tid (128 + sig)) :
    effect ((immediatePath kernel cid tid sig how newset frame).tasks tid) =
      exitEffect (sigprocmask kernel tid how newset) tid (128 + sig) := by
  have still : ((sigprocmask kernel tid how newset).tasks tid).state.dead = false := by
    rw [sigprocmask_same]
    exact alive
  have ended := effect_terminateTask cid inside slot still (128 + sig)
  have dead : ((terminateTask (sigprocmask kernel tid how newset) cid tid (128 + sig)).tasks
      tid).state.dead = true :=
    (congrArg (fun effect => effect.state.dead) ended).trans (exitEffect_dead _)
  have named : (terminateTask (sigprocmask kernel tid how newset) cid tid (128 + sig)).currentTask
      cid = some tid :=
    (congrFun (fixed_iff.mp (fixed_terminateTask _ _ _ _)).1 cid).trans current
  unfold immediatePath taskDeliverSignals
  rw [exits, named]
  dsimp only
  rw [if_pos (.inr (.inr (.inr (.inl dead))))]
  exact ended

/-- What `task_signal` does with a signal that is not blocked. -/
theorem taskSignal_unblocked {kernel : Kernel} (inside : 0 < tid) (slot : tid < maxTasks)
    (positive : 0 < sig) (bound : sig < sigMax)
    (blockable : sig ≠ sigkill ∧ sig ≠ sigstop ∧ sig ≠ sigcont)
    (unblocked : (kernel.tasks tid).blockedSignals &&& signalBit sig = 0) :
    taskSignal kernel cid tid sig =
      if handlerOf (kernel.tasks tid) sig = sigIgnSentinel then kernel
      else if handlerOf (kernel.tasks tid) sig = 0 then
        if sig = sigchld then kernel
        else if stopsByDefault sig then stopTask kernel tid (signalBit sig)
        else terminateTask kernel cid tid (128 + sig)
      else postSignal kernel tid sig := by
  unfold taskSignal
  rw [if_neg (by omega), if_neg blockable.1, if_neg blockable.2.1, if_neg blockable.2.2,
    if_neg (not_not.mpr unblocked)]

/-- A running task is not parked, so a signal with a handler only marks it. -/
theorem postSignal_running {kernel : Kernel} (running : (kernel.tasks tid).state = .running) :
    postSignal kernel tid sig = kernel.setTask tid fun task => markedTask task sig := by
  have parked : ¬(((kernel.setTask tid fun task => markedTask task sig).tasks tid).state =
      .blocked ∨ ((kernel.setTask tid fun task => markedTask task sig).tasks tid).state =
      .sleep) := by
    rw [setTask_same]
    simp only [markedTask, running]
    rintro (blocked | asleep)
    · cases blocked
    · cases asleep
  unfold postSignal
  exact if_neg parked

/-- When the two paths of a signal agree. The record is that of the task with the signal
unblocked and no mark of it. -/
def PathsAgree (kernel : Kernel) (tid sig : Nat) (frame : UserFrame) : Prop :=
  let task := kernel.tasks tid
  let first := deliverable (markedTask task sig)
  let orphan := hasLiveParent kernel tid = false
  handlerOf task sig ≠ 0 ∨ sig = sigchld ∨
    if stopsByDefault sig then
      (∃ other, first = some other ∧ other ≠ sig ∧ killsOnDelivery task other frame = true) ∨
        (first = some sig ∧ orphan ∧ ∃ other, deliverable (stoppedTask task sig) = some other ∧
          killsOnDelivery task other frame = true)
    else
      first = some sig ∨
        ∃ other, first = some other ∧ orphan ∧ killsOnDelivery task other frame = true

end

theorem deliverable_bound {task : Task} {sig : Nat} (found : deliverable task = some sig) :
    0 < sig ∧ sig < sigMax ∧ acts task sig = true := by
  unfold deliverable at found
  split_ifs at found
  have range := List.mem_range'_1.mp (List.mem_of_find?_eq_some found)
  refine ⟨by omega, ?_, List.find?_some found⟩
  unfold sigMax at range ⊢
  omega

theorem acts_marked_of_stopped {task : Task} {sig other : Nat}
    (acting : acts (stoppedTask task sig) other = true) :
    acts (markedTask task sig) other = true := by
  obtain ⟨pending, rest⟩ := acts_iff.mp acting
  refine acts_iff.mpr ⟨fun absent => pending ?_, rest⟩
  have bits : ∀ marks bit mask : BitVec 32, (marks ||| bit) &&& mask = 0 →
      marks &&& ~~~bit &&& mask = 0 := by
    intro marks bit mask none
    rw [BitVec.and_or_distrib_right] at none
    ext index
    have clear := congrArg (fun bits : BitVec 32 => bits[index]) none
    simp only [BitVec.getElem_and, BitVec.getElem_or, BitVec.getElem_not] at clear ⊢
    cases first : marks[index] <;> cases second : mask[index] <;>
      simp [first, second] at clear ⊢
  exact bits _ _ _ absent

/-- The first signal that acts is another one on both paths, when the unblocked signal would
stop the task. -/
theorem deliverable_stopped {task : Task} {sig other : Nat} (bound : sig < sigMax)
    (apart : other ≠ sig) (found : deliverable (markedTask task sig) = some other) :
    deliverable (stoppedTask task sig) = some other := by
  obtain ⟨_, low, acting⟩ := deliverable_bound found
  unfold deliverable at found ⊢
  split_ifs at found with inside
  have outside : ¬(stoppedTask task sig).sigFrameEsp ≠ 0 := inside
  rw [if_neg outside]
  refine find_weaken (fun _ => acts_marked_of_stopped) found ?_
  rw [acts_marked_other task bound low apart] at acting
  exact (acts_cleared task bound low apart).trans acting

section
variable {kernel : Kernel} {cid tid sig : Nat} {how : MaskChange} {newset : BitVec 32}
  {frame : UserFrame}

/-- A stopped task dies of another signal as a running one does. -/
theorem exitEffect_stopped (alive : (kernel.tasks tid).state.dead = false) (code : Nat) :
    exitEffect (kernel.setTask tid fun task => stoppedTask task sig) tid code =
      exitEffect kernel tid code := by
  have lives : hasLiveParent (kernel.setTask tid fun task => stoppedTask task sig) tid =
      hasLiveParent kernel tid := by
    refine hasLiveParent_congr (by rw [setTask_same]; rfl) fun other => ?_
    by_cases apart : other = tid
    · rw [apart, setTask_same, alive]
      rfl
    · rw [setTask_other _ _ apart]
  unfold exitEffect
  dsimp only
  rw [lives, setTask_same]
  rfl

/-- What a stopped task comes to: it stays stopped, enters a handler stopped, or exits. -/
theorem firstEffect_stopped (alive : (kernel.tasks tid).state.dead = false)
    (found : Option Nat) :
    (∃ other, found = some other ∧ killsOnDelivery (kernel.tasks tid) other frame = true ∧
      firstEffect (kernel.setTask tid fun task => stoppedTask task sig) tid frame found =
        exitEffect kernel tid (128 + other)) ∨
    ((∀ other, found = some other → killsOnDelivery (kernel.tasks tid) other frame = false) ∧
      (firstEffect (kernel.setTask tid fun task => stoppedTask task sig) tid frame found).state =
        .stopped) := by
  cases found with
  | none =>
    refine .inr ⟨(fun other absent => by cases absent), ?_⟩
    unfold firstEffect
    rw [setTask_same]
    rfl
  | some other =>
    have same : killsOnDelivery ((kernel.setTask tid fun task => stoppedTask task sig).tasks tid)
        other frame = killsOnDelivery (kernel.tasks tid) other frame := by
      rw [setTask_same]
      rfl
    unfold firstEffect deliveryEffect
    dsimp only
    rw [same]
    cases kills : killsOnDelivery (kernel.tasks tid) other frame with
    | true =>
      refine .inl ⟨other, rfl, kills, ?_⟩
      rw [if_pos rfl]
      exact exitEffect_stopped alive _
    | false =>
      refine .inr ⟨fun another equal => Option.some.inj equal ▸ kills, ?_⟩
      rw [if_neg Bool.false_ne_true, setTask_same]
      rfl

/-- What a running task comes to: it runs on, maybe in a handler, or exits. -/
theorem firstEffect_running (running : (kernel.tasks tid).state = .running)
    (found : Option Nat) :
    (∃ other, found = some other ∧ killsOnDelivery (kernel.tasks tid) other frame = true ∧
      firstEffect kernel tid frame found = exitEffect kernel tid (128 + other)) ∨
    ((∀ other, found = some other → killsOnDelivery (kernel.tasks tid) other frame = false) ∧
      (firstEffect kernel tid frame found).state = .running) := by
  cases found with
  | none => exact .inr ⟨(fun other absent => by cases absent), running⟩
  | some other =>
    unfold firstEffect deliveryEffect
    dsimp only
    cases kills : killsOnDelivery (kernel.tasks tid) other frame with
    | true => exact .inl ⟨other, rfl, kills, if_pos rfl⟩
    | false =>
      refine .inr ⟨fun another equal => Option.some.inj equal ▸ kills, ?_⟩
      rw [if_neg Bool.false_ne_true]
      exact running

theorem exit_ne_state {effect : Effect} {code : Nat} (alive : effect.state.dead = false) :
    exitEffect kernel tid code ≠ effect := by
  intro equal
  have dead := @exitEffect_dead kernel tid code
  rw [equal] at dead
  exact Bool.false_ne_true (alive.symm.trans dead)

/-- The exit path: the two effects agree when the same status is reported. -/
theorem exit_agrees_iff (running : (kernel.tasks tid).state = .running) (bound : sig < sigMax)
    (unset : handlerOf (kernel.tasks tid) sig = 0) :
    firstEffect kernel tid frame (deliverable (markedTask (kernel.tasks tid) sig)) =
        exitEffect kernel tid (128 + sig) ↔
      deliverable (markedTask (kernel.tasks tid) sig) = some sig ∨
        ∃ other, deliverable (markedTask (kernel.tasks tid) sig) = some other ∧
          hasLiveParent kernel tid = false ∧
          killsOnDelivery (kernel.tasks tid) other frame = true := by
  have own : killsOnDelivery (kernel.tasks tid) sig frame = true :=
    Bool.or_eq_true_iff.mpr (.inl (decide_eq_true unset))
  have low : ∀ other < sigMax, 128 + other < 256 := fun other below => by
    unfold sigMax at below
    omega
  rcases @firstEffect_running kernel tid frame running
    (deliverable (markedTask (kernel.tasks tid) sig)) with
    ⟨other, found, kills, exits⟩ | ⟨spares, runs⟩
  · rw [exits, exitEffect_inj (low other (deliverable_bound found).2.1) (low sig bound), found]
    constructor
    · rintro (same | orphan)
      · exact .inl (congrArg some (Nat.add_left_cancel same))
      · exact .inr ⟨other, rfl, orphan, kills⟩
    · rintro (same | ⟨_, _, orphan, _⟩)
      · exact .inl (congrArg (128 + ·) (Option.some.inj same))
      · exact .inr orphan
  · refine iff_of_false (fun equal => ?_) ?_
    · refine @exit_ne_state kernel tid _ (128 + sig) ?_ equal.symm
      rw [runs]
      rfl
    · rintro (same | ⟨other, found, _, kills⟩)
      · exact Bool.false_ne_true ((spares sig same).symm.trans own)
      · exact Bool.false_ne_true ((spares other found).symm.trans kills)

/-- The stop path: the two effects agree only when another pending signal ends the task. -/
theorem stop_agrees_iff (running : (kernel.tasks tid).state = .running) (bound : sig < sigMax)
    (unset : handlerOf (kernel.tasks tid) sig = 0) :
    firstEffect kernel tid frame (deliverable (markedTask (kernel.tasks tid) sig)) =
        firstEffect (kernel.setTask tid fun task => stoppedTask task sig) tid frame
          (deliverable (stoppedTask (kernel.tasks tid) sig)) ↔
      (∃ other, deliverable (markedTask (kernel.tasks tid) sig) = some other ∧ other ≠ sig ∧
          killsOnDelivery (kernel.tasks tid) other frame = true) ∨
        (deliverable (markedTask (kernel.tasks tid) sig) = some sig ∧
          hasLiveParent kernel tid = false ∧
          ∃ other, deliverable (stoppedTask (kernel.tasks tid) sig) = some other ∧
            killsOnDelivery (kernel.tasks tid) other frame = true) := by
  have own : killsOnDelivery (kernel.tasks tid) sig frame = true :=
    Bool.or_eq_true_iff.mpr (.inl (decide_eq_true unset))
  have alive : (kernel.tasks tid).state.dead = false := by
    rw [running]
    rfl
  have low : ∀ other < sigMax, 128 + other < 256 := fun other below => by
    unfold sigMax at below
    omega
  have inert : deliverable (stoppedTask (kernel.tasks tid) sig) ≠ some sig := by
    intro found
    have none : (stoppedTask (kernel.tasks tid) sig).pendingSignals &&& signalBit sig = 0 := by
      unfold stoppedTask
      ext index
      simp only [BitVec.getElem_and, BitVec.getElem_not]
      cases (kernel.tasks tid).pendingSignals[index] <;> cases (signalBit sig)[index] <;> simp
    exact (acts_iff.mp (deliverable_bound found).2.2).1 none
  rcases @firstEffect_running kernel tid frame running
    (deliverable (markedTask (kernel.tasks tid) sig)) with
    ⟨other, found, kills, exits⟩ | ⟨spares, runs⟩
  · rcases @firstEffect_stopped kernel tid sig frame alive
      (deliverable (stoppedTask (kernel.tasks tid) sig)) with
      ⟨another, next, ends, leaves⟩ | ⟨spares, stays⟩
    · rw [exits, leaves, exitEffect_inj (low other (deliverable_bound found).2.1)
        (low another (deliverable_bound next).2.1), found, next]
      by_cases apart : other = sig
      · have different : another ≠ sig := fun same => inert (same ▸ next)
        constructor
        · rintro (same | orphan)
          · exact absurd ((Nat.add_left_cancel same).symm.trans apart) different
          · exact .inr ⟨congrArg some apart, orphan, another, rfl, ends⟩
        · rintro (⟨_, same, elsewhere, _⟩ | ⟨_, orphan, _⟩)
          · exact absurd ((Option.some.inj same).symm.trans apart) elsewhere
          · exact .inr orphan
      · have same := deliverable_stopped bound apart found
        rw [next] at same
        refine iff_of_true (.inl ?_) (.inl ⟨other, rfl, apart, kills⟩)
        rw [Option.some.inj same]
    · refine iff_of_false (fun equal => ?_) ?_
      · rw [exits] at equal
        refine @exit_ne_state kernel tid _ (128 + other) ?_ equal
        rw [stays]
        rfl
      · rintro (⟨another, same, apart, _⟩ | ⟨_, _, another, next, ends⟩)
        · rw [found] at same
          obtain rfl := Option.some.inj same
          exact Bool.false_ne_true
            ((spares other (deliverable_stopped bound apart found)).symm.trans kills)
        · exact Bool.false_ne_true ((spares another next).symm.trans ends)
  · refine iff_of_false (fun equal => ?_) ?_
    · rcases @firstEffect_stopped kernel tid sig frame alive
        (deliverable (stoppedTask (kernel.tasks tid) sig)) with
        ⟨another, _, _, leaves⟩ | ⟨_, stays⟩
      · rw [leaves] at equal
        refine @exit_ne_state kernel tid _ (128 + another) ?_ equal.symm
        rw [runs]
        rfl
      · have states := congrArg Effect.state equal
        rw [runs, stays] at states
        cases states
    · rintro (⟨other, found, _, kills⟩ | ⟨found, _⟩)
      · exact Bool.false_ne_true ((spares other found).symm.trans kills)
      · exact Bool.false_ne_true ((spares sig found).symm.trans own)

end

/-- The deferred and the immediate path of a signal have the same effect on a running task
exactly when no default action tells them apart: neither a stop, which the deferred path takes
for an exit, nor an exit that another pending signal or a running handler holds up. -/
theorem signal_paths_agree_iff {kernel : Kernel} {cid tid sig : Nat} {how : MaskChange}
    {newset : BitVec 32} {frame : UserFrame} (current : kernel.currentTask cid = some tid)
    (inside : 0 < tid) (slot : tid < maxTasks) (running : (kernel.tasks tid).state = .running)
    (ring3 : frame.ring3 = true) (unblocks : Unblocks (kernel.tasks tid) sig how newset) :
    effect ((deferredPath kernel cid tid sig how newset frame).tasks tid) =
        effect ((immediatePath kernel cid tid sig how newset frame).tasks tid) ↔
      PathsAgree (sigprocmask kernel tid how newset) tid sig frame := by
  have alive : (kernel.tasks tid).state.dead = false := by
    rw [running]
    rfl
  have bound := unblocks.bound
  have own : (sigprocmask kernel tid how newset).tasks tid =
      unmaskedTask (kernel.tasks tid) how newset := sigprocmask_same
  have stillRunning : ((sigprocmask kernel tid how newset).tasks tid).state = .running := by
    rw [own]
    exact running
  have unblocked : ((sigprocmask kernel tid how newset).tasks tid).blockedSignals &&&
      signalBit sig = 0 := by
    rw [own]
    exact unblocks.unblocked
  have sent := @taskSignal_unblocked cid tid sig (sigprocmask kernel tid how newset) inside slot
    unblocks.positive bound unblocks.blockable unblocked
  rw [effect_deferredPath current inside slot alive ring3 unblocks, ← own]
  unfold PathsAgree
  dsimp only
  by_cases ignored : handlerOf ((sigprocmask kernel tid how newset).tasks tid) sig =
      sigIgnSentinel
  · rw [if_pos ignored] at sent
    rw [effect_immediatePath_inert current inside slot alive ring3 sent, ← own,
      deliverable_marked_of_inert bound unblocked (.inl ignored)]
    refine iff_of_true rfl (.inl ?_)
    rw [ignored]
    decide
  rw [if_neg ignored] at sent
  by_cases unset : handlerOf ((sigprocmask kernel tid how newset).tasks tid) sig = 0
  · rw [if_pos unset] at sent
    by_cases child : sig = sigchld
    · rw [if_pos child] at sent
      rw [effect_immediatePath_inert current inside slot alive ring3 sent, ← own,
        deliverable_marked_of_inert bound unblocked (.inr ⟨unset, child⟩)]
      exact iff_of_true rfl (.inr (.inl child))
    rw [if_neg child] at sent
    rw [or_iff_right (not_not.mpr unset), or_iff_right child]
    cases stops : stopsByDefault sig with
    | true =>
      rw [if_pos stops] at sent
      rw [effect_immediatePath_stop current inside slot ring3 sent, ← own, if_pos rfl]
      exact stop_agrees_iff stillRunning bound unset
    | false =>
      rw [if_neg (by rw [stops]; exact Bool.false_ne_true)] at sent
      rw [effect_immediatePath_exit current inside slot alive sent,
        if_neg Bool.false_ne_true]
      exact exit_agrees_iff stillRunning bound unset
  · rw [if_neg unset, postSignal_running stillRunning] at sent
    refine iff_of_true ?_ (.inl unset)
    have delivered := @effect_taskDeliverSignals ((sigprocmask kernel tid how newset).setTask tid
      fun task => markedTask task sig) cid tid current inside slot
      (by rw [setTask_same]; exact (congrArg TaskState.dead stillRunning)) frame ring3
    unfold immediatePath
    rw [sent, delivered, setTask_same, firstEffect_marked]

/-! ### A blocked SIGTSTP -/

/-- An app with SIGTSTP blocked runs on the boot core. -/
def maskedHistory : List Label :=
  [.spawn 0 (threadArgs 0x300000), .set 0 1 (.blocked (signalBit sigtstp)),
    .tick 0 0x208000 false fun _ => ⟨false, true, 0xBFFFE000⟩,
    .tick 0 0x208000 false fun _ => ⟨false, true, 0xBFFFE000⟩]

def maskedKernel : Kernel := bootRun oneCore maskedHistory

def appFrame : UserFrame := ⟨true, true, 0xBFFFE000⟩

theorem maskedKernel_unblocks :
    Unblocks (maskedKernel.tasks 1) sigtstp .setmask 0 :=
  ⟨by decide, by decide, by decide, by decide +kernel, by decide +kernel⟩

theorem signal_paths_agree_iff_tstp :
    effect ((deferredPath maskedKernel 0 1 sigtstp .setmask 0 appFrame).tasks 1) =
        effect ((immediatePath maskedKernel 0 1 sigtstp .setmask 0 appFrame).tasks 1) ↔
      PathsAgree (sigprocmask maskedKernel 1 .setmask 0) 1 sigtstp appFrame :=
  signal_paths_agree_iff (by decide +kernel) (by decide) (by decide) (by decide +kernel) rfl
    maskedKernel_unblocks

/-- A SIGTSTP that waits behind the mask kills the app. -/
theorem deferred_stop_kills :
    ¬∀ (kernel : Kernel) (cid tid sig : Nat) (how : MaskChange) (newset : BitVec 32)
      (frame : UserFrame), taskSystem.Reachable Transition.anyStep kernel →
      kernel.currentTask cid = some tid → (kernel.tasks tid).state = .running →
      frame.ring3 = true → Unblocks (kernel.tasks tid) sig how newset →
      effect ((deferredPath kernel cid tid sig how newset frame).tasks tid) =
        effect ((immediatePath kernel cid tid sig how newset frame).tasks tid) := by
  intro claimed
  have agree := claimed maskedKernel 0 1 sigtstp .setmask 0 appFrame
    (bootRun_reachable (by decide +kernel)) (by decide +kernel) (by decide +kernel) rfl
    maskedKernel_unblocks
  have dead : ((deferredPath maskedKernel 0 1 sigtstp .setmask 0 appFrame).tasks 1).state =
      .free := by decide +kernel
  have stopped : ((immediatePath maskedKernel 0 1 sigtstp .setmask 0 appFrame).tasks 1).state =
      .stopped := by decide +kernel
  generalize (deferredPath maskedKernel 0 1 sigtstp .setmask 0 appFrame).tasks 1 = killed at *
  generalize (immediatePath maskedKernel 0 1 sigtstp .setmask 0 appFrame).tasks 1 = parked at *
  have states : killed.state = parked.state := congrArg Effect.state agree
  rw [dead, stopped] at states
  cases states

end MectovOS.Sched
