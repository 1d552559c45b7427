/-
This file says what a return to Ring 3 does to a task with pending signals: the
lowest signal that acts is delivered, and the task enters a handler or exits
with a status that a live parent keeps. It also says what the end of a task
leaves in its record.
-/

import MectovOS.Task.Safety
import MectovOS.Task.View

namespace MectovOS.Sched

/-! ### The effect of a signal on its task -/

/-- What a signal may change: the state, the exit status, and the handler that runs with its
mask. -/
structure Effect where
  state : TaskState
  exitCode : Nat
  sigFrameEsp : Nat
  blockedSignals : BitVec 32

def effect (task : Task) : Effect :=
  ⟨task.state, task.exitCode, task.sigFrameEsp, task.blockedSignals⟩

/-- A parent that will learn of the exit. -/
def hasLiveParent (kernel : Kernel) (tid : Nat) : Bool :=
  let parent := (kernel.tasks tid).parent
  1 ≤ parent && parent < maxTasks && parent ≠ tid && !(kernel.tasks parent).state.dead

/-- The task exits with a status, which a live parent keeps. -/
def exitEffect (kernel : Kernel) (tid code : Nat) : Effect :=
  let task := kernel.tasks tid
  if hasLiveParent kernel tid then
    { effect task with state := .zombie, exitCode := code % 256 }
  else { effect task with state := .free }

/-- The task enters the handler of a signal. -/
def handlerEffect (task : Task) (sig : Nat) (frame : UserFrame) : Effect :=
  { effect task with
    sigFrameEsp := frame.useresp - 64
    blockedSignals := task.blockedSignals ||| maskOf task sig |||
      (if flagsOf task sig &&& saNodefer ≠ 0 then 0 else signalBit sig) }

/-- The delivery of a signal acts on the task: it is pending and not blocked, and neither
ignored nor a SIGCHLD without a handler. -/
def acts (task : Task) (sig : Nat) : Bool :=
  task.pendingSignals &&& signalBit sig ≠ 0 &&
    (task.blockedSignals &&& signalBit sig = 0 || sig = sigkill || sig = sigstop ||
      sig = sigcont) &&
    handlerOf task sig ≠ sigIgnSentinel && !(handlerOf task sig = 0 && sig = sigchld)

theorem acts_iff {task : Task} {sig : Nat} : acts task sig = true ↔
    ¬task.pendingSignals &&& signalBit sig = 0 ∧
      ¬(task.blockedSignals &&& signalBit sig ≠ 0 ∧ sig ≠ sigkill ∧ sig ≠ sigstop ∧
        sig ≠ sigcont) ∧
      ¬handlerOf task sig = sigIgnSentinel ∧ ¬(handlerOf task sig = 0 ∧ sig = sigchld) := by
  simp only [acts, Bool.and_eq_true, Bool.or_eq_true, decide_eq_true_eq, Bool.not_eq_true',
    Bool.and_eq_false_iff, decide_eq_false_iff_not, ne_eq]
  tauto

theorem acts_eq_false {task : Task} {sig : Nat} : acts task sig = false ↔
    task.pendingSignals &&& signalBit sig = 0 ∨
      (task.blockedSignals &&& signalBit sig ≠ 0 ∧ sig ≠ sigkill ∧ sig ≠ sigstop ∧
        sig ≠ sigcont) ∨
      handlerOf task sig = sigIgnSentinel ∨ (handlerOf task sig = 0 ∧ sig = sigchld) := by
  rw [← Bool.not_eq_true, acts_iff]
  tauto

/-- The delivery of the signal ends the task: there is no handler, or no stack for it. -/
def killsOnDelivery (task : Task) (sig : Nat) (frame : UserFrame) : Bool :=
  handlerOf task sig = 0 || !frame.stackValid

/-- What the delivery of a signal that acts does. -/
def deliveryEffect (kernel : Kernel) (tid sig : Nat) (frame : UserFrame) : Effect :=
  if killsOnDelivery (kernel.tasks tid) sig frame then exitEffect kernel tid (128 + sig)
  else handlerEffect (kernel.tasks tid) sig frame

/-- The signal a return to Ring 3 delivers: the lowest one that acts, unless a handler runs. -/
def deliverable (task : Task) : Option Nat :=
  if task.sigFrameEsp ≠ 0 then none else (List.range' 1 (sigMax - 1)).find? (acts task)

/-! ### Termination -/

/-- The part of a record that the end of a task reads and writes. -/
def lastWords (task : Task) : Effect × Nat := (effect task, task.parent)

theorem lastWords_home : HomeBlind lastWords := fun _ _ => rfl

theorem lastWords_cleanup : CleanupBlind lastWords := ⟨fun _ => rfl, fun _ _ => rfl⟩

theorem lastWords_state {before after : Kernel} (same : viewOf lastWords after = viewOf lastWords before)
    (tid : Nat) : (after.tasks tid).state = (before.tasks tid).state :=
  congrArg (fun words => words.1.state) (congrFun same tid)

/-- Reparenting leaves the dying task alone, and nobody else dies or comes to life by it. -/
theorem reparentChildren_spec (kernel : Kernel) (tid : Nat) :
    (reparentChildren kernel tid).tasks tid = kernel.tasks tid ∧
      ∀ other, ((reparentChildren kernel tid).tasks other).state.dead =
        (kernel.tasks other).state.dead := by
  unfold reparentChildren
  generalize (List.range maxTasks).filter (0 < ·) = children
  induction children generalizing kernel with
  | nil => exact ⟨rfl, fun _ => rfl⟩
  | cons child rest inductionHypothesis =>
    have step : (reparentChild kernel tid child).tasks tid = kernel.tasks tid ∧
        ∀ other, ((reparentChild kernel tid child).tasks other).state.dead =
          (kernel.tasks other).state.dead := by
      unfold reparentChild
      split_ifs with mine zombie
      · refine ⟨setTask_other _ _ mine.1.symm, fun other => ?_⟩
        by_cases apart : other = child
        · rw [apart, zombie]
          exact congrArg (fun task => task.state.dead) (setTask_same _ _ _)
        · exact congrArg (fun task => task.state.dead) (setTask_other _ _ apart)
      · refine ⟨setTask_other _ _ mine.1.symm, fun other => ?_⟩
        by_cases apart : other = child
        · rw [apart]
          exact congrArg (fun task => task.state.dead) (setTask_same _ _ _)
        · exact congrArg (fun task => task.state.dead) (setTask_other _ _ apart)
      · exact ⟨rfl, fun _ => rfl⟩
    obtain ⟨own, others⟩ := inductionHypothesis (reparentChild kernel tid child)
    exact ⟨own.trans step.1, fun other => (others other).trans (step.2 other)⟩

theorem hasLiveParent_congr {before after : Kernel} {tid : Nat}
    (parent : (after.tasks tid).parent = (before.tasks tid).parent)
    (lives : ∀ other, (after.tasks other).state.dead = (before.tasks other).state.dead) :
    hasLiveParent after tid = hasLiveParent before tid := by
  unfold hasLiveParent
  dsimp only
  rw [parent, lives]

theorem hasLiveParent_iff {kernel : Kernel} {tid : Nat} :
    hasLiveParent kernel tid = true ↔
      1 ≤ (kernel.tasks tid).parent ∧ (kernel.tasks tid).parent < maxTasks ∧
        (kernel.tasks tid).parent ≠ tid ∧
        (kernel.tasks (kernel.tasks tid).parent).state ≠ .free ∧
        (kernel.tasks (kernel.tasks tid).parent).state ≠ .zombie := by
  simp only [hasLiveParent, Bool.and_eq_true, decide_eq_true_eq, Bool.not_eq_true', alive_iff,
    and_assoc]
  exact and_congr_right' (and_congr_right' (and_congr_right' and_comm))

theorem effect_buryTask (kernel : Kernel) (tid code : Nat) :
    effect ((buryTask kernel tid code).tasks tid) = exitEffect kernel tid code := by
  unfold buryTask exitEffect
  dsimp only
  by_cases lives : hasLiveParent kernel tid = true
  · rw [if_pos (hasLiveParent_iff.mp lives), if_pos lives]
    have lives := hasLiveParent_iff.mp lives
    have apart : tid ≠ (kernel.tasks tid).parent := lives.2.2.1.symm
    unfold notifyParent
    dsimp only
    rw [setTask_other _ _ apart]
    generalize marked : (kernel.setTask tid fun task => { task with
      state := .zombie, exitCode := code % 256, zombieSince := kernel.ticks }) = buried
    have own : effect (buried.tasks tid) =
        { effect (kernel.tasks tid) with state := .zombie, exitCode := code % 256 } := by
      rw [← marked, setTask_same]
      rfl
    split_ifs
    · have woken := congrFun (viewOf_rqEnqueueWake lastWords_home (buried.setTask
        (kernel.tasks tid).parent fun task => { task with waiting := 0, state := .ready })
        (kernel.tasks tid).parent) tid
      refine (congrArg Prod.fst woken).trans ?_
      rw [viewOf, setTask_other _ _ apart]
      exact own
    · exact own
  · rw [if_neg fun holds => lives (hasLiveParent_iff.mpr holds), if_neg lives]
    unfold freeSlot
    rw [setTask_same]
    rfl

/-- The end of a task that is alive. -/
theorem effect_terminateTask {kernel : Kernel} (cid : Nat) {tid : Nat} (positive : 0 < tid)
    (slot : tid < maxTasks) (alive : (kernel.tasks tid).state.dead = false) (code : Nat) :
    effect ((terminateTask kernel cid tid code).tasks tid) = exitEffect kernel tid code := by
  have named : viewOf lastWords (kernel.setTask tid fun task => { task with name := [] }) =
      viewOf lastWords kernel := viewOf_unseen _ _ _ fun _ => rfl
  have cleaned := (viewOf_taskCleanup lastWords_cleanup (rqRemove
    (kernel.setTask tid fun task => { task with name := [] }) tid) cid tid).trans
    ((viewOf_rqRemove lastWords_home _ tid).trans named)
  unfold terminateTask
  rw [if_neg (not_or.mpr ⟨positive.ne', Nat.not_le_of_lt slot⟩),
    if_neg (not_or.mpr (alive_iff.mp alive).symm)]
  dsimp only
  generalize taskCleanup (rqRemove (kernel.setTask tid fun task => { task with name := [] }) tid)
    cid tid = cleanedKernel at cleaned ⊢
  rw [effect_buryTask]
  obtain ⟨own, others⟩ := reparentChildren_spec cleanedKernel tid
  have words := congrFun cleaned tid
  have lives : hasLiveParent (reparentChildren cleanedKernel tid) tid = hasLiveParent kernel tid :=
    hasLiveParent_congr ((congrArg Task.parent own).trans (congrArg Prod.snd words))
      fun other => (others other).trans (congrArg TaskState.dead (lastWords_state cleaned other))
  have effects : effect (cleanedKernel.tasks tid) = effect (kernel.tasks tid) :=
    congrArg Prod.fst words
  unfold exitEffect
  dsimp only
  rw [lives, own, effects]

/-! ### Delivery -/

/-- Whatever marks are pending, a death or a handler has the same effect. -/
theorem deliveryEffect_pending (kernel : Kernel) (tid sig : Nat) (frame : UserFrame)
    (pending : BitVec 32) :
    deliveryEffect (kernel.setTask tid fun task => { task with pendingSignals := pending }) tid sig
      frame = deliveryEffect kernel tid sig frame := by
  have lives : hasLiveParent (kernel.setTask tid fun task =>
      { task with pendingSignals := pending }) tid = hasLiveParent kernel tid := by
    refine hasLiveParent_congr (by rw [setTask_same]) fun other => ?_
    exact congrArg TaskState.dead (congrFun (viewOf_unseen kernel tid (fun task =>
      { task with pendingSignals := pending }) fun _ => rfl) other)
  unfold deliveryEffect exitEffect
  dsimp only
  rw [lives, setTask_same]
  rfl

theorem signalBit_apart {sig other : Nat} (bound : sig < sigMax) (low : other < sigMax)
    (apart : other ≠ sig) : ~~~signalBit sig &&& signalBit other = signalBit other := by
  have all : ∀ sig < sigMax, ∀ other < sigMax, other ≠ sig →
      ~~~signalBit sig &&& signalBit other = signalBit other := by decide +kernel
  exact all sig bound other low apart

theorem signalBit_ne_zero {sig : Nat} (bound : sig < sigMax) : signalBit sig ≠ 0 := by
  have all : ∀ sig < sigMax, signalBit sig ≠ 0 := by decide +kernel
  exact all sig bound

/-- Clearing the mark of one signal leaves the other signals as they were. -/
theorem acts_cleared (task : Task) {sig other : Nat} (bound : sig < sigMax) (low : other < sigMax)
    (apart : other ≠ sig) :
    acts { task with pendingSignals := task.pendingSignals &&& ~~~signalBit sig } other =
      acts task other := by
  have same : task.pendingSignals &&& ~~~signalBit sig &&& signalBit other =
      task.pendingSignals &&& signalBit other := by
    rw [BitVec.and_assoc, signalBit_apart bound low apart]
  unfold acts
  simp only [same]
  rfl

theorem find_congr {Item : Type} {first second : Item → Bool} {items : List Item}
    (same : ∀ item ∈ items, first item = second item) : items.find? first = items.find? second := by
  induction items with
  | nil => rfl
  | cons item rest inductionHypothesis =>
    rw [List.find?_cons, List.find?_cons, same item List.mem_cons_self,
      inductionHypothesis fun other member => same other (List.mem_cons_of_mem _ member)]

theorem find_weaken {Item : Type} {first second : Item → Bool} {items : List Item} {item : Item}
    (weaker : ∀ other, second other = true → first other = true)
    (found : items.find? first = some item) (kept : second item = true) :
    items.find? second = some item := by
  induction items with
  | nil => cases found
  | cons head rest inductionHypothesis =>
    rw [List.find?_cons] at found ⊢
    cases later : second head with
    | true =>
      rw [weaker head later] at found
      exact found
    | false =>
      cases sooner : first head with
      | true =>
        rw [sooner] at found
        obtain rfl := Option.some.inj found
        exact absurd (later.symm.trans kept) Bool.false_ne_true
      | false =>
        rw [sooner] at found
        exact inductionHypothesis found

/-- The effect of delivering the first signal that acts, if any does. -/
def firstEffect (kernel : Kernel) (tid : Nat) (frame : UserFrame) (found : Option Nat) : Effect :=
  match found with
  | none => effect (kernel.tasks tid)
  | some sig => deliveryEffect kernel tid sig frame

/-- The kernel once the mark of a signal is cleared. -/
def cleared (kernel : Kernel) (tid sig : Nat) : Kernel :=
  kernel.setTask tid fun task =>
    { task with pendingSignals := task.pendingSignals &&& ~~~signalBit sig }

theorem cleared_same (kernel : Kernel) (tid sig : Nat) :
    (cleared kernel tid sig).tasks tid = { kernel.tasks tid with
      pendingSignals := (kernel.tasks tid).pendingSignals &&& ~~~signalBit sig } :=
  setTask_same _ _ _

theorem firstEffect_cleared (kernel : Kernel) (tid : Nat) (frame : UserFrame) {sig fuel : Nat}
    (bound : sig + 1 + fuel ≤ sigMax) :
    firstEffect (cleared kernel tid sig) tid frame
      ((List.range' (sig + 1) fuel).find? (acts ((cleared kernel tid sig).tasks tid))) =
    firstEffect kernel tid frame
      ((List.range' (sig + 1) fuel).find? (acts (kernel.tasks tid))) := by
  have same : (List.range' (sig + 1) fuel).find? (acts ((cleared kernel tid sig).tasks tid)) =
      (List.range' (sig + 1) fuel).find? (acts (kernel.tasks tid)) := by
    rw [cleared_same]
    refine find_congr fun other member => acts_cleared _ ?_ ?_ ?_
    all_goals
      have range := List.mem_range'_1.mp member
      omega
  rw [same]
  cases (List.range' (sig + 1) fuel).find? (acts (kernel.tasks tid)) with
  | none =>
    unfold firstEffect
    rw [cleared_same]
    rfl
  | some other => exact deliveryEffect_pending kernel tid other frame _

/-- The scan delivers the lowest signal that acts. -/
theorem effect_deliverScan (cid : Nat) {tid : Nat} (positive : 0 < tid) (slot : tid < maxTasks)
    (frame : UserFrame) (fuel sig : Nat) (bound : sig + fuel ≤ sigMax) (kernel : Kernel)
    (alive : (kernel.tasks tid).state.dead = false) :
    effect ((deliverScan cid tid frame fuel sig kernel).1.tasks tid) =
      firstEffect kernel tid frame ((List.range' sig fuel).find? (acts (kernel.tasks tid))) := by
  induction fuel generalizing sig kernel with
  | zero => rfl
  | succ fuel inductionHypothesis =>
    have later : sig + 1 + fuel ≤ sigMax := by omega
    have stillAlive : ((cleared kernel tid sig).tasks tid).state.dead = false := by
      rw [cleared_same]
      exact alive
    have skipped := (inductionHypothesis (sig + 1) later _ stillAlive).trans
      (firstEffect_cleared kernel tid frame later)
    have same := deliveryEffect_pending kernel tid sig frame
      ((kernel.tasks tid).pendingSignals &&& ~~~signalBit sig)
    have dies := effect_terminateTask cid positive slot stillAlive (128 + sig)
    rw [List.range'_succ, List.find?_cons]
    unfold deliverScan
    dsimp only
    split_ifs with absent blocked ignored unset child stack
    · rw [acts_eq_false.mpr (.inl absent)]
      exact inductionHypothesis (sig + 1) later kernel alive
    · rw [acts_eq_false.mpr (.inr (.inl blocked))]
      exact inductionHypothesis (sig + 1) later kernel alive
    · rw [acts_eq_false.mpr (.inr (.inr (.inl ignored)))]
      exact skipped
    · rw [acts_eq_false.mpr (.inr (.inr (.inr ⟨unset, child⟩)))]
      exact skipped
    · rw [acts_iff.mpr ⟨absent, blocked, ignored, fun both => child both.2⟩]
      refine dies.trans (Eq.trans ?_ same)
      unfold deliveryEffect
      have kills : killsOnDelivery ((cleared kernel tid sig).tasks tid) sig frame = true := by
        rw [cleared_same]
        exact Bool.or_eq_true_iff.mpr (.inl (decide_eq_true unset))
      exact (if_pos kills).symm
    · rw [acts_iff.mpr ⟨absent, blocked, ignored, fun both => unset both.1⟩]
      refine Eq.trans ?_ same
      unfold deliveryEffect
      have survives : ¬killsOnDelivery ((cleared kernel tid sig).tasks tid) sig frame = true := by
        rw [cleared_same]
        simp only [killsOnDelivery, stack, Bool.not_true, Bool.or_false, decide_eq_true_eq]
        exact unset
      refine Eq.trans ?_ (if_neg survives).symm
      unfold enterHandler
      rw [setTask_same]
      rfl
    · rw [acts_iff.mpr ⟨absent, blocked, ignored, fun both => unset both.1⟩]
      refine dies.trans (Eq.trans ?_ same)
      unfold deliveryEffect
      have kills : killsOnDelivery ((cleared kernel tid sig).tasks tid) sig frame = true := by
        simp only [killsOnDelivery, stack, Bool.not_false, Bool.or_true]
      exact (if_pos kills).symm

theorem effect_taskDeliverSignals {kernel : Kernel} {cid tid : Nat}
    (current : kernel.currentTask cid = some tid) (positive : 0 < tid) (slot : tid < maxTasks)
    (alive : (kernel.tasks tid).state.dead = false) {frame : UserFrame}
    (ring3 : frame.ring3 = true) :
    effect ((taskDeliverSignals kernel cid frame).1.tasks tid) =
      firstEffect kernel tid frame (deliverable (kernel.tasks tid)) := by
  unfold taskDeliverSignals
  rw [current]
  dsimp only
  unfold deliverable
  by_cases inside : (kernel.tasks tid).sigFrameEsp ≠ 0
  · rw [if_pos inside]
    split_ifs
    · rfl
    · rename_i allowed
      exact absurd (.inr (.inr (.inr (.inr (.inr inside))))) allowed
  · rw [if_neg inside]
    split_ifs with refused
    · have none : (kernel.tasks tid).pendingSignals = 0 := by
        rcases refused with kernelFrame | zero | outside | dead | none | handler
        · exact absurd (kernelFrame.symm.trans ring3) Bool.false_ne_true
        · exact absurd zero positive.ne'
        · exact absurd slot (Nat.not_lt_of_le outside)
        · exact absurd (alive.symm.trans dead) Bool.false_ne_true
        · exact none
        · exact absurd handler inside
      have nothing : (List.range' 1 (sigMax - 1)).find? (acts (kernel.tasks tid)) = Option.none := by
        refine List.find?_eq_none.mpr fun sig _ => ?_
        rw [Bool.not_eq_true, acts_eq_false, none]
        exact .inl (BitVec.zero_and)
      rw [nothing]
      rfl
    · exact effect_deliverScan cid positive slot frame (sigMax - 1) 1 (by decide) kernel alive

end MectovOS.Sched
