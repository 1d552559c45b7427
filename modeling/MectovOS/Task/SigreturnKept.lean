/-
This file shows when the delivery of a signal followed by SYS_SIGRETURN is the
identity on the interrupted context, whatever the handler does besides leaving
its frame alone: the saved selectors are those of user mode, the saved flags
have none of the bits that SYS_SIGRETURN clears, and a sleep that goes on was
interrupted with 0 in EAX. It also shows that a task has one sigframe at a time.
-/

import MectovOS.Task.Fixed
import MectovOS.Task.Sigframe

namespace MectovOS.Sched

open ByteMemory MectovOS.Vmm

/-! ### The frame on the stack -/

/-- The call of the handler lies below the frame and leaves it readable. -/
theorem load_pushFrame (memory : Bytes) (task : Task) (sig : Nat) {regs : Registers}
    (high : 128 < regs.useresp.toNat) :
    Sigframe.load (pushFrame memory task sig regs) (regs.useresp.toNat - sizeofSigframe) =
      buildSigframe task sig regs := by
  have esp : (regs.useresp - BitVec.ofNat 32 sizeofSigframe).toNat =
      regs.useresp.toNat - sizeofSigframe := sub_toNat_of_lt (by decide) high
  have call : (regs.useresp - BitVec.ofNat 32 (sizeofSigframe + 8)).toNat =
      regs.useresp.toNat - (sizeofSigframe + 8) := sub_toNat_of_lt (by decide) high
  have size : sizeofSigframe = 64 := rfl
  unfold pushFrame
  rw [esp, call]
  refine Eq.trans (Sigframe.load_congr fun index low _ => storeWords_other _ _ _ (Or.inr ?_))
    (Sigframe.load_store _ _ _)
  rw [List.length_cons, List.length_cons, List.length_nil]
  omega

/-! ### What the delivery leaves -/

/-- The scan enters the handler of the lowest signal that acts. -/
theorem deliverContextScan_handler (cid : Nat) {tid sig : Nat} (taskDeadPark : Word)
    {pagesOk : Bool} (first fuel : Nat) (bound : first + fuel ≤ sigMax) (context : UserContext)
    (stack : (savedFrame context.regs pagesOk).stackValid = true)
    (found : (List.range' first fuel).find? (acts (context.kernel.tasks tid)) = some sig)
    (handler : handlerOf (context.kernel.tasks tid) sig ≠ 0) :
    let after := (deliverContextScan cid tid taskDeadPark pagesOk fuel first context).1
    after.regs = handlerRegs (context.kernel.tasks tid) sig context.regs ∧
      after.memory = pushFrame context.memory (context.kernel.tasks tid) sig context.regs ∧
      after.frames = (context.regs.useresp - BitVec.ofNat 32 sizeofSigframe).toNat ::
        context.frames := by
  induction fuel generalizing first context with
  | zero => cases found
  | succ fuel inductionHypothesis =>
    have later : first + 1 + fuel ≤ sigMax := by omega
    have skipped : (List.range' (first + 1) fuel).find? (acts (context.kernel.tasks tid)) =
        some sig → _ := fun laterFound => inductionHypothesis (first + 1) later
          { context with kernel := cleared context.kernel tid first } stack (by
            dsimp only
            rw [cleared_same, ← laterFound]
            refine find_congr fun other member => acts_cleared _ ?_ ?_ ?_
            all_goals
              have range := List.mem_range'_1.mp member
              omega) (by
            dsimp only
            rw [cleared_same]
            exact handler)
    rw [List.range'_succ, List.find?_cons] at found
    unfold deliverContextScan
    dsimp only at skipped ⊢
    rw [cleared_same] at skipped
    split_ifs with absent blocked ignored unset child
    · rw [acts_eq_false.mpr (.inl absent)] at found
      exact inductionHypothesis (first + 1) later context stack found handler
    · rw [acts_eq_false.mpr (.inr (.inl blocked))] at found
      exact inductionHypothesis (first + 1) later context stack found handler
    · rw [acts_eq_false.mpr (.inr (.inr (.inl ignored)))] at found
      exact skipped found
    · rw [acts_eq_false.mpr (.inr (.inr (.inr ⟨unset, child⟩)))] at found
      exact skipped found
    · rw [acts_iff.mpr ⟨absent, blocked, ignored, fun both => child both.2⟩] at found
      obtain rfl := Option.some.inj found
      exact absurd unset handler
    · rw [acts_iff.mpr ⟨absent, blocked, ignored, fun both => unset both.1⟩] at found
      obtain rfl := Option.some.inj found
      unfold runHandler
      dsimp only
      rw [cleared_same]
      exact ⟨rfl, rfl, rfl⟩

/-! ### An interrupted task -/

/-- A task about to return to user mode with a signal for one of its handlers, and with a
stack that can be written. -/
structure Interrupted (context : UserContext) (cid tid sig : Nat) (pagesOk : Bool) : Prop where
  current : context.kernel.currentTask cid = some tid
  positive : 0 < tid
  slot : tid < maxTasks
  alive : (context.kernel.tasks tid).state.dead = false
  frame : (savedFrame context.regs pagesOk).ring3 = true
  stack : (savedFrame context.regs pagesOk).stackValid = true
  next : deliverable (context.kernel.tasks tid) = some sig
  handler : handlerOf (context.kernel.tasks tid) sig ≠ 0

namespace Interrupted

variable {context : UserContext} {cid tid sig : Nat} {pagesOk : Bool}

theorem found (interrupted : Interrupted context cid tid sig pagesOk) :
    (context.kernel.tasks tid).sigFrameEsp = 0 ∧
      (List.range' 1 (sigMax - 1)).find? (acts (context.kernel.tasks tid)) = some sig := by
  have next := interrupted.next
  unfold deliverable at next
  split_ifs at next with outstanding
  exact ⟨not_not.mp outstanding, next⟩

theorem high (interrupted : Interrupted context cid tid sig pagesOk) :
    128 < context.regs.useresp.toNat :=
  useresp_of_userRange (Bool.and_eq_true_iff.mp interrupted.stack).1

theorem pending (interrupted : Interrupted context cid tid sig pagesOk) :
    (context.kernel.tasks tid).pendingSignals ≠ 0 := by
  intro none
  have acting := List.find?_some interrupted.found.2
  have absent := (acts_iff.mp acting).1
  rw [none] at absent
  exact absent BitVec.zero_and

/-- The delivery runs the loop. -/
theorem delivers (interrupted : Interrupted context cid tid sig pagesOk) (taskDeadPark : Word) :
    deliverContext cid taskDeadPark pagesOk context =
      deliverContextScan cid tid taskDeadPark pagesOk (sigMax - 1) 1 context := by
  unfold deliverContext
  rw [interrupted.current]
  dsimp only
  refine if_neg ?_
  rintro (kernelFrame | zero | outside | dead | none | outstanding)
  · exact absurd (kernelFrame.symm.trans interrupted.frame) Bool.false_ne_true
  · exact absurd zero interrupted.positive.ne'
  · exact absurd interrupted.slot (Nat.not_lt_of_le outside)
  · exact absurd (interrupted.alive.symm.trans dead) Bool.false_ne_true
  · exact interrupted.pending none
  · exact outstanding interrupted.found.1

theorem pushed (interrupted : Interrupted context cid tid sig pagesOk) (taskDeadPark : Word) :
    let after := (deliverContext cid taskDeadPark pagesOk context).1
    after.regs = handlerRegs (context.kernel.tasks tid) sig context.regs ∧
      after.memory = pushFrame context.memory (context.kernel.tasks tid) sig context.regs ∧
      after.frames = (context.regs.useresp - BitVec.ofNat 32 sizeofSigframe).toNat ::
        context.frames := by
  rw [interrupted.delivers]
  exact deliverContextScan_handler cid taskDeadPark 1 (sigMax - 1) (by decide) context
    interrupted.stack interrupted.found.2 interrupted.handler

/-- The task while its handler runs: alive, with the frame below its stack and the mask of
the signal. -/
theorem runs (interrupted : Interrupted context cid tid sig pagesOk) (taskDeadPark : Word) :
    effect ((deliverContext cid taskDeadPark pagesOk context).1.kernel.tasks tid) =
      handlerEffect (context.kernel.tasks tid) sig (savedFrame context.regs pagesOk) := by
  have kernel : (deliverContext cid taskDeadPark pagesOk context).1.kernel =
      (taskDeliverSignals context.kernel cid (savedFrame context.regs pagesOk)).1 :=
    congrArg Prod.fst (deliverContext_kernel cid taskDeadPark pagesOk context)
  rw [kernel, effect_taskDeliverSignals interrupted.current interrupted.positive interrupted.slot
    interrupted.alive interrupted.frame, interrupted.next]
  show deliveryEffect _ _ _ _ = _
  unfold deliveryEffect killsOnDelivery
  rw [interrupted.stack, decide_eq_false interrupted.handler]
  rfl

end Interrupted

/-! ### The return -/

/-- The handler calls SYS_SIGRETURN with its frame as it was pushed. -/
structure Untouched (running back : UserContext) (cid tid : Nat) : Prop where
  current : back.kernel.currentTask cid = some tid
  frameEsp : (back.kernel.tasks tid).sigFrameEsp = (running.kernel.tasks tid).sigFrameEsp
  memory : ∀ address, (running.kernel.tasks tid).sigFrameEsp ≤ address →
    address < (running.kernel.tasks tid).sigFrameEsp + sizeofSigframe →
    back.memory address = running.memory address

/-- The context of the task is the interrupted one, with interrupts on. -/
structure Restored (before after : UserContext) (tid : Nat) : Prop where
  eax : after.regs.eax = before.regs.eax
  ecx : after.regs.ecx = before.regs.ecx
  edx : after.regs.edx = before.regs.edx
  ebx : after.regs.ebx = before.regs.ebx
  esi : after.regs.esi = before.regs.esi
  edi : after.regs.edi = before.regs.edi
  ebp : after.regs.ebp = before.regs.ebp
  eip : after.regs.eip = before.regs.eip
  useresp : after.regs.useresp = before.regs.useresp
  cs : after.regs.cs = before.regs.cs
  ss : after.regs.ss = before.regs.ss
  eflags : after.regs.eflags = before.regs.eflags ||| eflagsIf
  blocked : (after.kernel.tasks tid).blockedSignals = (before.kernel.tasks tid).blockedSignals

/-- The condition under which the interrupted context comes back. -/
structure Returnable (task : Task) (sig : Nat) (regs : Registers) : Prop where
  cs : regs.cs = userCs
  ss : regs.ss = userSs
  eflags : regs.eflags &&& clearedFlags = 0
  eax : (buildSigframe task sig regs).resumesSleep = true → regs.eax = 0

theorem userRange_frame {useresp : Nat} (high : 128 < useresp) (bound : useresp < 2 ^ 32) :
    userRange (useresp - sizeofSigframe) sizeofSigframe = true := by
  have size : sizeofSigframe = 64 := rfl
  have max : userPtrMaxSize = 0x1000000 := rfl
  rw [userRange, add32, Bool.and_eq_true, Bool.and_eq_true, decide_eq_true_eq,
    decide_eq_true_eq, decide_eq_true_eq]
  omega

/-- SYS_SIGRETURN finds the frame that the delivery pushed. -/
theorem acceptedFrame_untouched {context back : UserContext} {cid home tid sig : Nat}
    {pagesOk : Bool} {taskDeadPark : Word}
    (interrupted : Interrupted context cid tid sig pagesOk)
    (untouched : Untouched (deliverContext cid taskDeadPark pagesOk context).1 back home tid) :
    acceptedFrame home true back =
      if context.regs.cs ≠ userCs ∨ context.regs.ss ≠ userSs then none
      else some (buildSigframe (context.kernel.tasks tid) sig context.regs) := by
  have size : sizeofSigframe = 64 := rfl
  have high := interrupted.high
  have esp : ((deliverContext cid taskDeadPark pagesOk context).1.kernel.tasks tid).sigFrameEsp =
      context.regs.useresp.toNat - sizeofSigframe :=
    congrArg Effect.sigFrameEsp (interrupted.runs taskDeadPark)
  have found : sigFrameOf back.kernel home = context.regs.useresp.toNat - sizeofSigframe := by
    unfold sigFrameOf
    rw [untouched.current]
    dsimp only
    rw [if_neg (Nat.not_le_of_lt interrupted.slot), untouched.frameEsp, esp]
  have loaded : Sigframe.load back.memory (context.regs.useresp.toNat - sizeofSigframe) =
      buildSigframe (context.kernel.tasks tid) sig context.regs := by
    rw [← load_pushFrame context.memory (context.kernel.tasks tid) sig high,
      ← (interrupted.pushed taskDeadPark).2.1]
    exact Sigframe.load_congr fun index low bound =>
      untouched.memory index (esp.symm ▸ low) (esp.symm ▸ bound)
  have accepted : ¬(context.regs.useresp.toNat - sizeofSigframe = 0 ∨
      ¬(userRange (context.regs.useresp.toNat - sizeofSigframe) sizeofSigframe && true) =
        true) := by
    rw [userRange_frame high context.regs.useresp.isLt]
    rintro (zero | refused)
    · omega
    · exact refused rfl
  unfold acceptedFrame
  dsimp only
  rw [found, loaded, if_neg accepted]
  rfl

/-! ### The mask -/

theorem blockedSignals_taskSleep (kernel : Kernel) (cid : Nat) (ticks : Int) :
    viewOf Task.blockedSignals (taskSleep kernel cid ticks) =
      viewOf Task.blockedSignals kernel := by
  unfold taskSleep
  split
  · rfl
  · split_ifs
    · rfl
    · exact (viewOf_rqRemove (fun _ _ => rfl) _ _).trans (viewOf_unseen _ _ _ fun _ => rfl)

theorem setCurrent_eq {kernel : Kernel} {cid tid : Nat} (value : Attribute)
    (current : kernel.currentTask cid = some tid) (slot : tid < maxTasks) :
    setCurrent kernel cid value = kernel.setTask tid fun task => value.apply task := by
  unfold setCurrent setAttribute
  rw [current]
  exact if_neg (Nat.not_le_of_lt slot)

/-- SYS_SIGRETURN puts the saved mask back, also when a sleep goes on. -/
theorem blockedSignals_sysSigreturn {context : UserContext} {cid tid : Nat} {pagesOk : Bool}
    {frame : Sigframe} (current : context.kernel.currentTask cid = some tid)
    (slot : tid < maxTasks) (accepted : acceptedFrame cid pagesOk context = some frame) :
    ((sysSigreturn cid pagesOk context).kernel.tasks tid).blockedSignals =
      frame.savedBlocked := by
  have masked : ((setCurrent (setCurrent context.kernel cid (.blocked frame.savedBlocked)) cid
      (.sigFrameEsp 0)).tasks tid).blockedSignals = frame.savedBlocked := by
    have still : (setCurrent context.kernel cid (.blocked frame.savedBlocked)).currentTask cid =
        some tid := by
      rw [setCurrent_eq _ current slot]
      exact current
    rw [setCurrent_eq _ still slot, setTask_same, setCurrent_eq _ current slot, setTask_same]
    rfl
  unfold sysSigreturn
  rw [accepted]
  dsimp only
  split_ifs
  · exact (congrFun (blockedSignals_taskSleep _ cid _) tid).trans masked
  · exact masked

/-! ### The identity -/

/-- The flags come back, with interrupts on, exactly when none of them is cleared. -/
theorem safeEflags_iff (flags cleared set : Word) (apart : set &&& cleared = 0) :
    flags &&& ~~~cleared ||| set = flags ||| set ↔ flags &&& cleared = 0 := by
  constructor
  · intro same
    have masked := congrArg (· &&& cleared) same
    rw [and_or_distrib, BitVec.and_or_distrib_right, apart, BitVec.not_and_self] at masked
    exact (BitVec.or_zero.symm.trans masked.symm).trans
      ((congrArg (· ||| 0) BitVec.and_zero).trans BitVec.or_zero)
  · intro clear
    have kept : flags &&& ~~~cleared = flags := by
      have split : flags &&& ~~~cleared ||| flags &&& cleared = flags := by
        rw [← BitVec.and_or_distrib_left]
        ext index
        simp only [BitVec.getElem_and, BitVec.getElem_or, BitVec.getElem_not]
        cases flags[index] <;> cases cleared[index] <;> rfl
      rw [clear] at split
      exact BitVec.or_zero.symm.trans split
    rw [kept]

theorem safeEflags_built (task : Task) (sig : Nat) (regs : Registers) :
    safeEflags (buildSigframe task sig regs) = regs.eflags ||| eflagsIf ↔
      regs.eflags &&& clearedFlags = 0 :=
  safeEflags_iff regs.eflags clearedFlags eflagsIf (by decide)

/-- A return from the frame of the delivery restores the context exactly when the condition
holds. -/
theorem restored_iff {context back : UserContext} {cid home tid sig : Nat} {pagesOk : Bool}
    {taskDeadPark : Word} (interrupted : Interrupted context cid tid sig pagesOk)
    (untouched : Untouched (deliverContext cid taskDeadPark pagesOk context).1 back home tid)
    (selectors : ¬(context.regs.cs ≠ userCs ∨ context.regs.ss ≠ userSs)) :
    Restored context (sysSigreturn home true back) tid ↔
      Returnable (context.kernel.tasks tid) sig context.regs := by
  have accepted := acceptedFrame_untouched interrupted untouched
  rw [if_neg selectors] at accepted
  have blocked := blockedSignals_sysSigreturn untouched.current interrupted.slot accepted
  have regs : (sysSigreturn home true back).regs = restoreRegs back.regs
      (buildSigframe (context.kernel.tasks tid) sig context.regs) := by
    unfold sysSigreturn
    rw [accepted]
  have users := not_or.mp selectors
  constructor
  · intro restored
    refine ⟨not_not.mp users.1, not_not.mp users.2, ?_, fun resumes => ?_⟩
    · have eflags := restored.eflags
      rw [regs] at eflags
      exact (safeEflags_built _ _ _).mp eflags
    · have eax := restored.eax
      rw [regs] at eax
      exact eax.symm.trans (if_pos resumes)
  · intro returnable
    have eflags := (safeEflags_built (context.kernel.tasks tid) sig context.regs).mpr
      returnable.eflags
    constructor
    · rw [regs]
      by_cases resumes :
          (buildSigframe (context.kernel.tasks tid) sig context.regs).resumesSleep = true
      · exact (if_pos resumes).trans (returnable.eax resumes).symm
      · exact if_neg resumes
    all_goals first | exact blocked | rw [regs]
    all_goals first | rfl | exact eflags

/-! ### One frame at a time -/

/-- A step in the life of a task. Its frame is only touched by the delivery of a signal, by
SYS_SIGRETURN, and by SYS_EXEC or a new task in the slot, which forget the old stack. -/
inductive FrameStep (tid : Nat) (taskDeadPark : Word) : UserContext → UserContext → Prop
  | deliver {cid : Nat} {pagesOk : Bool} {context : UserContext} :
    context.kernel.currentTask cid = some tid →
    FrameStep tid taskDeadPark context (deliverContext cid taskDeadPark pagesOk context).1
  | sigreturn {cid : Nat} {pagesOk : Bool} {context : UserContext} :
    context.kernel.currentTask cid = some tid →
    FrameStep tid taskDeadPark context (sysSigreturn cid pagesOk context)
  | other {context after : UserContext} :
    (after.kernel.tasks tid).sigFrameEsp = (context.kernel.tasks tid).sigFrameEsp →
    after.frames = context.frames → FrameStep tid taskDeadPark context after
  | renew {context after : UserContext} :
    (after.kernel.tasks tid).sigFrameEsp = 0 → after.frames = [] →
    FrameStep tid taskDeadPark context after

/-- A task has one frame outstanding at most, and none when its slot names none. -/
structure OneFrame (tid : Nat) (context : UserContext) : Prop where
  one : context.frames.length ≤ 1
  named : (context.kernel.tasks tid).sigFrameEsp = 0 → context.frames = []

/-- The scan pushes one frame at most, and names the frame it pushed. -/
theorem deliverContextScan_frames (cid tid : Nat) (taskDeadPark : Word) (pagesOk : Bool)
    (fuel sig : Nat) (context : UserContext) :
    let after := (deliverContextScan cid tid taskDeadPark pagesOk fuel sig context).1
    after.frames = context.frames ∨
      (after.kernel.tasks tid).sigFrameEsp ≠ 0 ∧ ∃ esp, after.frames = esp :: context.frames := by
  induction fuel generalizing sig context with
  | zero => exact Or.inl rfl
  | succ fuel inductionHypothesis =>
    have skipped := inductionHypothesis (sig + 1)
      { context with kernel := cleared context.kernel tid sig }
    unfold deliverContextScan
    dsimp only at skipped ⊢
    split_ifs with absent blocked ignored unset child stack
    · exact inductionHypothesis (sig + 1) context
    · exact inductionHypothesis (sig + 1) context
    · exact skipped
    · exact skipped
    · exact Or.inl rfl
    · refine Or.inr ⟨?_, _, rfl⟩
      have high := useresp_of_userRange (Bool.and_eq_true_iff.mp stack).1
      unfold runHandler enterHandler
      rw [setTask_same]
      show context.regs.useresp.toNat - 64 ≠ 0
      omega
    · exact Or.inl rfl

namespace OneFrame

variable {tid : Nat} {taskDeadPark : Word} {context after : UserContext}

theorem deliver (one : OneFrame tid context) (cid : Nat) (taskDeadPark : Word) (pagesOk : Bool)
    (current : context.kernel.currentTask cid = some tid) :
    OneFrame tid (deliverContext cid taskDeadPark pagesOk context).1 := by
  unfold deliverContext
  rw [current]
  dsimp only
  split_ifs with refused
  · exact one
  · have none : context.frames = [] := by
      refine one.named (not_not.mp fun outstanding => refused ?_)
      exact Or.inr (Or.inr (Or.inr (Or.inr (Or.inr outstanding))))
    rcases deliverContextScan_frames cid tid taskDeadPark pagesOk (sigMax - 1) 1 context with
      same | ⟨named, esp, pushed⟩
    · rw [none] at same
      exact ⟨by rw [same]; exact Nat.zero_le 1, fun _ => same⟩
    · rw [none] at pushed
      exact ⟨by rw [pushed]; exact le_refl 1, fun zero => absurd zero named⟩

theorem step (one : OneFrame tid context) (stepped : FrameStep tid taskDeadPark context after) :
    OneFrame tid after := by
  cases stepped with
  | deliver current => exact one.deliver _ _ _ current
  | @sigreturn cid pagesOk _ current =>
    have dropped : (sysSigreturn cid pagesOk context).frames = context.frames.tail := by
      unfold sysSigreturn
      split <;> rfl
    have gone : context.frames.tail = [] := by
      refine List.eq_nil_of_length_eq_zero ?_
      rw [List.length_tail]
      exact Nat.sub_eq_zero_of_le one.one
    rw [gone] at dropped
    exact ⟨by rw [dropped]; exact Nat.zero_le 1, fun _ => dropped⟩
  | other same frames => exact ⟨frames ▸ one.one, fun zero => frames.trans (one.named (same ▸ zero))⟩
  | renew zero frames => exact ⟨by rw [frames]; exact Nat.zero_le 1, fun _ => frames⟩

theorem run (one : OneFrame tid context)
    (steps : Relation.ReflTransGen (FrameStep tid taskDeadPark) context after) :
    OneFrame tid after := by
  induction steps with
  | refl => exact one
  | tail _ last inductionHypothesis => exact inductionHypothesis.step last

end OneFrame

/-! ### Delivery and return -/

/-- A handler that returns at once, with one register changed. -/
def meddled (running : UserContext) (regs : Registers) : UserContext :=
  { running with regs := { running.regs with ebx := regs.ebx + 1 } }

theorem currentTask_deliverContext {context : UserContext} {cid tid sig : Nat} {pagesOk : Bool}
    (interrupted : Interrupted context cid tid sig pagesOk) (taskDeadPark : Word) :
    (deliverContext cid taskDeadPark pagesOk context).1.kernel.currentTask cid = some tid := by
  have kernel : (deliverContext cid taskDeadPark pagesOk context).1.kernel =
      (taskDeliverSignals context.kernel cid (savedFrame context.regs pagesOk)).1 :=
    congrArg Prod.fst (deliverContext_kernel cid taskDeadPark pagesOk context)
  rw [kernel, (fixed_iff.mp (fixed_taskDeliverSignals _ _ _)).1]
  exact interrupted.current

/-- While the handler runs, the mask is the old one with the mask of the handler and the signal
itself, and the task has one frame at a time from then on. Whatever the handler does besides,
SYS_SIGRETURN restores the interrupted context exactly when it is returnable. -/
theorem sigreturn_identity_iff {context : UserContext} {cid tid sig : Nat} {pagesOk : Bool}
    (taskDeadPark : Word) (interrupted : Interrupted context cid tid sig pagesOk)
    (fresh : context.frames = []) :
    ((deliverContext cid taskDeadPark pagesOk context).1.kernel.tasks tid).blockedSignals =
        (context.kernel.tasks tid).blockedSignals ||| maskOf (context.kernel.tasks tid) sig |||
          (if flagsOf (context.kernel.tasks tid) sig &&& saNodefer ≠ 0 then 0
            else signalBit sig) ∧
      (∀ after, Relation.ReflTransGen (FrameStep tid taskDeadPark) context after →
        after.frames.length ≤ 1) ∧
      ((∀ home back, Untouched (deliverContext cid taskDeadPark pagesOk context).1 back home tid →
          Restored context (sysSigreturn home true back) tid) ↔
        Returnable (context.kernel.tasks tid) sig context.regs) := by
  have blank : OneFrame tid context := ⟨by rw [fresh]; exact Nat.zero_le 1, fun _ => fresh⟩
  refine ⟨congrArg Effect.blockedSignals (interrupted.runs taskDeadPark),
    fun after steps => (blank.run steps).one, fun restores => ?_, fun returnable home back
      untouched => ?_⟩
  · have current := currentTask_deliverContext interrupted taskDeadPark
    have untouched : Untouched (deliverContext cid taskDeadPark pagesOk context).1
        (meddled (deliverContext cid taskDeadPark pagesOk context).1 context.regs) cid tid :=
      ⟨current, rfl, fun _ _ _ => rfl⟩
    have restored := restores cid _ untouched
    by_cases selectors : context.regs.cs ≠ userCs ∨ context.regs.ss ≠ userSs
    · have refused := acceptedFrame_untouched interrupted untouched
      rw [if_pos selectors] at refused
      have ebx := restored.ebx
      unfold sysSigreturn at ebx
      rw [refused] at ebx
      have moved : context.regs.ebx + 1 = context.regs.ebx := ebx
      exact absurd (BitVec.add_right_eq_self.mp moved) (by decide)
    · exact (restored_iff interrupted untouched selectors).mp restored
  · refine (restored_iff interrupted untouched ?_).mpr returnable
    rintro (code | stack)
    · exact code returnable.cs
    · exact stack returnable.ss

/-! ### A program with alignment checks -/

/-- The app is about to return to user mode with signal 10 pending. -/
def pendingHistory : List Label :=
  [.spawn 0 (threadArgs 0x300000), .set 0 1 (.sigaction 10 0x08048000 0 0),
    .tick 0 0x208000 false fun _ => ⟨false, true, 0x1EFE8000⟩,
    .tick 0 0x208000 false fun _ => ⟨false, true, 0x1EFE8000⟩, .signal 0 1 10]

def pendingKernel : Kernel := bootRun oneCore pendingHistory

theorem pendingKernel_reachable : taskSystem.Reachable Transition.anyStep pendingKernel :=
  bootRun_reachable (by decide +kernel)

/-- The app with some flags. -/
def flaggedContext (kernel : Kernel) (eflags : Word) : UserContext where
  kernel := kernel
  regs := { userRegs with eflags := eflags, useresp := 0x1EFE8000 }
  memory := fun _ => 0
  frames := []

theorem flaggedContext_kernel (kernel : Kernel) (eflags : Word) :
    (flaggedContext kernel eflags).kernel = kernel := rfl

theorem flaggedContext_frames (kernel : Kernel) (eflags : Word) :
    (flaggedContext kernel eflags).frames = [] := rfl

theorem Interrupted.flagged {kernel : Kernel} (current : kernel.currentTask 0 = some 1)
    (alive : (kernel.tasks 1).state.dead = false)
    (next : deliverable (kernel.tasks 1) = some 10)
    (handler : handlerOf (kernel.tasks 1) 10 ≠ 0) (eflags : Word) :
    Interrupted (flaggedContext kernel eflags) 0 1 10 true := by
  refine ⟨current, by decide, by decide, alive, ?_, ?_, next, handler⟩
  · exact decide_eq_true (show userRegs.cs &&& 3 = 3 by decide)
  · dsimp only [savedFrame, flaggedContext]
    decide

theorem pendingKernel_interrupted (eflags : Word) :
    Interrupted (flaggedContext pendingKernel eflags) 0 1 10 true :=
  Interrupted.flagged (by decide +kernel) (by decide +kernel) (by decide +kernel)
    (by decide +kernel) eflags

theorem sigreturn_identity_plain :
    (∀ home back,
        Untouched (deliverContext 0 0x105000 true (flaggedContext pendingKernel 0x202)).1 back
          home 1 →
        Restored (flaggedContext pendingKernel 0x202) (sysSigreturn home true back) 1) ↔
      Returnable ((flaggedContext pendingKernel 0x202).kernel.tasks 1) 10
        (flaggedContext pendingKernel 0x202).regs :=
  (sigreturn_identity_iff 0x105000 (pendingKernel_interrupted 0x202)
    (flaggedContext_frames _ _)).2.2

theorem not_returnable_ac (kernel : Kernel) (task : Task) (sig : Nat) :
    ¬Returnable task sig (flaggedContext kernel 0x40202).regs :=
  fun returnable => absurd returnable.eflags
    (show ¬(0x40202 : Word) &&& clearedFlags = 0 by decide)

/-- AC is lost by the delivery of a signal. -/
theorem sigreturn_loses_ac :
    ¬∀ (context : UserContext) (cid tid sig : Nat) (pagesOk : Bool) (taskDeadPark : Word),
      taskSystem.Reachable Transition.anyStep context.kernel →
      Interrupted context cid tid sig pagesOk → context.frames = [] → ∀ home back,
        Untouched (deliverContext cid taskDeadPark pagesOk context).1 back home tid →
        Restored context (sysSigreturn home true back) tid := by
  intro claimed
  have interrupted := pendingKernel_interrupted 0x40202
  have reachable : taskSystem.Reachable Transition.anyStep
      (flaggedContext pendingKernel 0x40202).kernel := by
    rw [flaggedContext_kernel]
    exact pendingKernel_reachable
  have lost := not_returnable_ac pendingKernel
    ((flaggedContext pendingKernel 0x40202).kernel.tasks 1) 10
  have users : ¬((flaggedContext pendingKernel 0x40202).regs.cs ≠ userCs ∨
      (flaggedContext pendingKernel 0x40202).regs.ss ≠ userSs) := by
    rintro (code | stack)
    · exact code rfl
    · exact stack rfl
  have fresh := flaggedContext_frames pendingKernel 0x40202
  generalize flaggedContext pendingKernel 0x40202 = context at *
  have untouched : Untouched (deliverContext 0 0x105000 true context).1
      (deliverContext 0 0x105000 true context).1 0 1 :=
    ⟨currentTask_deliverContext interrupted _, rfl, fun _ _ _ => rfl⟩
  have restored := claimed context 0 1 10 true 0x105000 reachable interrupted fresh 0 _ untouched
  exact lost ((restored_iff interrupted untouched users).mp restored)

end MectovOS.Sched
