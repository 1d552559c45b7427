/-
This file models SYS_KILL of src/sys/syscall_proc.c: the gate for shell hosts,
the walk up the parent chain, the comparison of process groups, and the checks
`task_signal` makes before it takes the lock. A plain app may signal itself, its
descendants and its process group; the comparison takes two tasks without a
group for members of one group.
-/

import MectovOS.Task.System

namespace MectovOS.Sched

/-! ### The code -/

def taskGetParent (kernel : Kernel) (tid : Nat) : Nat :=
  if tid = 0 ∨ maxTasks ≤ tid then 0 else (kernel.tasks tid).parent

def taskGetPgrp (kernel : Kernel) (tid : Nat) : Nat :=
  if maxTasks ≤ tid then 0 else (kernel.tasks tid).pgrp

def taskGetUid (kernel : Kernel) (tid : Nat) : Int :=
  if maxTasks ≤ tid then rootUid else (kernel.tasks tid).uid

def taskIsTrustedShell (kernel : Kernel) (tid : Nat) : Bool :=
  tid < maxTasks && (kernel.tasks tid).trustedShell

/-- `caller_shell_host`. -/
def callerShellHost (kernel : Kernel) (tid : Nat) : Bool :=
  taskInKernelSpace kernel tid || taskGetUid kernel tid = rootUid ||
    taskIsTrustedShell kernel tid

/-- The walk of SYS_KILL up the parent chain of the target. -/
def parentWalk (kernel : Kernel) (caller pid : Nat) : Nat → Nat → Bool
  | 0, _ => false
  | hops + 1, tid =>
    if tid = 0 ∨ maxTasks ≤ tid ∨ tid = pid then false
    else if tid = caller then true
    else parentWalk kernel caller pid hops (taskGetParent kernel tid)

/-- The authorisation of SYS_KILL. -/
def killAllowed (kernel : Kernel) (caller pid : Nat) : Bool :=
  callerShellHost kernel caller || pid = caller ||
    parentWalk kernel caller pid maxTasks (taskGetParent kernel pid) ||
    taskGetPgrp kernel pid = taskGetPgrp kernel caller

/-- `task_signal` with the checks it makes before it takes the lock, and its result. -/
def taskSignalCall (kernel : Kernel) (cid tid sig : Nat) : Kernel × Int :=
  if tid = 0 ∨ maxTasks ≤ tid then (kernel, -1)
  else if (kernel.tasks tid).state = .free then (kernel, -1)
  else if (kernel.tasks tid).state = .zombie then (kernel, 0)
  else if sig = 0 ∨ sigMax ≤ sig then (kernel, -1)
  else (taskSignal kernel cid tid sig, 0)

/-- The call has a target and a signal in range, and passes the authorisation. -/
def killReaches (kernel : Kernel) (caller : Nat) (pid sig : Int) : Bool :=
  0 < pid && 0 < sig && sig < sigMax && killAllowed kernel caller pid.toNat

/-- SYS_KILL, called by a task on core `cid`. -/
def sysKill (kernel : Kernel) (cid caller : Nat) (pid sig : Int) : Kernel × Int :=
  if killReaches kernel caller pid sig then taskSignalCall kernel cid pid.toNat sig.toNat
  else (kernel, -1)

/-! ### Descendants -/

/-- The parent chain of the task leads to the ancestor. -/
def Descends (kernel : Kernel) (ancestor tid : Nat) : Prop :=
  ∃ hops, (taskGetParent kernel)^[hops + 1] tid = ancestor

theorem parentWalk_sound {kernel : Kernel} {caller pid : Nat} {hops tid : Nat}
    (found : parentWalk kernel caller pid hops tid = true) :
    ∃ further, (taskGetParent kernel)^[further] tid = caller := by
  induction hops generalizing tid with
  | zero => cases found
  | succ hops inductionHypothesis =>
    unfold parentWalk at found
    split_ifs at found with outside here
    · exact ⟨0, here⟩
    · obtain ⟨further, reached⟩ := inductionHypothesis found
      exact ⟨further + 1, reached⟩

/-- The walk finds an ancestor that is reached before the bound, by slots in range that are
not the target. -/
theorem parentWalk_complete {kernel : Kernel} {caller pid : Nat} {further hops tid : Nat}
    (reached : (taskGetParent kernel)^[further] tid = caller) (bound : further < hops)
    (inside : ∀ step ≤ further, 0 < (taskGetParent kernel)^[step] tid ∧
      (taskGetParent kernel)^[step] tid < maxTasks ∧ (taskGetParent kernel)^[step] tid ≠ pid) :
    parentWalk kernel caller pid hops tid = true := by
  induction further generalizing hops tid with
  | zero =>
    obtain ⟨hops, rfl⟩ := Nat.exists_eq_succ_of_ne_zero bound.ne'
    obtain ⟨positive, slot, apart⟩ : 0 < tid ∧ tid < maxTasks ∧ tid ≠ pid := inside 0 le_rfl
    unfold parentWalk
    rw [if_neg (not_or.mpr ⟨positive.ne', not_or.mpr ⟨Nat.not_le_of_lt slot, apart⟩⟩),
      if_pos (show tid = caller from reached)]
  | succ further inductionHypothesis =>
    obtain ⟨hops, rfl⟩ := Nat.exists_eq_succ_of_ne_zero (Nat.zero_lt_of_lt bound).ne'
    obtain ⟨positive, slot, apart⟩ : 0 < tid ∧ tid < maxTasks ∧ tid ≠ pid :=
      inside 0 (Nat.zero_le _)
    unfold parentWalk
    rw [if_neg (not_or.mpr ⟨positive.ne', not_or.mpr ⟨Nat.not_le_of_lt slot, apart⟩⟩)]
    split_ifs
    · rfl
    · exact inductionHypothesis reached (Nat.lt_of_succ_lt_succ bound)
        fun step below => inside (step + 1) (Nat.succ_le_succ below)

theorem iterate_parent_zero (kernel : Kernel) (hops : Nat) :
    (taskGetParent kernel)^[hops] 0 = 0 := by
  have root : taskGetParent kernel 0 = 0 := if_pos (.inl rfl)
  exact Function.iterate_fixed root hops

/-- Every slot on the chain below an ancestor in range is in range. -/
theorem chain_inside {kernel : Kernel} {ancestor tid hops : Nat} (positive : 0 < ancestor)
    (slot : ancestor < maxTasks) (reached : (taskGetParent kernel)^[hops] tid = ancestor)
    {step : Nat} (below : step ≤ hops) : 0 < (taskGetParent kernel)^[step] tid ∧
      (taskGetParent kernel)^[step] tid < maxTasks := by
  obtain ⟨rest, rfl⟩ := Nat.exists_eq_add_of_le below
  rw [Nat.add_comm, Function.iterate_add_apply] at reached
  generalize (taskGetParent kernel)^[step] tid = here at reached ⊢
  constructor
  · refine Nat.pos_of_ne_zero fun zero => ?_
    rw [zero, iterate_parent_zero] at reached
    exact positive.ne reached
  · by_contra outside
    cases rest with
    | zero => exact outside (lt_of_eq_of_lt reached slot)
    | succ rest =>
      have cut : taskGetParent kernel here = 0 := if_pos (.inr (Nat.le_of_not_lt outside))
      rw [Function.iterate_succ_apply, cut, iterate_parent_zero] at reached
      exact positive.ne reached

/-- The bound of the walk is no restriction: a chain without repetition is shorter than the
table. -/
theorem parentWalk_iff {kernel : Kernel} {caller pid : Nat} (positive : 0 < caller)
    (slot : caller < maxTasks) (apart : pid ≠ caller) :
    parentWalk kernel caller pid maxTasks (taskGetParent kernel pid) = true ↔
      Descends kernel caller pid := by
  constructor
  · exact fun found => parentWalk_sound found
  · intro descends
    classical
    have reached := Nat.find_spec descends
    generalize least : Nat.find descends = hops at reached
    have minimal : ∀ earlier < hops, (taskGetParent kernel)^[earlier + 1] pid ≠ caller :=
      fun earlier below => Nat.find_min descends (least.symm ▸ below)
    have distinct : ∀ first second, first < second → second ≤ hops + 1 →
        (taskGetParent kernel)^[first] pid ≠ (taskGetParent kernel)^[second] pid := by
      intro first second before within equal
      obtain ⟨rest, split⟩ := Nat.exists_eq_add_of_le within
      have shorter : (taskGetParent kernel)^[rest + first] pid = caller := by
        rw [Function.iterate_add_apply, equal, ← Function.iterate_add_apply, Nat.add_comm rest,
          ← split]
        exact reached
      rcases Nat.eq_zero_or_pos (rest + first) with zero | later
      · rw [zero] at shorter
        exact apart shorter
      · obtain ⟨earlier, equal⟩ := Nat.exists_eq_succ_of_ne_zero later.ne'
        rw [equal] at shorter
        exact minimal earlier (by omega) shorter
    have inside : ∀ step ≤ hops + 1, 0 < step → 0 < (taskGetParent kernel)^[step] pid ∧
        (taskGetParent kernel)^[step] pid < maxTasks :=
      fun step below _ => chain_inside positive slot reached below
    have injective : Set.InjOn (fun step => (taskGetParent kernel)^[step + 1] pid)
        (Finset.range (hops + 1)) := by
      intro first former second latter equal
      have former := Finset.mem_range.mp former
      have latter := Finset.mem_range.mp latter
      by_contra different
      rcases Nat.lt_or_gt_of_ne different with before | after
      · exact distinct _ _ (Nat.succ_lt_succ before) latter equal
      · exact distinct _ _ (Nat.succ_lt_succ after) former equal.symm
    have mapped : ∀ step ∈ Finset.range (hops + 1),
        (taskGetParent kernel)^[step + 1] pid ∈ Finset.Ioo 0 maxTasks := by
      intro step member
      have below := Finset.mem_range.mp member
      exact Finset.mem_Ioo.mpr (inside (step + 1) below (Nat.succ_pos step))
    have short : hops < maxTasks := by
      have counted := Finset.card_le_card_of_injOn _ mapped injective
      rw [Finset.card_range, Nat.card_Ioo] at counted
      exact Nat.lt_of_succ_le (counted.trans (by decide))
    refine parentWalk_complete reached short fun step below => ?_
    obtain ⟨above, within⟩ := inside (step + 1) (Nat.succ_le_succ below) (Nat.succ_pos step)
    exact ⟨above, within, (distinct 0 (step + 1) (Nat.succ_pos step) (Nat.succ_le_succ below)).symm⟩

/-! ### Authorisation -/

/-- Neither root, nor in kernel space, nor a trusted shell host. -/
def Plain (kernel : Kernel) (caller : Nat) : Prop := callerShellHost kernel caller = false

/-- The target runs and descends from the caller. -/
def LiveDescendant (kernel : Kernel) (caller tid : Nat) : Prop :=
  tid < maxTasks ∧ (kernel.tasks tid).state.dead = false ∧ Descends kernel caller tid

/-- Both tasks are in one process group; group 0 means no group. -/
def ShareGroup (kernel : Kernel) (caller tid : Nat) : Prop :=
  taskGetPgrp kernel tid = taskGetPgrp kernel caller ∧ taskGetPgrp kernel caller ≠ 0

/-- Whom a plain app may signal. -/
def MaySignal (kernel : Kernel) (caller tid : Nat) : Prop :=
  tid = caller ∨ LiveDescendant kernel caller tid ∨ ShareGroup kernel caller tid

theorem Plain.slot {kernel : Kernel} {caller : Nat} (plain : Plain kernel caller) :
    0 < caller ∧ caller < maxTasks := by
  simp only [Plain, callerShellHost, Bool.or_eq_false_iff] at plain
  have user := plain.1.1
  constructor
  · refine Nat.pos_of_ne_zero fun zero => ?_
    rw [zero] at user
    simp [taskInKernelSpace, maxTasks] at user
  · by_contra outside
    rw [taskInKernelSpace, if_pos (Nat.le_of_not_lt outside)] at user
    simp at user

theorem killAllowed_iff {kernel : Kernel} {caller : Nat} (plain : Plain kernel caller)
    (pid : Nat) : killAllowed kernel caller pid = true ↔
      pid = caller ∨ Descends kernel caller pid ∨
        taskGetPgrp kernel pid = taskGetPgrp kernel caller := by
  obtain ⟨positive, slot⟩ := plain.slot
  unfold Plain at plain
  simp only [killAllowed, plain, Bool.false_or, Bool.or_eq_true, decide_eq_true_eq]
  by_cases own : pid = caller
  · exact iff_of_true (.inl (.inl own)) (.inl own)
  · rw [parentWalk_iff positive slot own, or_assoc]

/-- Caller and target are not both without a group, unless the caller may signal the target
anyway. -/
def GroupsTell (kernel : Kernel) (caller tid : Nat) : Prop :=
  taskGetPgrp kernel tid = 0 → taskGetPgrp kernel caller = 0 →
    tid = caller ∨ LiveDescendant kernel caller tid

/-- No parent chain leads from a dead slot to the caller, unless the caller may signal that slot
anyway. -/
def ChainsTell (kernel : Kernel) (caller tid : Nat) : Prop :=
  Descends kernel caller tid → (maxTasks ≤ tid ∨ (kernel.tasks tid).state.dead = true) →
    tid = caller ∨ ShareGroup kernel caller tid

theorem maySignal_of_allowed {kernel : Kernel} {caller tid : Nat} (plain : Plain kernel caller)
    (groups : GroupsTell kernel caller tid) (chains : ChainsTell kernel caller tid)
    (allowed : killAllowed kernel caller tid = true) : MaySignal kernel caller tid := by
  rcases (killAllowed_iff plain tid).mp allowed with own | descends | same
  · exact .inl own
  · by_cases dead : maxTasks ≤ tid ∨ (kernel.tasks tid).state.dead = true
    · exact (chains descends dead).imp_right .inr
    · rw [not_or, Bool.not_eq_true] at dead
      exact .inr (.inl ⟨Nat.lt_of_not_le dead.1, dead.2, descends⟩)
  · by_cases none : taskGetPgrp kernel caller = 0
    · exact (groups (same.trans none) none).imp_right .inl
    · exact .inr (.inr ⟨same, none⟩)

theorem groupsTell_of_maySignal {kernel : Kernel} {caller tid : Nat}
    (may : MaySignal kernel caller tid) : GroupsTell kernel caller tid := by
  intro _ none
  rcases may with own | live | shared
  · exact .inl own
  · exact .inr live
  · exact absurd none shared.2

theorem chainsTell_of_maySignal {kernel : Kernel} {caller tid : Nat}
    (may : MaySignal kernel caller tid) : ChainsTell kernel caller tid := by
  intro _ dead
  rcases may with own | ⟨slot, alive, _⟩ | shared
  · exact .inl own
  · rcases dead with outside | dead
    · exact absurd slot (Nat.not_lt_of_le outside)
    · exact absurd (alive.symm.trans dead) Bool.false_ne_true
  · exact .inr shared

/-- A call of a plain app with a target and a signal in range keeps to the rule exactly when
their groups and the parent chain of the target tell them apart. -/
theorem sysKill_authorized_iff (kernel : Kernel) (caller : Nat) (pid sig : Int)
    (plain : Plain kernel caller) :
    (killReaches kernel caller pid sig = true → MaySignal kernel caller pid.toNat) ↔
      (0 < pid → 0 < sig → sig < sigMax →
        GroupsTell kernel caller pid.toNat ∧ ChainsTell kernel caller pid.toNat) := by
  constructor
  · intro kept target positive bound
    have reaches : killAllowed kernel caller pid.toNat = true →
        MaySignal kernel caller pid.toNat := fun allowed => kept (by
      simp only [killReaches, target, positive, bound, allowed, decide_true, Bool.and_self])
    constructor
    · intro void alone
      exact groupsTell_of_maySignal (reaches ((killAllowed_iff plain _).mpr
        (.inr (.inr (void.trans alone.symm))))) void alone
    · intro descends dead
      exact chainsTell_of_maySignal (reaches ((killAllowed_iff plain _).mpr
        (.inr (.inl descends)))) descends dead
  · intro told reaches
    simp only [killReaches, Bool.and_eq_true, decide_eq_true_eq] at reaches
    obtain ⟨⟨⟨target, positive⟩, bound⟩, allowed⟩ := reaches
    obtain ⟨groups, chains⟩ := told target positive bound
    exact maySignal_of_allowed plain groups chains allowed

/-! ### An app without a group -/

/-- An app that never joined a group runs on core 1 as user 1000. -/
def grouplessHistory : List Label :=
  [.spawn 0 (threadArgs 0x300000), .spawn 0 (threadArgs 0x400000), .set 0 3 (.uid 1000),
    .tick 1 0x209000 false fun _ => ⟨false, true, 0xBFFFE000⟩]

def grouplessKernel : Kernel := bootRun twoCores grouplessHistory

theorem grouplessKernel_reachable : taskSystem.Reachable Transition.anyStep grouplessKernel :=
  bootRun_reachable (by decide +kernel)

theorem grouplessKernel_runs : grouplessKernel.currentTask 1 = some 3 := by decide +kernel

theorem grouplessKernel_plain : Plain grouplessKernel 3 := by
  unfold Plain
  decide +kernel

theorem sysKill_authorized_iff_self :
    (killReaches grouplessKernel 3 3 9 = true → MaySignal grouplessKernel 3 3) ↔
      ((0 : Int) < 3 → (0 : Int) < 9 → (9 : Int) < sigMax →
        GroupsTell grouplessKernel 3 3 ∧ ChainsTell grouplessKernel 3 3) :=
  sysKill_authorized_iff grouplessKernel 3 3 9 grouplessKernel_plain

/-- It may kill the idle task of its core, which has no group either. -/
theorem sysKill_reaches_idle :
    ¬∀ kernel cid caller pid sig, taskSystem.Reachable Transition.anyStep kernel →
      kernel.currentTask cid = some caller → Plain kernel caller →
      killReaches kernel caller pid sig = true → MaySignal kernel caller pid.toNat := by
  intro claimed
  have reaches : killReaches grouplessKernel 3 1 9 = true := by decide +kernel
  rcases claimed grouplessKernel 1 3 1 9 grouplessKernel_reachable grouplessKernel_runs
    grouplessKernel_plain reaches with own | live | shared
  · cases own
  · have unrelated : parentWalk grouplessKernel 3 1 maxTasks (taskGetParent grouplessKernel 1) =
        false := by decide +kernel
    exact Bool.false_ne_true (unrelated.symm.trans
      ((parentWalk_iff (by decide) (by decide) (by decide)).mpr live.2.2))
  · exact shared.2 (by decide +kernel)

end MectovOS.Sched
