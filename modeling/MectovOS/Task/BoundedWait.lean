/-
This file proves that `rq_pick` of src/sys/task.c starves nobody. While a task
waits its score grows with every call, and a task that was picked starts again
from its class and nice; so once the waiting task has caught up with the range
of the scores, every other one goes before it once at most.
-/

import MectovOS.Task.Heaviest

namespace MectovOS.Sched

/-! ### Consecutive calls -/

/-- A pick puts the wait of its task back to 0 and ages every other candidate. -/
theorem rqPick_tasks (kernel : Kernel) (cid tid : Nat) :
    (rqPick kernel cid).1.tasks tid = { kernel.tasks tid with
      waitTicks := if (rqPick kernel cid).2 = some tid then 0
        else (kernel.tasks tid).waitTicks + ageing kernel cid (kernel.rq cid) tid } := by
  have scanned := pickScan_tasks cid (kernel.rq cid) kernel none (-1) tid
  unfold rqPick
  split
  · next after nobody =>
    rw [nobody] at scanned
    exact scanned
  · next after winner picked =>
    rw [picked] at scanned
    dsimp only at scanned ⊢
    by_cases here : tid = winner
    · rw [here, setTask_same, if_pos rfl, ← here, scanned]
    · rw [setTask_other _ _ here, if_neg fun same => here (Option.some.inj same).symm, scanned]

/-- The next call finds the queue and what counts of its tasks as the last call left them; the
task that was picked has run and is ready again. -/
structure Resumed (cid : Nat) (before after : Kernel) : Prop where
  queue : after.rq cid = before.rq cid
  weight : ∀ tid ∈ before.rq cid, weight (after.tasks tid) = weight (before.tasks tid)
  waitTicks : ∀ tid ∈ before.rq cid,
    (after.tasks tid).waitTicks = (before.tasks tid).waitTicks
  pickable : ∀ tid ∈ before.rq cid, pickable after cid tid = pickable before cid tid

/-- The kernels that consecutive calls of `rq_pick` on a core find. -/
def Undisturbed (cid : Nat) (calls : Nat → Kernel) : Prop :=
  ∀ call, Resumed cid (rqPick (calls call) cid).1 (calls (call + 1))

/-- The range of the scores on a core: no candidate scores less than the first bound, with or
without the ticks it has waited, and without them none scores more than the second one. -/
def ScoreRange (kernel : Kernel) (cid : Nat) (lo hi : Int) : Prop :=
  ∀ tid ∈ kernel.rq cid, pickable kernel cid tid = true →
    lo ≤ weight (kernel.tasks tid) ∧ lo ≤ score (kernel.tasks tid) ∧
      weight (kernel.tasks tid) ≤ hi

/-- What one call and the return of its task change. -/
structure Called (cid : Nat) (before after : Kernel) : Prop where
  queue : after.rq cid = before.rq cid
  weight : ∀ tid ∈ before.rq cid, weight (after.tasks tid) = weight (before.tasks tid)
  pickable : ∀ tid ∈ before.rq cid, pickable after cid tid = pickable before cid tid
  waitTicks : ∀ tid ∈ before.rq cid, (after.tasks tid).waitTicks =
    if (rqPick before cid).2 = some tid then 0
    else (before.tasks tid).waitTicks + ageing before cid (before.rq cid) tid

section
variable {cid : Nat} {calls : Nat → Kernel}

theorem Undisturbed.called (undisturbed : Undisturbed cid calls) (call : Nat) :
    Called cid (calls call) (calls (call + 1)) := by
  obtain ⟨queue, weights, waits, candidates⟩ := undisturbed call
  obtain ⟨aged, -⟩ := rqPick_spec (calls call) cid
  rw [aged.rq] at queue weights waits candidates
  refine ⟨queue, fun tid member => ?_, fun tid member => ?_, fun tid member => ?_⟩
  · rw [weights tid member, rqPick_tasks]
    rfl
  · rw [candidates tid member, aged.pickable]
  · rw [waits tid member, rqPick_tasks]

theorem Undisturbed.queue (undisturbed : Undisturbed cid calls) (call : Nat) :
    (calls call).rq cid = (calls 0).rq cid := by
  induction call with
  | zero => rfl
  | succ call inductionHypothesis => rw [(undisturbed.called call).queue, inductionHypothesis]

theorem Undisturbed.candidates (undisturbed : Undisturbed cid calls) {tid : Nat}
    (queued : tid ∈ (calls 0).rq cid) (call : Nat) :
    pickable (calls call) cid tid = pickable (calls 0) cid tid := by
  induction call with
  | zero => rfl
  | succ call inductionHypothesis =>
    rw [(undisturbed.called call).pickable tid (undisturbed.queue call ▸ queued),
      inductionHypothesis]

theorem Undisturbed.weights (undisturbed : Undisturbed cid calls) {tid : Nat}
    (queued : tid ∈ (calls 0).rq cid) (call : Nat) :
    weight ((calls call).tasks tid) = weight ((calls 0).tasks tid) := by
  induction call with
  | zero => rfl
  | succ call inductionHypothesis =>
    rw [(undisturbed.called call).weight tid (undisturbed.queue call ▸ queued),
      inductionHypothesis]

/-- The calls from one of them on. -/
theorem Undisturbed.shift (undisturbed : Undisturbed cid calls) (start : Nat) :
    Undisturbed cid fun call => calls (start + call) :=
  fun call => undisturbed (start + call)

theorem ScoreRange.called {before after : Kernel} {lo hi : Int}
    (range : ScoreRange before cid lo hi) (called : Called cid before after) :
    ScoreRange after cid lo hi := by
  intro tid member candidate
  rw [called.queue] at member
  rw [called.pickable tid member] at candidate
  obtain ⟨least, least', most⟩ := range tid member candidate
  rw [called.weight tid member]
  refine ⟨least, ?_, most⟩
  rw [score_eq, called.weight tid member, called.waitTicks tid member]
  split
  · rw [add_zero]
    exact least
  · rw [← add_assoc]
    exact least'.trans (le_add_of_nonneg_right (Int.natCast_nonneg _))

theorem Undisturbed.range (undisturbed : Undisturbed cid calls) {lo hi : Int}
    (range : ScoreRange (calls 0) cid lo hi) (call : Nat) :
    ScoreRange (calls call) cid lo hi := by
  induction call with
  | zero => exact range
  | succ call inductionHypothesis => exact inductionHypothesis.called (undisturbed.called call)

/-! ### Waiting and resting -/

/-- A candidate that is not picked gains a tick with every call. -/
theorem Undisturbed.waits (undisturbed : Undisturbed cid calls) {tid call : Nat}
    (queued : tid ∈ (calls 0).rq cid) (candidate : pickable (calls 0) cid tid = true)
    (passed : ∀ earlier < call, (rqPick (calls earlier) cid).2 ≠ some tid) :
    ((calls 0).tasks tid).waitTicks + call ≤ ((calls call).tasks tid).waitTicks := by
  induction call with
  | zero => exact (add_zero _).le
  | succ call inductionHypothesis =>
    have before := inductionHypothesis fun earlier less =>
      passed earlier (Nat.lt_succ_of_lt less)
    have member : tid ∈ (calls call).rq cid := undisturbed.queue call ▸ queued
    have ticks : 1 ≤ ageing (calls call) cid ((calls call).rq cid) tid := by
      unfold ageing
      rw [if_pos ((undisturbed.candidates queued call).trans candidate)]
      exact List.count_pos_iff.mpr member
    rw [(undisturbed.called call).waitTicks tid member,
      if_neg (passed call (Nat.lt_succ_self call)), Nat.cast_succ, ← add_assoc]
    exact add_le_add before (by exact_mod_cast ticks)

/-- A task that was picked gains no more ticks in a call than the queue is long. -/
theorem Undisturbed.rests (undisturbed : Undisturbed cid calls) {tid first : Nat}
    (picked : (rqPick (calls first) cid).2 = some tid) (later : Nat) :
    ((calls (first + 1 + later)).tasks tid).waitTicks ≤
      (((calls 0).rq cid).length * later : Nat) := by
  have queued : tid ∈ (calls 0).rq cid := undisturbed.queue first ▸ (rqPick_some picked).1
  induction later with
  | zero =>
    rw [add_zero, (undisturbed.called first).waitTicks tid (undisturbed.queue first ▸ queued),
      if_pos picked]
    exact Int.natCast_nonneg _
  | succ later inductionHypothesis =>
    rw [← add_assoc, (undisturbed.called _).waitTicks tid (undisturbed.queue _ ▸ queued)]
    split
    · exact Int.natCast_nonneg _
    · have ticks : ageing (calls (first + 1 + later)) cid
          ((calls (first + 1 + later)).rq cid) tid ≤ ((calls 0).rq cid).length := by
        unfold ageing
        rw [undisturbed.queue]
        split
        · exact List.count_le_length
        · exact Nat.zero_le _
      rw [Nat.mul_succ, Nat.cast_add]
      exact add_le_add inductionHypothesis (by exact_mod_cast ticks)

/-! ### The bound -/

/-- The calls after which a task was picked, for the length of the queue and the range of the
scores. -/
def waitBound (count : Nat) (lo hi : Int) : Nat :=
  max ((hi - lo).toNat + count * count) (-lo).toNat + count

/-- Once the wait has made up for the range, no task goes before the waiting one twice. -/
theorem Undisturbed.once (undisturbed : Undisturbed cid calls) {lo hi : Int}
    (range : ScoreRange (calls 0) cid lo hi) {tid other first second : Nat}
    (queued : tid ∈ (calls 0).rq cid) (candidate : pickable (calls 0) cid tid = true)
    (passed : ∀ earlier < second, (rqPick (calls earlier) cid).2 ≠ some tid)
    (caught : (hi - lo).toNat + ((calls 0).rq cid).length * ((calls 0).rq cid).length ≤ first)
    (order : first < second) (near : second < first + ((calls 0).rq cid).length)
    (pickedFirst : (rqPick (calls first) cid).2 = some other) :
    (rqPick (calls second) cid).2 ≠ some other := by
  intro pickedSecond
  obtain ⟨later, rfl⟩ := Nat.exists_eq_add_of_lt order
  obtain ⟨member, may, most⟩ := rqPick_some pickedSecond
  have heavier := most tid (undisturbed.queue _ ▸ queued)
    ((undisturbed.candidates queued _).trans candidate)
  have queuedOther : other ∈ (calls 0).rq cid := undisturbed.queue _ ▸ member
  have wait := undisturbed.waits queued candidate passed
  have rest := undisturbed.rests pickedFirst later
  rw [Nat.add_right_comm first 1 later] at rest
  obtain ⟨-, least, -⟩ := range tid queued candidate
  obtain ⟨-, -, highest⟩ :=
    range other queuedOther ((undisturbed.candidates queuedOther _).symm.trans may)
  unfold agedScore at heavier
  rw [score_eq, score_eq, undisturbed.weights queued, undisturbed.weights queuedOther,
    undisturbed.queue] at heavier
  rw [score_eq] at least
  have few : List.count other ((calls 0).rq cid) ≤ ((calls 0).rq cid).length :=
    List.count_le_length
  have product : ((calls 0).rq cid).length * (later + 1) ≤
      ((calls 0).rq cid).length * ((calls 0).rq cid).length :=
    Nat.mul_le_mul_left _ (by omega)
  rw [Nat.mul_succ] at product
  omega

theorem Undisturbed.picked (undisturbed : Undisturbed cid calls) {lo hi : Int}
    (range : ScoreRange (calls 0) cid lo hi) {tid : Nat} (queued : tid ∈ (calls 0).rq cid)
    (candidate : pickable (calls 0) cid tid = true) :
    ∃ call < waitBound ((calls 0).rq cid).length lo hi,
      (rqPick (calls call) cid).2 = some tid := by
  by_contra never
  have passed : ∀ call < waitBound ((calls 0).rq cid).length lo hi,
      (rqPick (calls call) cid).2 ≠ some tid :=
    fun call less picked => never ⟨call, less, picked⟩
  obtain ⟨caught, caughtEq⟩ : ∃ caught, caught =
      max ((hi - lo).toNat + ((calls 0).rq cid).length * ((calls 0).rq cid).length)
        (-lo).toNat := ⟨_, rfl⟩
  have bound : waitBound ((calls 0).rq cid).length lo hi =
      caught + ((calls 0).rq cid).length := by
    rw [caughtEq]
    rfl
  rw [bound] at passed
  have finds : ∀ turn < ((calls 0).rq cid).length, ∃ other ∈ (calls 0).rq cid, other ≠ tid ∧
      (rqPick (calls (caught + turn)) cid).2 = some other := by
    intro turn less
    have here : caught + turn < caught + ((calls 0).rq cid).length := Nat.add_lt_add_left less _
    cases picked : (rqPick (calls (caught + turn)) cid).2 with
    | some other =>
      refine ⟨other, undisturbed.queue _ ▸ (rqPick_some picked).1, ?_, rfl⟩
      rintro rfl
      exact passed _ here picked
    | none =>
      -- by now the waiting task scores above the start of the scan
      have light := rqPick_none_iff.mp picked tid (undisturbed.queue _ ▸ queued)
        ((undisturbed.candidates queued _).trans candidate)
      have wait := undisturbed.waits queued candidate fun earlier less' =>
        passed earlier (less'.trans here)
      obtain ⟨-, least, -⟩ := range tid queued candidate
      have enough : (-lo).toNat ≤ caught := caughtEq ▸ Nat.le_max_right _ _
      unfold agedScore at light
      rw [score_eq, undisturbed.weights queued] at light
      rw [score_eq] at least
      omega
  have maps : ∀ turn ∈ Finset.range ((calls 0).rq cid).length,
      ((rqPick (calls (caught + turn)) cid).2).getD 0 ∈ ((calls 0).rq cid).toFinset.erase tid := by
    intro turn member
    obtain ⟨other, inside, apart, picked⟩ := finds turn (Finset.mem_range.mp member)
    rw [picked]
    exact Finset.mem_erase.mpr ⟨apart, List.mem_toFinset.mpr inside⟩
  have fewer : (((calls 0).rq cid).toFinset.erase tid).card <
      (Finset.range ((calls 0).rq cid).length).card := by
    rw [Finset.card_range, Finset.card_erase_of_mem (List.mem_toFinset.mpr queued)]
    have positive : 0 < ((calls 0).rq cid).length := List.length_pos_of_mem queued
    exact Nat.lt_of_le_of_lt (Nat.sub_le_sub_right (List.toFinset_card_le _) 1)
      (Nat.sub_lt positive Nat.one_pos)
  have twice : ∀ first second, first < second → second < ((calls 0).rq cid).length →
      ((rqPick (calls (caught + first)) cid).2).getD 0 ≠
        ((rqPick (calls (caught + second)) cid).2).getD 0 := by
    intro first second order less same
    obtain ⟨other, -, -, pickedFirst⟩ := finds first (order.trans less)
    obtain ⟨again, -, -, pickedSecond⟩ := finds second less
    rw [pickedFirst, pickedSecond, Option.getD_some, Option.getD_some] at same
    rw [← same] at pickedSecond
    refine undisturbed.once range queued candidate (fun earlier less' => passed earlier
      (less'.trans (Nat.add_lt_add_left less _)))
      ((caughtEq ▸ Nat.le_max_left _ _ : _ ≤ caught).trans (Nat.le_add_right caught first))
      (Nat.add_lt_add_left order _) ?_ pickedFirst pickedSecond
    omega
  obtain ⟨first, inFirst, second, inSecond, apart, same⟩ :=
    Finset.exists_ne_map_eq_of_card_lt_of_maps_to fewer maps
  rcases Nat.lt_or_gt_of_ne apart with order | order
  · exact twice first second order (Finset.mem_range.mp inSecond) same
  · exact twice second first order (Finset.mem_range.mp inFirst) same.symm

/-- From any call on every candidate is picked within a number of calls that the length of the
queue and the range of the scores bound. -/
theorem rqPick_wait_bounded (undisturbed : Undisturbed cid calls) {lo hi : Int}
    (range : ScoreRange (calls 0) cid lo hi) {tid : Nat} (queued : tid ∈ (calls 0).rq cid)
    (candidate : pickable (calls 0) cid tid = true) (start : Nat) :
    ∃ call < waitBound ((calls 0).rq cid).length lo hi,
      (rqPick (calls (start + call)) cid).2 = some tid := by
  have later := (undisturbed.shift start).picked (undisturbed.range range start)
    (undisturbed.queue start ▸ queued) ((undisturbed.candidates queued start).trans candidate)
  rwa [show (calls (start + 0)).rq cid = (calls 0).rq cid from undisturbed.queue start] at later

/-- The classes and nice values there are keep the scores of tasks that have not waited between
-4 and 35. -/
theorem scoreRange_classes {kernel : Kernel}
    (classes : ∀ tid ∈ kernel.rq cid, 0 ≤ (kernel.tasks tid).priority ∧
      (kernel.tasks tid).priority ≤ 2)
    (nices : ∀ tid ∈ kernel.rq cid, -20 ≤ (kernel.tasks tid).nice ∧ (kernel.tasks tid).nice ≤ 19)
    (waits : ∀ tid ∈ kernel.rq cid, 0 ≤ (kernel.tasks tid).waitTicks) :
    ScoreRange kernel cid (-4) 35 := by
  intro tid member _
  obtain ⟨lowest, highest⟩ := classes tid member
  obtain ⟨least, most⟩ := nices tid member
  have wait := waits tid member
  rw [score_eq]
  unfold weight
  have low : -4 ≤ (10 - (kernel.tasks tid).nice).tdiv 2 :=
    Int.tdiv_le_tdiv (show (0 : Int) < 2 by decide)
      (show (-9 : Int) ≤ 10 - (kernel.tasks tid).nice by omega)
  have high : (10 - (kernel.tasks tid).nice).tdiv 2 ≤ 15 :=
    Int.tdiv_le_tdiv (show (0 : Int) < 2 by decide)
      (show 10 - (kernel.tasks tid).nice ≤ 30 by omega)
  omega

end

/-- The kernels that calls on core 0 find when nothing but `rq_pick` changes them. -/
def backgroundCalls : Nat → Kernel
  | 0 => backgroundKernel
  | call + 1 => (rqPick (backgroundCalls call) 0).1

/-- The niced app is picked within 45 calls from the eighth on. -/
theorem background_picked : ∃ call < 45,
    (rqPick (backgroundCalls (7 + call)) 0).2 = some 2 := by
  have undisturbed : Undisturbed 0 backgroundCalls :=
    fun call => ⟨rfl, fun _ _ => rfl, fun _ _ => rfl, fun _ _ => rfl⟩
  have range : ScoreRange (backgroundCalls 0) 0 (-4) 35 :=
    scoreRange_classes (by decide +kernel) (by decide +kernel) (by decide +kernel)
  have picked := rqPick_wait_bounded undisturbed range
    (show 2 ∈ (backgroundCalls 0).rq 0 by decide +kernel) (by decide +kernel) 7
  rwa [show waitBound ((backgroundCalls 0).rq 0).length (-4) 35 = 45 by decide +kernel] at picked

end MectovOS.Sched
