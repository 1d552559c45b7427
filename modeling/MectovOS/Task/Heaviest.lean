/-
This file proves what `rq_pick` and `rq_steal` of src/sys/task.c choose: a task
of the greatest score among those they may take. Both start from a best score of
-1, so a core whose candidates all score below 0 finds none of them.
-/

import MectovOS.Task.Pick
import MectovOS.Task.System

namespace MectovOS.Sched

/-! ### Ageing -/

/-- What class and nice give to the score of a task. -/
def weight (task : Task) : Int := task.priority * 10 + (10 - task.nice).tdiv 2

theorem score_eq (task : Task) : score task = weight task + task.waitTicks := rfl

/-- The ticks a scan of a queue adds to a task: one for each of its entries, if it may be
picked. -/
def ageing (kernel : Kernel) (cid : Nat) (tids : List Nat) (tid : Nat) : Nat :=
  if pickable kernel cid tid then tids.count tid else 0

theorem ageing_self {kernel : Kernel} {cid head : Nat} (accepted : pickable kernel cid head = true)
    (rest : List Nat) :
    ageing kernel cid (head :: rest) head = ageing kernel cid rest head + 1 := by
  unfold ageing
  rw [if_pos accepted, if_pos accepted, List.count_cons_self]

theorem ageing_other {kernel : Kernel} {cid head tid : Nat} (rest : List Nat)
    (other : tid ≠ head ∨ pickable kernel cid tid = false) :
    ageing kernel cid (head :: rest) tid = ageing kernel cid rest tid := by
  unfold ageing
  rcases other with apart | rejected
  · rw [List.count_cons_of_ne (Ne.symm apart)]
  · rw [rejected, if_neg Bool.false_ne_true, if_neg Bool.false_ne_true]

/-- A scan adds its ticks to every task and changes nothing else of it. -/
theorem pickScan_tasks (cid : Nat) (tids : List Nat) (kernel : Kernel) (best : Option Nat)
    (bestScore : Int) (tid : Nat) :
    (pickScan cid kernel best bestScore tids).1.tasks tid = { kernel.tasks tid with
      waitTicks := (kernel.tasks tid).waitTicks + ageing kernel cid tids tid } := by
  induction tids generalizing kernel best bestScore with
  | nil =>
    have none' : ageing kernel cid [] tid = 0 := ite_self 0
    rw [none', Nat.cast_zero, add_zero]
    rfl
  | cons head rest inductionHypothesis =>
    by_cases accepted : pickable kernel cid head = true
    · have aged := aged_setTask kernel head fun task => task.waitTicks + 1
      have later : ∀ best' bestScore', (pickScan cid (kernel.setTask head fun task =>
          { task with waitTicks := task.waitTicks + 1 }) best' bestScore' rest).1.tasks tid =
          { kernel.tasks tid with waitTicks :=
            (kernel.tasks tid).waitTicks + ageing kernel cid (head :: rest) tid } := by
        intro best' bestScore'
        rw [inductionHypothesis]
        have same : ageing (kernel.setTask head fun task =>
            { task with waitTicks := task.waitTicks + 1 }) cid rest tid =
            ageing kernel cid rest tid := by
          unfold ageing
          rw [aged.pickable]
        rw [same]
        by_cases here : tid = head
        · rw [here, setTask_same, ageing_self accepted, Nat.cast_succ, add_right_comm, add_assoc]
        · rw [setTask_other _ _ here, ageing_other rest (Or.inl here)]
      unfold pickScan
      dsimp only
      rw [if_pos accepted]
      split
      · exact later _ _
      · exact later _ _
    · unfold pickScan
      rw [if_neg accepted, inductionHypothesis]
      by_cases here : tid = head
      · rw [here, ageing_other rest (Or.inr (Bool.eq_false_of_not_eq_true accepted))]
      · rw [ageing_other rest (Or.inl here)]

theorem score_aged (task : Task) (ticks : Int) :
    score { task with waitTicks := task.waitTicks + ticks } = score task + ticks :=
  (add_assoc _ _ _).symm

/-- The best of a scan is the old best, or a candidate that scores more than it; and no candidate
scores more than the new best. -/
theorem pickScan_best (cid : Nat) (tids : List Nat) (kernel : Kernel) (best : Option Nat)
    (bestScore : Int) :
    ∃ final : Int, bestScore ≤ final ∧
      ((pickScan cid kernel best bestScore tids).2 = best ∧ final = bestScore ∨
        bestScore < final ∧ ∃ tid ∈ tids, pickable kernel cid tid = true ∧
          (pickScan cid kernel best bestScore tids).2 = some tid ∧
          final = score (kernel.tasks tid) + tids.count tid) ∧
      ∀ tid ∈ tids, pickable kernel cid tid = true →
        score (kernel.tasks tid) + tids.count tid ≤ final := by
  induction tids generalizing kernel best bestScore with
  | nil => exact ⟨bestScore, le_rfl, Or.inl ⟨rfl, rfl⟩, fun tid member => nomatch member⟩
  | cons head rest inductionHypothesis =>
    by_cases accepted : pickable kernel cid head = true
    · have aged := aged_setTask kernel head fun task => task.waitTicks + 1
      -- one tick for the first entry, the others for those behind it
      have scores : ∀ tid, score (kernel.tasks tid) + (head :: rest).count tid =
          score ((kernel.setTask head fun task =>
            { task with waitTicks := task.waitTicks + 1 }).tasks tid) + rest.count tid := by
        intro tid
        by_cases here : tid = head
        · rw [here, setTask_same, score_aged, List.count_cons_self, Nat.cast_succ, add_assoc,
            add_comm 1]
        · rw [setTask_other _ _ here, List.count_cons_of_ne (Ne.symm here)]
      unfold pickScan
      dsimp only
      rw [if_pos accepted]
      generalize kernel.setTask head _ = after at aged scores ⊢
      have own : score (after.tasks head) ≤ score (after.tasks head) + rest.count head :=
        le_add_of_nonneg_right (Int.natCast_nonneg _)
      split
      · next heavier =>
        obtain ⟨final, more, found, most⟩ :=
          inductionHypothesis after (some head) (score (after.tasks head))
        have bound : ∀ tid ∈ head :: rest, pickable kernel cid tid = true →
            score (kernel.tasks tid) + (head :: rest).count tid ≤ final := by
          intro tid member candidate
          rw [scores]
          by_cases behind : tid ∈ rest
          · exact most tid behind ((aged.pickable cid tid).trans candidate)
          · obtain rfl := (List.mem_cons.mp member).resolve_right behind
            rw [List.count_eq_zero_of_not_mem behind, Nat.cast_zero, add_zero]
            exact more
        refine ⟨final, (le_of_lt heavier).trans more, Or.inr ⟨heavier.trans_le more, ?_⟩, bound⟩
        rcases found with ⟨kept, equal⟩ | ⟨_, tid, member, candidate, taken, equal⟩
        · refine ⟨head, List.mem_cons_self, accepted, kept, le_antisymm ?_ ?_⟩
          · rw [scores, equal]
            exact own
          · exact bound head List.mem_cons_self accepted
        · refine ⟨tid, List.mem_cons_of_mem _ member, (aged.pickable cid tid).symm.trans candidate,
            taken, ?_⟩
          rw [scores, equal]
      · next lighter =>
        obtain ⟨final, more, found, most⟩ := inductionHypothesis after best bestScore
        refine ⟨final, more, found.imp id ?_, fun tid member candidate => ?_⟩
        · rintro ⟨heavier, tid, member, candidate, taken, equal⟩
          refine ⟨heavier, tid, List.mem_cons_of_mem _ member,
            (aged.pickable cid tid).symm.trans candidate, taken, ?_⟩
          rw [scores, equal]
        · rw [scores]
          by_cases behind : tid ∈ rest
          · exact most tid behind ((aged.pickable cid tid).trans candidate)
          · obtain rfl := (List.mem_cons.mp member).resolve_right behind
            rw [List.count_eq_zero_of_not_mem behind, Nat.cast_zero, add_zero]
            exact (not_lt.mp lighter).trans more
    · unfold pickScan
      rw [if_neg accepted]
      have apart : ∀ tid, pickable kernel cid tid = true → head ≠ tid := by
        rintro tid candidate rfl
        exact accepted candidate
      obtain ⟨final, more, found, most⟩ := inductionHypothesis kernel best bestScore
      refine ⟨final, more, found.imp id ?_, fun tid member candidate => ?_⟩
      · rintro ⟨heavier, tid, member, candidate, taken, equal⟩
        refine ⟨heavier, tid, List.mem_cons_of_mem _ member, candidate, taken, ?_⟩
        rw [equal, List.count_cons_of_ne (apart tid candidate)]
      · rw [List.count_cons_of_ne (apart tid candidate)]
        exact most tid ((List.mem_cons.mp member).resolve_left (apart tid candidate).symm)
          candidate

/-! ### rq_pick -/

/-- The score of a task when `rq_pick` comes to its last entry. -/
def agedScore (kernel : Kernel) (cid tid : Nat) : Int :=
  score (kernel.tasks tid) + (kernel.rq cid).count tid

theorem rqPick_snd (kernel : Kernel) (cid : Nat) :
    (rqPick kernel cid).2 = (pickScan cid kernel none (-1) (kernel.rq cid)).2 := by
  unfold rqPick
  split
  · next picked => rw [picked]
  · next picked => rw [picked]

/-- `rq_pick` finds a task exactly when one of its candidates scores at least 0. -/
theorem rqPick_none_iff {kernel : Kernel} {cid : Nat} :
    (rqPick kernel cid).2 = none ↔
      ∀ tid ∈ kernel.rq cid, pickable kernel cid tid = true → agedScore kernel cid tid < 0 := by
  rw [rqPick_snd]
  obtain ⟨final, -, found, most⟩ := pickScan_best cid (kernel.rq cid) kernel none (-1)
  rcases found with ⟨nobody, equal⟩ | ⟨heavier, tid, member, candidate, taken, equal⟩
  · refine iff_of_true nobody fun tid member candidate => ?_
    exact lt_of_le_of_lt (equal ▸ most tid member candidate) (by decide)
  · rw [taken]
    refine iff_of_false nofun fun light => ?_
    rw [equal] at heavier
    exact absurd (light tid member candidate) (not_lt.mpr heavier)

/-- What `rq_pick` returns is a candidate of the greatest score. -/
theorem rqPick_some {kernel : Kernel} {cid tid : Nat}
    (picked : (rqPick kernel cid).2 = some tid) :
    tid ∈ kernel.rq cid ∧ pickable kernel cid tid = true ∧
      ∀ other ∈ kernel.rq cid, pickable kernel cid other = true →
        agedScore kernel cid other ≤ agedScore kernel cid tid := by
  rw [rqPick_snd] at picked
  obtain ⟨final, -, found, most⟩ := pickScan_best cid (kernel.rq cid) kernel none (-1)
  rcases found with ⟨nobody, -⟩ | ⟨-, winner, member, candidate, taken, equal⟩
  · exact nomatch nobody.symm.trans picked
  · obtain rfl := Option.some.inj (taken.symm.trans picked)
    exact ⟨member, candidate, fun other queued may =>
      (most other queued may).trans_eq equal⟩

/-! ### rq_steal -/

theorem stealScan_best (kernel : Kernel) (cid : Nat) (queued : List (Nat × Nat))
    (best : Option (Nat × Nat)) (bestScore : Int) :
    ∃ final : Int, bestScore ≤ final ∧
      (stealScan kernel cid best bestScore queued = best ∧ final = bestScore ∨
        bestScore < final ∧ ∃ entry ∈ queued, stealable kernel cid entry.2 = true ∧
          stealScan kernel cid best bestScore queued = some entry ∧
          final = score (kernel.tasks entry.2)) ∧
      ∀ entry ∈ queued, stealable kernel cid entry.2 = true →
        score (kernel.tasks entry.2) ≤ final := by
  induction queued generalizing best bestScore with
  | nil => exact ⟨bestScore, le_rfl, Or.inl ⟨rfl, rfl⟩, fun entry member => nomatch member⟩
  | cons head rest inductionHypothesis =>
    obtain ⟨source, tid⟩ := head
    unfold stealScan
    split
    · next accepted =>
      obtain ⟨final, more, found, most⟩ :=
        inductionHypothesis (some (source, tid)) (score (kernel.tasks tid))
      refine ⟨final, (le_of_lt accepted.2).trans more,
        Or.inr ⟨accepted.2.trans_le more, ?_⟩, fun entry member candidate => ?_⟩
      · rcases found with ⟨kept, equal⟩ | ⟨_, entry, member, candidate, taken, equal⟩
        · exact ⟨(source, tid), List.mem_cons_self, accepted.1, kept, equal⟩
        · exact ⟨entry, List.mem_cons_of_mem _ member, candidate, taken, equal⟩
      · rcases List.mem_cons.mp member with rfl | behind
        · exact more
        · exact most entry behind candidate
    · next rejected =>
      obtain ⟨final, more, found, most⟩ := inductionHypothesis best bestScore
      refine ⟨final, more, found.imp id ?_, fun entry member candidate => ?_⟩
      · rintro ⟨heavier, entry, member, candidate, taken, equal⟩
        exact ⟨heavier, entry, List.mem_cons_of_mem _ member, candidate, taken, equal⟩
      · rcases List.mem_cons.mp member with rfl | behind
        · exact (not_lt.mp fun heavier => rejected ⟨candidate, heavier⟩).trans more
        · exact most entry behind candidate

theorem rqSteal_snd (kernel : Kernel) (cid : Nat) :
    (rqSteal kernel cid).2 =
      (stealScan kernel cid none (-1) (peerQueues kernel cid)).map Prod.snd := by
  unfold rqSteal
  split
  · next stolen => rw [stolen]; rfl
  · next stolen => rw [stolen]; rfl

/-- `rq_steal` finds a task exactly when one of its candidates scores at least 0. -/
theorem rqSteal_none_iff {kernel : Kernel} {cid : Nat} :
    (rqSteal kernel cid).2 = none ↔
      ∀ entry ∈ peerQueues kernel cid, stealable kernel cid entry.2 = true →
        score (kernel.tasks entry.2) < 0 := by
  rw [rqSteal_snd, Option.map_eq_none_iff]
  obtain ⟨final, -, found, most⟩ := stealScan_best kernel cid (peerQueues kernel cid) none (-1)
  rcases found with ⟨nobody, equal⟩ | ⟨heavier, entry, member, candidate, taken, equal⟩
  · refine iff_of_true nobody fun entry member candidate => ?_
    exact lt_of_le_of_lt (equal ▸ most entry member candidate) (by decide)
  · rw [taken]
    refine iff_of_false nofun fun light => ?_
    exact absurd (light entry member candidate) (not_lt.mpr (equal ▸ heavier))

/-- What `rq_steal` returns is a candidate of the greatest score. -/
theorem rqSteal_some {kernel : Kernel} {cid tid : Nat}
    (stolen : (rqSteal kernel cid).2 = some tid) :
    ∃ source, (source, tid) ∈ peerQueues kernel cid ∧ stealable kernel cid tid = true ∧
      ∀ entry ∈ peerQueues kernel cid, stealable kernel cid entry.2 = true →
        score (kernel.tasks entry.2) ≤ score (kernel.tasks tid) := by
  rw [rqSteal_snd] at stolen
  obtain ⟨winner, taken', rfl⟩ := Option.map_eq_some_iff.mp stolen
  obtain ⟨final, -, found, most⟩ := stealScan_best kernel cid (peerQueues kernel cid) none (-1)
  rcases found with ⟨nobody, -⟩ | ⟨-, entry, member, candidate, taken, equal⟩
  · exact nomatch nobody.symm.trans taken'
  · obtain rfl := Option.some.inj (taken.symm.trans taken')
    exact ⟨entry.1, member, candidate, fun other queued may => equal ▸ most other queued may⟩

/-! ### Work conservation -/

/-- A core leaves no work: it finds no task in its own queue or in the queues of its peers only if
there is none it may take, and what it finds has the greatest score. -/
structure WorkConserving (kernel : Kernel) (cid : Nat) : Prop where
  picks : (rqPick kernel cid).2 = none →
    ∀ tid ∈ kernel.rq cid, pickable kernel cid tid = false
  heaviest : ∀ tid, (rqPick kernel cid).2 = some tid →
    tid ∈ kernel.rq cid ∧ pickable kernel cid tid = true ∧
      ∀ other ∈ kernel.rq cid, pickable kernel cid other = true →
        agedScore kernel cid other ≤ agedScore kernel cid tid
  steals : (rqSteal kernel cid).2 = none →
    ∀ source tid, source < rqCpuCount kernel → source ≠ cid → tid ∈ kernel.rq source →
      stealable kernel cid tid = false
  heaviestPeer : ∀ tid, (rqSteal kernel cid).2 = some tid →
    ∃ source < rqCpuCount kernel, source ≠ cid ∧ tid ∈ kernel.rq source ∧
      stealable kernel cid tid = true ∧
      ∀ peer other, peer < rqCpuCount kernel → peer ≠ cid → other ∈ kernel.rq peer →
        stealable kernel cid other = true →
        score (kernel.tasks other) ≤ score (kernel.tasks tid)

/-- Where there are candidates, one of them scores at least 0. -/
structure NotAllBelow (kernel : Kernel) (cid : Nat) : Prop where
  own : (∃ tid ∈ kernel.rq cid, pickable kernel cid tid = true) →
    ∃ tid ∈ kernel.rq cid, pickable kernel cid tid = true ∧ 0 ≤ agedScore kernel cid tid
  peers : (∃ entry ∈ peerQueues kernel cid, stealable kernel cid entry.2 = true) →
    ∃ entry ∈ peerQueues kernel cid, stealable kernel cid entry.2 = true ∧
      0 ≤ score (kernel.tasks entry.2)

/-- A core leaves no work exactly when not all of its candidates score below 0. -/
theorem workConserving_iff (kernel : Kernel) (cid : Nat) :
    WorkConserving kernel cid ↔ NotAllBelow kernel cid := by
  constructor
  · intro conserving
    constructor
    · rintro ⟨tid, member, candidate⟩
      by_contra light
      have nobody : (rqPick kernel cid).2 = none := rqPick_none_iff.mpr fun other queued may =>
        not_le.mp fun heavy => light ⟨other, queued, may, heavy⟩
      exact absurd candidate (Bool.eq_false_iff.mp (conserving.picks nobody tid member))
    · rintro ⟨entry, member, candidate⟩
      by_contra light
      have nobody : (rqSteal kernel cid).2 = none := rqSteal_none_iff.mpr fun other queued may =>
        not_le.mp fun heavy => light ⟨other, queued, may, heavy⟩
      obtain ⟨bound, apart, queued⟩ := mem_peerQueues.mp member
      exact absurd candidate
        (Bool.eq_false_iff.mp (conserving.steals nobody _ _ bound apart queued))
  · intro notAll
    refine ⟨fun nobody tid member => Bool.eq_false_of_not_eq_true fun candidate => ?_,
      fun tid => rqPick_some,
      fun nobody source tid bound apart queued =>
        Bool.eq_false_of_not_eq_true fun candidate => ?_, fun tid stolen => ?_⟩
    · obtain ⟨other, queued, may, heavy⟩ := notAll.own ⟨tid, member, candidate⟩
      exact absurd (rqPick_none_iff.mp nobody other queued may) (not_lt.mpr heavy)
    · obtain ⟨other, inside, may, heavy⟩ :=
        notAll.peers ⟨(source, tid), mem_peerQueues.mpr ⟨bound, apart, queued⟩, candidate⟩
      exact absurd (rqSteal_none_iff.mp nobody other inside may) (not_lt.mpr heavy)
    · obtain ⟨source, member, candidate, most⟩ := rqSteal_some stolen
      obtain ⟨bound, apart, queued⟩ := mem_peerQueues.mp member
      exact ⟨source, bound, apart, queued, candidate, fun peer other bound' apart' queued' may =>
        most (peer, other) (mem_peerQueues.mpr ⟨bound', apart', queued'⟩) may⟩

/-- An app of the background class starts on core 0 of two and is niced to 19. -/
def backgroundHistory : List Label :=
  [.spawn 0 { threadArgs 0x300000 with priority := priorityBackground },
    .set 0 2 (.nice 19 rootUid)]

/-- The kernel after that history. -/
def backgroundKernel : Kernel := bootRun twoCores backgroundHistory

/-- Core 1 does not steal the app, which is ready on core 0. -/
theorem background_left : ¬∀ kernel cid, taskSystem.Reachable Transition.anyStep kernel →
    (∀ source < maxCpus, ∀ tid ∈ kernel.rq source,
      (0 ≤ (kernel.tasks tid).priority ∧ (kernel.tasks tid).priority ≤ 2) ∧
        -20 ≤ (kernel.tasks tid).nice ∧ (kernel.tasks tid).nice ≤ 19) →
    WorkConserving kernel cid := by
  intro claimed
  have conserving := claimed backgroundKernel 1 (bootRun_reachable (by decide +kernel))
    (by decide +kernel)
  have missed := conserving.steals (by decide +kernel) 0 2 (by decide +kernel) (by decide)
    (by decide +kernel)
  exact absurd missed (by decide +kernel)

end MectovOS.Sched
