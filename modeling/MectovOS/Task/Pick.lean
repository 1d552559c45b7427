/-
This file says once where the next task of a core can come from: its own queue,
a peer's queue, the core itself, or the core's idle task. A scan of the queue
changes nothing but the ticks its candidates have waited.
-/

import MectovOS.Task.Fixed

namespace MectovOS.Sched

open Function

/-! ### Ageing -/

/-- The second kernel is the first up to the ticks tasks have waited. -/
structure Aged (before after : Kernel) : Prop where
  kernel : after = { before with tasks := after.tasks }
  tasks : ∀ tid, ∃ wait, after.tasks tid = { before.tasks tid with waitTicks := wait }

theorem Aged.refl (kernel : Kernel) : Aged kernel kernel := ⟨rfl, fun _ => ⟨_, rfl⟩⟩

theorem Aged.trans {first second third : Kernel} (former : Aged first second)
    (latter : Aged second third) : Aged first third where
  kernel := by rw [latter.kernel, former.kernel]
  tasks tid := by
    obtain ⟨early, before⟩ := former.tasks tid
    obtain ⟨late, after⟩ := latter.tasks tid
    exact ⟨late, by rw [after, before]⟩

theorem aged_setTask (kernel : Kernel) (tid : Nat) (wait : Task → Int) :
    Aged kernel (kernel.setTask tid fun task => { task with waitTicks := wait task }) where
  kernel := rfl
  tasks other := by
    by_cases apart : other = tid
    · subst apart
      exact ⟨wait (kernel.tasks other), setTask_same _ _ _⟩
    · exact ⟨_, setTask_other _ _ apart⟩

section
variable {before after : Kernel}

theorem Aged.state (aged : Aged before after) (tid : Nat) :
    (after.tasks tid).state = (before.tasks tid).state := by
  obtain ⟨_, equal⟩ := aged.tasks tid
  rw [equal]

theorem Aged.isIdle (aged : Aged before after) (tid : Nat) :
    (after.tasks tid).isIdle = (before.tasks tid).isIdle := by
  obtain ⟨_, equal⟩ := aged.tasks tid
  rw [equal]

theorem Aged.rqCpu (aged : Aged before after) (tid : Nat) :
    (after.tasks tid).rqCpu = (before.tasks tid).rqCpu := by
  obtain ⟨_, equal⟩ := aged.tasks tid
  rw [equal]

theorem Aged.currentTask (aged : Aged before after) : after.currentTask = before.currentTask := by
  rw [aged.kernel]

theorem Aged.rq (aged : Aged before after) : after.rq = before.rq := by
  rw [aged.kernel]

theorem Aged.fixed (aged : Aged before after) : fixed after = fixed before := by
  refine fixed_iff.mpr ⟨aged.currentTask, ?_, ?_, ?_, ?_, fun tid => ?_, aged.isIdle,
    fun tid => ?_⟩
  · rw [aged.kernel]
  · rw [aged.kernel]
  · rw [aged.kernel]
  · rw [aged.kernel]
  · obtain ⟨_, equal⟩ := aged.tasks tid
    rw [equal]
  · obtain ⟨_, equal⟩ := aged.tasks tid
    rw [equal]

theorem Aged.elsewhere (aged : Aged before after) (cid tid : Nat) :
    taskIsCurrentElsewhere after cid tid = taskIsCurrentElsewhere before cid tid := by
  unfold taskIsCurrentElsewhere
  rw [aged.currentTask]

theorem Aged.pickable (aged : Aged before after) (cid tid : Nat) :
    pickable after cid tid = pickable before cid tid := by
  unfold Sched.pickable
  rw [aged.state, aged.isIdle, aged.elsewhere]

end

/-! ### The scans -/

theorem pickScan_spec (cid : Nat) (tids : List Nat) (kernel : Kernel) (best : Option Nat)
    (bestScore : Int) :
    Aged kernel (pickScan cid kernel best bestScore tids).1 ∧
      ∀ tid ∈ (pickScan cid kernel best bestScore tids).2,
        best = some tid ∨ (tid ∈ tids ∧ pickable kernel cid tid = true) := by
  induction tids generalizing kernel best bestScore with
  | nil => exact ⟨Aged.refl kernel, fun tid found => .inl found⟩
  | cons head rest inductionHypothesis =>
    have aged := aged_setTask kernel head fun task => task.waitTicks + 1
    unfold pickScan
    dsimp only
    split_ifs with accepted heavier
    · obtain ⟨later, found⟩ := inductionHypothesis (kernel.setTask head fun task =>
        { task with waitTicks := task.waitTicks + 1 }) (some head) _
      refine ⟨aged.trans later, fun tid picked => .inr ?_⟩
      rcases found tid picked with equal | ⟨member, pickable⟩
      · obtain rfl := Option.some.inj equal
        exact ⟨List.mem_cons_self, accepted⟩
      · exact ⟨List.mem_cons_of_mem _ member, (aged.pickable cid tid).symm.trans pickable⟩
    · obtain ⟨later, found⟩ := inductionHypothesis (kernel.setTask head fun task =>
        { task with waitTicks := task.waitTicks + 1 }) best bestScore
      refine ⟨aged.trans later, fun tid picked => (found tid picked).imp_right ?_⟩
      rintro ⟨member, pickable⟩
      exact ⟨List.mem_cons_of_mem _ member, (aged.pickable cid tid).symm.trans pickable⟩
    · obtain ⟨later, found⟩ := inductionHypothesis kernel best bestScore
      refine ⟨later, fun tid picked => (found tid picked).imp_right ?_⟩
      exact And.imp_left (List.mem_cons_of_mem _)

theorem rqPick_spec (kernel : Kernel) (cid : Nat) :
    Aged kernel (rqPick kernel cid).1 ∧
      ∀ tid ∈ (rqPick kernel cid).2, tid ∈ kernel.rq cid ∧ pickable kernel cid tid = true := by
  obtain ⟨aged, found⟩ := pickScan_spec cid (kernel.rq cid) kernel none (-1)
  unfold rqPick
  split
  · rename_i scanned picked
    rw [picked] at aged
    exact ⟨aged, fun tid none => by cases none⟩
  · rename_i scanned next picked
    rw [picked] at aged found
    refine ⟨aged.trans (aged_setTask scanned next fun _ => 0), fun tid equal => ?_⟩
    obtain rfl := Option.some.inj equal
    exact (found next rfl).resolve_left fun absent => by cases absent

theorem stealScan_spec (kernel : Kernel) (cid : Nat) (queued : List (Nat × Nat))
    (best : Option (Nat × Nat)) (bestScore : Int) :
    ∀ entry ∈ stealScan kernel cid best bestScore queued,
      best = some entry ∨ (entry ∈ queued ∧ stealable kernel cid entry.2 = true) := by
  induction queued generalizing best bestScore with
  | nil => exact fun entry found => .inl found
  | cons head rest inductionHypothesis =>
    obtain ⟨source, tid⟩ := head
    intro entry found
    unfold stealScan at found
    split_ifs at found with accepted
    · rcases inductionHypothesis _ _ entry found with equal | ⟨member, stealable⟩
      · obtain rfl := Option.some.inj equal
        exact .inr ⟨List.mem_cons_self, accepted.1⟩
      · exact .inr ⟨List.mem_cons_of_mem _ member, stealable⟩
    · exact (inductionHypothesis _ _ entry found).imp_right
        (And.imp_left (List.mem_cons_of_mem _))

theorem mem_peerQueues {kernel : Kernel} {cid source tid : Nat} :
    (source, tid) ∈ peerQueues kernel cid ↔
      source < rqCpuCount kernel ∧ source ≠ cid ∧ tid ∈ kernel.rq source := by
  simp only [peerQueues, List.mem_flatMap, List.mem_filter, List.mem_range, decide_eq_true_eq,
    List.mem_map, Prod.mk.injEq]
  constructor
  · rintro ⟨_, ⟨bound, apart⟩, _, member, rfl, rfl⟩
    exact ⟨bound, apart, member⟩
  · rintro ⟨bound, apart, member⟩
    exact ⟨source, ⟨bound, apart⟩, tid, member, rfl, rfl⟩

/-- A steal leaves the kernel alone or migrates one task from a peer. -/
theorem rqSteal_spec (kernel : Kernel) (cid : Nat) :
    rqSteal kernel cid = (kernel, none) ∨
      ∃ source tid, source < rqCpuCount kernel ∧ source ≠ cid ∧ tid ∈ kernel.rq source ∧
        stealable kernel cid tid = true ∧
        rqSteal kernel cid = (migrate kernel source cid tid, some tid) := by
  have found := stealScan_spec kernel cid (peerQueues kernel cid) none (-1)
  unfold rqSteal
  split
  · exact .inl rfl
  · rename_i source tid stolen
    rcases found (source, tid) stolen with absent | ⟨member, stealable⟩
    · cases absent
    · obtain ⟨bound, apart, queued⟩ := mem_peerQueues.mp member
      exact .inr ⟨source, tid, bound, apart, queued, stealable, rfl⟩

/-! ### Where the next task comes from -/

/-- The next task of a core, with the kernel after the choice. -/
inductive Chosen (before : Kernel) (cid : Nat) : Kernel → Nat → Prop
  | own {after : Kernel} {tid : Nat} : Aged before after → tid ∈ before.rq cid →
      pickable before cid tid = true → Chosen before cid after tid
  | stolen {scanned : Kernel} {source tid : Nat} : Aged before scanned →
      source < rqCpuCount scanned → source ≠ cid → tid ∈ scanned.rq source →
      stealable scanned cid tid = true →
      Chosen before cid (migrate scanned source cid tid) tid
  | kept {after : Kernel} {tid : Nat} : Aged before after → before.currentTask cid = some tid →
      (before.tasks tid).state = .ready ∨ (before.tasks tid).state = .running →
      Chosen before cid after tid
  | idle {after : Kernel} : Aged before after → Chosen before cid after (idleOf cid)

theorem Chosen.fixed {before after : Kernel} {cid tid : Nat}
    (chosen : Chosen before cid after tid) : fixed after = fixed before := by
  cases chosen with
  | own aged => exact aged.fixed
  | stolen aged => exact (fixed_migrate _ _ _ _).trans aged.fixed
  | kept aged => exact aged.fixed
  | idle aged => exact aged.fixed

theorem pickOrSteal_spec {kernel after : Kernel} {cid : Nat} {next : Option Nat}
    (chosen : pickOrSteal kernel cid = (after, next)) :
    (next = none ∧ Aged kernel after) ∨ ∃ tid, next = some tid ∧ Chosen kernel cid after tid := by
  obtain ⟨aged, found⟩ := rqPick_spec kernel cid
  unfold pickOrSteal at chosen
  split at chosen
  · rename_i scanned tid picked
    rw [picked] at aged found
    obtain ⟨rfl, rfl⟩ := Prod.mk.inj chosen
    exact .inr ⟨tid, rfl, .own aged (found tid rfl).1 (found tid rfl).2⟩
  · rename_i scanned picked
    rw [picked] at aged
    rcases rqSteal_spec scanned cid with
      nothing | ⟨source, tid, bound, apart, queued, stealable, stolen⟩
    · rw [nothing] at chosen
      obtain ⟨rfl, rfl⟩ := Prod.mk.inj chosen
      exact .inl ⟨rfl, aged⟩
    · rw [stolen] at chosen
      obtain ⟨rfl, rfl⟩ := Prod.mk.inj chosen
      exact .inr ⟨tid, rfl, .stolen aged bound apart queued stealable⟩

theorem chooseNext_spec {kernel after : Kernel} {cid : Nat} {next : Option Nat} {dead : Bool}
    (chosen : chooseNext kernel cid (kernel.currentTask cid) dead = (after, next)) :
    (next = none ∧ Aged kernel after) ∨ ∃ tid, next = some tid ∧ Chosen kernel cid after tid := by
  unfold chooseNext at chosen
  split at chosen
  · rename_i scanned tid picked
    obtain ⟨rfl, rfl⟩ := Prod.mk.inj chosen
    exact pickOrSteal_spec picked
  · rename_i scanned picked
    have aged : Aged kernel scanned :=
      (pickOrSteal_spec picked).elim And.right fun ⟨_, absent, _⟩ => by cases absent
    split at chosen
    · obtain ⟨rfl, rfl⟩ := Prod.mk.inj chosen
      exact .inl ⟨rfl, aged⟩
    · rename_i own current
      split_ifs at chosen with died apart runnable
      · obtain ⟨rfl, rfl⟩ := Prod.mk.inj chosen
        exact .inr ⟨_, rfl, .idle aged⟩
      · obtain ⟨rfl, rfl⟩ := Prod.mk.inj chosen
        exact .inl ⟨rfl, aged⟩
      · obtain ⟨rfl, rfl⟩ := Prod.mk.inj chosen
        rw [aged.state] at runnable
        exact .inr ⟨own, rfl, .kept aged current runnable⟩
      · obtain ⟨rfl, rfl⟩ := Prod.mk.inj chosen
        exact .inl ⟨rfl, aged⟩

theorem repick_spec {kernel after : Kernel} {cid : Nat} {cur next : Option Nat}
    (chosen : repick kernel cid cur = (after, next)) :
    (next = none ∧ Aged kernel after) ∨ ∃ tid, next = some tid ∧ Chosen kernel cid after tid := by
  unfold repick at chosen
  split at chosen
  · rename_i scanned tid picked
    obtain ⟨rfl, rfl⟩ := Prod.mk.inj chosen
    exact pickOrSteal_spec picked
  · rename_i scanned picked
    have aged : Aged kernel scanned :=
      (pickOrSteal_spec picked).elim And.right fun ⟨_, absent, _⟩ => by cases absent
    split_ifs at chosen with own
    · obtain ⟨rfl, rfl⟩ := Prod.mk.inj chosen
      exact .inl ⟨rfl, aged⟩
    · obtain ⟨rfl, rfl⟩ := Prod.mk.inj chosen
      exact .inr ⟨_, rfl, .idle aged⟩

/-! ### One tick -/

/-- Saving the current task writes no frame but its own. -/
theorem saveCurrent_spec (kernel : Kernel) (cid : Nat) (cur : Option Nat) (esp : Nat) :
    (saveCurrent kernel cid cur esp).currentTask = kernel.currentTask ∧
      (saveCurrent kernel cid cur esp).fresh = kernel.fresh ∧
      (saveCurrent kernel cid cur esp).smpCpuCount = kernel.smpCpuCount ∧
      ∀ tid, cur ≠ some tid →
        ((saveCurrent kernel cid cur esp).tasks tid).esp = (kernel.tasks tid).esp := by
  unfold saveCurrent
  split
  · exact ⟨rfl, rfl, rfl, fun _ _ => rfl⟩
  · rename_i own
    split
    · exact ⟨rfl, rfl, rfl, fun _ _ => rfl⟩
    · dsimp only
      split
      · obtain ⟨current, fresh, _, cores, _, frames, _⟩ := fixed_iff.mp (fixed_rqEnqueue
          (kernel.setTask own _) cid own)
        refine ⟨current, fresh, cores, fun tid apart => (frames tid).trans ?_⟩
        rw [setTask_other _ _ fun equal => apart (congrArg some equal.symm)]
      · refine ⟨rfl, rfl, rfl, fun tid apart => ?_⟩
        rw [setTask_other _ _ fun equal => apart (congrArg some equal.symm)]

/-- The kernel of a tick once the preempted frame is saved. -/
def savedKernel (kernel : Kernel) (cid esp : Nat) (sweep : Bool) : Kernel :=
  saveCurrent (upkeep kernel cid sweep) cid (kernel.currentTask cid) esp

theorem savedKernel_currentTask (kernel : Kernel) (cid esp : Nat) (sweep : Bool) :
    (savedKernel kernel cid esp sweep).currentTask = kernel.currentTask :=
  (saveCurrent_spec _ _ _ _).1.trans (fixed_iff.mp (fixed_upkeep kernel cid sweep)).1

/-- A tick ends after the upkeep, after the choice, or with a switch to the chosen task. -/
theorem schedule_cases {kernel after : Kernel} {cid esp ret : Nat} {sweep : Bool}
    {frames : Nat → UserFrame} (ticked : schedule kernel cid esp sweep frames = some (after, ret)) :
    after = upkeep kernel cid sweep ∨ Aged (savedKernel kernel cid esp sweep) after ∨
      ∃ chosen next dead, Chosen (savedKernel kernel cid esp sweep) cid chosen next ∧
        (after, ret) = switchTo (accountTick chosen (kernel.currentTask cid) dead) cid esp
          (kernel.currentTask cid) next frames := by
  unfold schedule at ticked
  dsimp only at ticked
  split_ifs at ticked
  · exact .inl (Prod.mk.inj (Option.some.inj ticked)).1.symm
  · refine .inr ?_
    split at ticked
    · rename_i chosen none
      change chooseNext (savedKernel kernel cid esp sweep) cid (kernel.currentTask cid) _ = _ at none
      rw [← savedKernel_currentTask kernel cid esp sweep] at none
      rcases chooseNext_spec none with ⟨_, aged⟩ | ⟨_, absent, _⟩
      · rw [← (Prod.mk.inj (Option.some.inj ticked)).1]
        exact .inl aged
      · cases absent
    · rename_i chosen next some
      change chooseNext (savedKernel kernel cid esp sweep) cid (kernel.currentTask cid) _ = _ at some
      rw [← savedKernel_currentTask kernel cid esp sweep] at some
      rcases chooseNext_spec some with ⟨absent, _⟩ | ⟨tid, equal, chosenNext⟩
      · cases absent
      · obtain rfl := Option.some.inj equal
        exact .inr ⟨chosen, next, _, chosenNext, (Option.some.inj ticked).symm⟩

theorem fixed_accountTick (kernel : Kernel) (cur : Option Nat) (dead : Bool) :
    fixed (accountTick kernel cur dead) = fixed kernel := by
  unfold accountTick
  split
  · rfl
  · split_ifs
    · exact fixed_setTask _ _ _ (by simp)
    · rfl

theorem commit_spec (kernel : Kernel) (cid next : Nat) :
    (commit kernel cid next).currentTask = update kernel.currentTask cid (some next) ∧
      (commit kernel cid next).fresh = update kernel.fresh next none ∧
      (commit kernel cid next).smpCpuCount = kernel.smpCpuCount ∧
      ∀ tid, ((commit kernel cid next).tasks tid).esp = (kernel.tasks tid).esp := by
  have same : ∀ tid, ((kernel.setTask next fun task =>
      { task with state := .running }).tasks tid).esp = (kernel.tasks tid).esp :=
    (fixed_iff.mp (fixed_setTask kernel next _ (by simp))).2.2.2.2.2.1
  unfold commit
  dsimp only
  have kept := fun kernel pageDir => fixed_iff.mp (fixed_vmmSwitchPageDir kernel cid pageDir)
  refine ⟨(kept _ _).1, (kept _ _).2.1, (kept _ _).2.2.2.1, fun tid => ?_⟩
  exact ((kept _ _).2.2.2.2.2.1 tid).trans (same tid)

theorem commit_currentTask (kernel : Kernel) (cid next : Nat) :
    (commit kernel cid next).currentTask = update kernel.currentTask cid (some next) :=
  (commit_spec kernel cid next).1

/-- What every delivery and every further commit keeps, the delivery loop keeps; it ends with
the core on the task it returns, or on a zombie. -/
theorem deliverLoop_rule {cid : Nat} {cur : Option Nat} {frames : Nat → UserFrame}
    (holds : Kernel → Prop)
    (aged : ∀ before after, Aged before after → holds before → holds after)
    (delivered : ∀ kernel next, holds kernel → kernel.currentTask cid = some next →
      holds (taskDeliverSignals kernel cid (frames next)).1)
    (committed : ∀ kernel after next tid, holds kernel → kernel.currentTask cid = some next →
      (kernel.tasks next).state = .zombie → Chosen kernel cid after tid →
      holds (commit after cid tid))
    (fuel : Nat) (kernel : Kernel) (next : Nat) (start : holds kernel)
    (current : kernel.currentTask cid = some next) :
    holds (deliverLoop cid cur frames fuel kernel next).1 ∧
      match (deliverLoop cid cur frames fuel kernel next).2 with
      | some final => (deliverLoop cid cur frames fuel kernel next).1.currentTask cid = some final
      | none => ∃ last, (deliverLoop cid cur frames fuel kernel next).1.currentTask cid = some last ∧
          ((deliverLoop cid cur frames fuel kernel next).1.tasks last).state = .zombie := by
  induction fuel generalizing kernel next with
  | zero => exact ⟨start, current⟩
  | succ fuel inductionHypothesis =>
    unfold deliverLoop
    split_ifs
    · have kept := delivered kernel next start current
      have same := (fixed_iff.mp (fixed_taskDeliverSignals kernel cid (frames next))).1
      split
      · rename_i later done
        rw [done] at kept same
        exact ⟨kept, (congrFun same cid).trans current⟩
      · rename_i later done
        rw [done] at kept same
        have still : later.currentTask cid = some next := (congrFun same cid).trans current
        dsimp only at kept
        split_ifs with died
        · split
          · rename_i idle nothing
            rcases repick_spec nothing with ⟨_, older⟩ | ⟨_, absent, _⟩
            · refine ⟨aged _ _ older kept, next, ?_, ?_⟩
              · rw [older.currentTask, still]
              · rw [older.state, died]
            · cases absent
          · rename_i chosen tid found
            rcases repick_spec found with ⟨absent, _⟩ | ⟨other, equal, chosenNext⟩
            · cases absent
            · obtain rfl := Option.some.inj equal
              refine inductionHypothesis _ _ (committed _ _ _ _ kept still died chosenNext) ?_
              rw [commit_currentTask, update_self]
        · exact inductionHypothesis _ _ kept still
    · exact ⟨start, current⟩

end MectovOS.Sched
