/-
This file closes the safety proof of the scheduler: creations keep the
invariant, `init_tasking` establishes it, and so it holds in every state that
the task layer reaches while nothing is done to a task the code does not check
for. A program that is killed and then puts itself to sleep breaks it.
-/

import MectovOS.Task.SafetyTick

namespace MectovOS.Sched

open Function

/-! ### Creations -/

theorem rosterOf_occupy (kernel : Kernel) (tid : Nat) (task : Task) (unqueued : task.rqCpu = none)
    (busy : task.isIdle = false) :
    rosterOf (occupy kernel tid task) = (rosterOf kernel).occupy tid task.ring task.waiting := by
  unfold occupy rosterOf
  simp only [field_setTask]
  rw [unqueued, busy]
  rfl

/-- A FREE slot is occupied and its task queued. -/
theorem safe_publish {kernel : Kernel} (safe : Safe kernel) {cpu tid : Nat}
    (core : cpu < kernel.smpCpuCount) (slot : tid < maxTasks)
    (unused : (kernel.tasks tid).state = .free) (task : Task) (unqueued : task.rqCpu = none)
    (busy : task.isIdle = false) : Safe (publish kernel cpu tid task) := by
  have roster := rosterOf_occupy kernel tid task unqueued busy
  have sane : (rosterOf (occupy kernel tid task)).Sane := by
    rw [roster]
    exact safe.sane.occupy slot unused
  have record : (occupy kernel tid task).tasks tid = { task with state := .ready } :=
    setTask_same _ _ _
  have placed : (rosterOf (occupy kernel tid task)).Placed (· = tid) := by
    intro other bound apart ready
    rw [roster] at ready ⊢
    simp only [Roster.occupy] at ready ⊢
    rw [update_of_ne apart] at ready ⊢
    exact safe.placed other bound not_false ready
  have joined := rosterOf_rqEnqueue sane slot core (by rw [record, unqueued])
    (by rw [record]; rfl) fun idle => by
      rw [record, busy] at idle
      cases idle
  have unpinned : kernel.smpCpuCount ≤ tid := safe.sane.unpinned (dead_iff.mpr (.inr unused))
  unfold publish Safe
  rw [joined]
  refine ⟨sane.enqueue slot core (congrArg Task.rqCpu record |>.trans unqueued)
    (congrArg (TaskState.dead ∘ Task.state) record) fun low => absurd low
      (Nat.not_lt_of_le unpinned), (placed.enqueue cpu tid).seat (.inl ?_)⟩
  simp only [Roster.enqueue]
  rw [update_self]
  exact Option.some_ne_none cpu

theorem safe_published {kernel : Kernel} (safe : Safe kernel) {first tid : Nat}
    (claimed : claimSlot kernel first = some tid) (task : Task) (unqueued : task.rqCpu = none)
    (busy : task.isIdle = false) : Safe (publish kernel (rqLeastLoaded kernel) tid task) := by
  obtain ⟨slot, -, unused, -⟩ := claimSlot_spec claimed
  exact safe_publish safe (rqLeastLoaded_lt safe.sane) slot unused task unqueued busy

theorem safe_createTask {kernel : Kernel} (safe : Safe kernel) (cid : Nat) :
    Safe (createTask kernel cid).1 := by
  unfold createTask
  split
  · exact safe
  · rename_i tid claimed
    have unused := List.find?_some claimed
    exact safe_publish safe (rqLeastLoaded_lt safe.sane)
      (List.mem_range.mp (List.mem_of_find?_eq_some claimed)) (of_decide_eq_true unused) _ rfl rfl

theorem safe_threadCreateEx {kernel : Kernel} (safe : Safe kernel) (cid : Nat)
    (args : ThreadArgs) : Safe (threadCreateEx kernel cid args).1 := by
  unfold threadCreateEx
  dsimp only
  split_ifs
  · exact safe
  · split
    · exact safe
    · rename_i tid claimed
      split_ifs
      · exact safe
      · exact safe_published safe claimed _ rfl rfl

theorem safe_spawnTask {kernel : Kernel} (safe : Safe kernel) (cid : Nat) (args : ThreadArgs) :
    Safe (spawnTask kernel cid args) := by
  have allocated : Safe (allocPageDir kernel args.pageDir) := safe
  have created := safe_threadCreateEx allocated cid args
  unfold spawnTask
  split
  · rename_i done
    rwa [done] at created
  · rename_i done
    rw [done] at created
    exact created

theorem safe_forkCommon {kernel : Kernel} (safe : Safe kernel) (cid : Nat) (args : ForkArgs) :
    Safe (forkCommon kernel cid args).1 := by
  have cloned : Safe (allocPageDir kernel args.clone) := safe
  unfold forkCommon
  split
  · exact safe
  · split_ifs
    · exact safe
    · dsimp only
      split
      · exact safe
      · rename_i tid claimed
        exact safe_published cloned claimed _ rfl rfl

theorem safe_taskForkExec {kernel : Kernel} (safe : Safe kernel) (cid : Nat)
    (args : ForkExecArgs) : Safe (taskForkExec kernel cid args).1 := by
  have built : Safe (allocPageDir kernel args.image) := safe
  unfold taskForkExec
  split
  · exact safe
  · split_ifs
    · exact safe
    · dsimp only
      split_ifs
      · exact safe
      · split
        · exact safe
        · rename_i tid claimed
          split_ifs
          · exact safe
          · exact safe_published built claimed _ rfl rfl

/-! ### exec and attributes -/

theorem rosterOf_taskExecSwitch (kernel : Kernel) (cid tid image : Nat) :
    rosterOf (taskExecSwitch kernel cid tid image) = rosterOf kernel := by
  unfold taskExecSwitch
  dsimp only
  split_ifs
  · exact rosterOf_vmmSwitchPageDir _ _ _
  · exact rosterOf_vmmSwitchPageDir _ _ _

theorem rosterOf_setAttribute (kernel : Kernel) (tid : Nat) (value : Attribute) :
    rosterOf (setAttribute kernel tid value) = rosterOf kernel := by
  unfold setAttribute
  split_ifs
  · rfl
  · refine rosterOf_unseen _ _ _ fun task => ?_
    cases value <;> simp only [Attribute.apply] <;> (try split_ifs) <;> simp

/-! ### Boot -/

/-- The roster of `init_tasking` once the idle tasks below `created` exist. -/
def bootRoster (cores created : Nat) : Roster where
  currentTask := fun cid => if cid = 0 then some 0 else none
  rq := fun cid => if cid < created then [cid] else []
  numTasks := created
  smpCpuCount := cores
  commits := []
  state := fun tid => if tid = 0 then .running else if tid < created then .ready else .free
  rqCpu := fun tid => if tid < created then some tid else none
  isIdle := fun tid => 0 < tid && tid < created
  ring := fun _ => 0
  waiting := fun _ => 0

theorem rosterOf_bootKernel (machine : Machine) :
    rosterOf (bootKernel machine) = bootRoster machine.cores 1 := by
  unfold rosterOf bootRoster
  simp only [bootKernel, Roster.mk.injEq, Nat.cast_one, true_and]
  refine ⟨?_, ?_, ?_, ?_, ?_, ?_⟩ <;> funext tid <;> rcases Nat.eq_zero_or_pos tid with rfl | positive
  all_goals first | rfl | simp [positive.ne', update_of_ne, bootTask]

/-- The next idle task goes into the slot of its core's number. -/
theorem claimSlot_boot {kernel : Kernel} {cores created : Nat} (positive : 0 < created)
    (room : created < maxCpus) (boot : rosterOf kernel = bootRoster cores created) :
    claimSlot kernel 1 = some created := by
  have states : ∀ tid, (kernel.tasks tid).state =
      if tid = 0 then .running else if tid < created then .ready else .free :=
    congrFun (congrArg Roster.state boot)
  have currents : ∀ cid, kernel.currentTask cid = if cid = 0 then some 0 else none :=
    congrFun (congrArg Roster.currentTask boot)
  have unnamed : slotStillCurrent kernel created = false := by
    refine slotStillCurrent_eq_false.mpr fun cid _ => ?_
    rw [currents]
    split_ifs
    · exact fun equal => positive.ne (Option.some.inj equal)
    · exact fun absent => by cases absent
  refine List.find?_range_eq_some.mpr ⟨?_, ?_, fun tid low => ?_⟩
  · rw [states, if_neg positive.ne', if_neg (lt_irrefl created), unnamed]
    simpa using Nat.succ_le_of_lt positive
  · exact List.mem_range.mpr (room.trans (by decide))
  · rw [states]
    rcases Nat.eq_zero_or_pos tid with rfl | above
    · rfl
    · rw [if_neg above.ne', if_pos low]
      simp

theorem rosterOf_createIdleTask {kernel : Kernel} {cores created : Nat} (positive : 0 < created)
    (room : created < maxCpus) (boot : rosterOf kernel = bootRoster cores created) :
    rosterOf (createIdleTask kernel created).1 = bootRoster cores (created + 1) := by
  unfold createIdleTask
  rw [claimSlot_boot positive room boot]
  dsimp only
  generalize filled : createIdleTaskFill kernel created (kernel.tasks created) = task
  have unqueued : task.rqCpu = none := filled ▸ rfl
  have idle : task.isIdle = true := filled ▸ rfl
  have ring : task.ring = 0 := filled ▸ rfl
  have waiting : task.waiting = 0 := filled ▸ rfl
  have record : (occupy kernel created task).tasks created = { task with state := .ready } :=
    setTask_same _ _ _
  have counted : kernel.numTasks = (created : Int) := congrArg Roster.numTasks boot
  have empty : (occupy kernel created task).rq created = [] :=
    (congrFun (congrArg Roster.rq boot) created).trans (if_neg (lt_irrefl created))
  unfold publish
  rw [rosterOf_rqEnqueue_of_short (room.trans (by decide)) room (by rw [empty]; decide)
    (by rw [record, unqueued]) (by rw [record]; rfl) fun _ => rfl]
  have occupied : rosterOf (occupy kernel created task) =
      { bootRoster cores created with
        numTasks := (created : Int) + 1
        state := update (bootRoster cores created).state created .ready
        rqCpu := update (bootRoster cores created).rqCpu created none
        isIdle := update (bootRoster cores created).isIdle created true
        ring := update (bootRoster cores created).ring created 0
        waiting := update (bootRoster cores created).waiting created 0 } := by
    rw [← boot]
    unfold occupy rosterOf
    simp only [field_setTask]
    rw [unqueued, idle, ring, waiting, ← counted]
    rfl
  rw [occupied]
  unfold Roster.enqueue bootRoster
  simp only [Roster.mk.injEq, true_and]
  refine ⟨?_, Nat.cast_succ created, ?_, ?_, ?_, ?_, ?_⟩ <;> funext other
  all_goals
    by_cases own : other = created
    · subst own
      simp [update_self, positive.ne', positive]
    · have same : other < created + 1 ↔ other < created := by omega
      simp only [update_of_ne own, same]

theorem rosterOf_initTasking (machine : Machine) :
    rosterOf (initTasking machine) = bootRoster machine.cores machine.cores := by
  have built : ∀ created, created < maxCpus → rosterOf
      (((List.range (created + 1)).filter (0 < ·)).foldl
        (fun kernel cpu => (createIdleTask kernel cpu).1) (bootKernel machine)) =
      bootRoster machine.cores (created + 1) := by
    intro created room
    induction created with
    | zero => exact rosterOf_bootKernel machine
    | succ created inductionHypothesis =>
      rw [List.range_succ, List.filter_append, List.foldl_append]
      exact rosterOf_createIdleTask (Nat.succ_pos created) room
        (inductionHypothesis (Nat.lt_of_succ_lt room))
  have reached := built (machine.cores - 1)
    ((Nat.sub_lt machine.cores_pos Nat.one_pos).trans_le machine.cores_le)
  rwa [Nat.sub_add_cancel machine.cores_pos] at reached

theorem live_bootRoster {cores : Nat} (positive : 0 < cores) (bound : cores ≤ maxCpus) :
    (bootRoster cores cores).live = Finset.range cores := by
  ext tid
  rw [Roster.mem_live, Finset.mem_range]
  simp only [bootRoster]
  constructor
  · rintro ⟨_, used⟩
    by_contra high
    have nonzero : tid ≠ 0 := fun zero => high (zero.symm ▸ positive)
    exact used (by rw [if_neg nonzero, if_neg high])
  · intro low
    refine ⟨low.trans_le (bound.trans (by decide)), ?_⟩
    split_ifs <;> exact TaskState.noConfusion

theorem bootRoster_safe {cores : Nat} (positive : 0 < cores) (bound : cores ≤ maxCpus) :
    (bootRoster cores cores).Safe := by
  have current : ∀ {cid tid}, (bootRoster cores cores).currentTask cid = some tid →
      cid = 0 ∧ tid = 0 := by
    intro cid tid equal
    simp only [bootRoster] at equal
    split_ifs at equal with first
    exact ⟨first, (Option.some.inj equal).symm⟩
  have home : ∀ {tid cpu}, (bootRoster cores cores).rqCpu tid = some cpu →
      tid < cores ∧ tid = cpu := by
    intro tid cpu equal
    simp only [bootRoster] at equal
    split_ifs at equal with low
    exact ⟨low, Option.some.inj equal⟩
  have alive : ∀ {tid}, tid < cores → ((bootRoster cores cores).state tid).dead = false := by
    intro tid low
    simp only [bootRoster]
    split_ifs <;> rfl
  have sane : (bootRoster cores cores).Sane :=
    { cores_pos := positive
      cores_le := bound
      current_core := fun cid tid equal => (current equal).1 ▸ positive
      current_slot := fun cid tid equal => (current equal).2 ▸ by decide
      current_once := fun first second tid former latter =>
        (current former).1.trans (current latter).1.symm
      queued := by
        intro cpu tid
        simp only [bootRoster]
        split_ifs with high low low
        · rw [List.mem_singleton, Option.some.injEq]
          exact ⟨fun equal => ⟨equal ▸ high.trans_le (bound.trans (by decide)), equal⟩, And.right⟩
        · refine iff_of_false (fun member => low ?_) fun member => by cases member.2
          rwa [List.mem_singleton.mp member]
        · refine iff_of_false List.not_mem_nil fun member => high ?_
          rwa [← Option.some.inj member.2]
        · exact iff_of_false List.not_mem_nil fun member => by cases member.2
      queued_once := by
        intro cpu
        simp only [bootRoster]
        split_ifs
        · exact List.nodup_singleton cpu
        · exact List.nodup_nil
      queue_core := fun tid cpu _ equal => (home equal).2 ▸ (home equal).1
      dead_unqueued := by
        intro tid _ dead
        by_contra queued
        obtain ⟨cpu, equal⟩ := Option.ne_none_iff_exists'.mp queued
        rw [alive (home equal).1] at dead
        cases dead
      pinned_queue := fun tid cpu _ equal => (home equal).2.symm
      pinned_current := fun tid cid _ equal => (current equal).1.trans (current equal).2.symm
      pinned_alive := fun tid low => alive low
      idle_iff := by
        intro tid _
        simp only [bootRoster, Bool.and_eq_true, decide_eq_true_eq]
      idle_ring := fun _ _ _ => rfl
      idle_waiting := fun _ _ _ => rfl
      idle_state := by
        intro tid above low
        change tid < cores at low
        simp only [bootRoster]
        rw [if_neg above.ne', if_pos low]
        exact ⟨TaskState.noConfusion, TaskState.noConfusion⟩
      count := by
        rw [live_bootRoster positive bound, Finset.card_range]
        rfl
      committed_alive := fun entry member => by cases member }
  refine ⟨sane, fun tid _ _ ready => .inl ?_⟩
  simp only [bootRoster] at ready ⊢
  split_ifs at ready ⊢ with first low low
  exact Option.some_ne_none tid

theorem safe_initTasking (machine : Machine) : Safe (initTasking machine) := by
  unfold Safe
  rw [rosterOf_initTasking]
  exact bootRoster_safe machine.cores_pos machine.cores_le

/-! ### Runs -/

/-- What the code relies on without checking it: a task that parks itself still has its slot, a
signal fits its task, and no task that is pinned to a core is woken while no core is on it. -/
def Orderly (kernel : Kernel) : Label → Prop
  | .tick cid _ _ _ => cid = 0 → sleepEnds (kernel.tasks 0) → ¬Stranded kernel 0
  | .signal _ tid sig => 0 < tid → tid < maxTasks → SignalFits kernel tid sig
  | .sleep cid _ | .block cid | .waitPark cid _ =>
    ∀ tid, kernel.currentTask cid = some tid → (kernel.tasks tid).state ≠ .free
  | .wake _ tid => (kernel.tasks tid).state = .sleep → ¬Stranded kernel tid
  | .unblock _ tid => (kernel.tasks tid).state ≠ .ready → ¬Stranded kernel tid
  | _ => True

theorem caller_spec {kernel : Kernel} {cid tid : Nat} (called : caller kernel cid = some tid) :
    kernel.currentTask cid = some tid ∧ (kernel.tasks tid).isIdle = false := by
  unfold caller at called
  split_ifs at called
  obtain ⟨current, busy⟩ := Option.filter_eq_some_iff.mp called
  exact ⟨current, Bool.not_eq_true' _ ▸ busy⟩

theorem caller_mortal {kernel : Kernel} {cid self : Nat} (called : caller kernel cid = some self)
    (tid : Nat) (current : kernel.currentTask cid = some tid) :
    (kernel.tasks tid).isIdle = false := by
  obtain ⟨named, busy⟩ := caller_spec called
  rw [named] at current
  exact Option.some.inj current ▸ busy

theorem Safe.step {kernel after : Kernel} {label : Label} (safe : Safe kernel)
    (orderly : Orderly kernel label) (stepped : step kernel label = some after) : Safe after := by
  cases label <;> simp only [Sched.step, Option.map_eq_some_iff, Option.bind_eq_some_iff,
    Option.ite_none_right_eq_some, Option.ite_none_left_eq_some, Option.some.injEq] at stepped
  case tick cid esp sweep frames =>
    obtain ⟨⟨quiet, returns⟩, ⟨_, ret⟩, ticked, rfl⟩ := stepped
    exact safe_schedule safe (quiet_core quiet) returns orderly ticked
  case clock ticks =>
    subst stepped
    exact safe
  case createTask cid =>
    obtain ⟨_, _, rfl⟩ := stepped
    exact safe_createTask safe cid
  case spawn cid args =>
    obtain ⟨_, _, _, rfl⟩ := stepped
    exact safe_spawnTask safe cid args
  case threadBegin cid =>
    obtain ⟨_, _, _, rfl⟩ := stepped
    exact safe
  case threadCreate cid args =>
    obtain ⟨_, rfl⟩ := stepped
    exact @safe_threadCreateEx (setPending kernel cid none) safe cid args
  case fork cid args =>
    obtain ⟨_, _, _, _, rfl⟩ := stepped
    exact safe_forkCommon safe cid args
  case forkExec cid args =>
    obtain ⟨_, _, _, rfl⟩ := stepped
    exact safe_taskForkExec safe cid args
  case execSwitch cid image =>
    obtain ⟨tid, _, _, _, rfl⟩ := stepped
    have same := rosterOf_taskExecSwitch (allocPageDir kernel image) cid tid image
    change (rosterOf (taskExecSwitch (allocPageDir kernel image) cid tid image)).Safe
    rw [same]
    exact safe
  case execRewire cid args =>
    split at stepped
    · rw [← Option.some.inj stepped]
      unfold taskExecRewire Safe
      rw [rosterOf_unseen _ _ _ (by simp)]
      exact safe
    · cases stepped
  case exit cid code =>
    obtain ⟨self, called, rfl⟩ := stepped
    unfold taskExitWithCode
    split
    · exact safe
    · rename_i tid current
      split_ifs
      · exact safe
      · exact safe_terminateTask safe cid code fun _ => caller_mortal called tid current
  case signal cid tid sig =>
    obtain ⟨_, rfl⟩ := stepped
    exact safe_taskSignal safe cid orderly
  case deliver cid frame =>
    obtain ⟨self, called, rfl⟩ := stepped
    exact safe_taskDeliverSignals safe fun tid current _ => caller_mortal called tid current
  case fault cid sig frame =>
    obtain ⟨self, called, rfl⟩ := stepped
    exact safe_taskFaultSignal safe sig frame (caller_mortal called)
  case sleep cid ticks =>
    obtain ⟨self, called, rfl⟩ := stepped
    exact safe_taskSleep safe ticks fun tid current =>
      ⟨caller_mortal called tid current, orderly tid current⟩
  case wake cid tid =>
    obtain ⟨_, rfl⟩ := stepped
    exact safe_taskWake safe orderly
  case block cid =>
    obtain ⟨self, called, rfl⟩ := stepped
    exact safe_block safe (orderly self (caller_spec called).1)
  case unblock cid tid =>
    obtain ⟨_, rfl⟩ := stepped
    exact safe_unblock safe orderly
  case waitReap cid child =>
    obtain ⟨self, _, bad, rfl⟩ := stepped
    rw [not_or, not_or] at bad
    exact safe_waitpidReap safe self (Nat.lt_of_not_le bad.2.2)
  case waitPark cid pid =>
    obtain ⟨self, called, nonzero, rfl⟩ := stepped
    obtain ⟨current, busy⟩ := caller_spec called
    exact safe_waitpidPark safe pid current
      (safe.unpinned (safe.slot current) (Nat.pos_of_ne_zero nonzero) busy) (orderly self current)
  case waitDone cid =>
    obtain ⟨self, _, rfl⟩ := stepped
    exact safe_waitDone safe self
  case reap cid now =>
    obtain ⟨_, _, rfl⟩ := stepped
    exact safe_taskReapZombies safe now
  case set cid tid value =>
    obtain ⟨_, rfl⟩ := stepped
    unfold Safe
    rw [rosterOf_setAttribute]
    exact safe

/-- The safety of the scheduler, in every state between two critical sections. -/
structure SchedulerSafe (kernel : Kernel) : Prop where
  current_once : ∀ first second tid, kernel.currentTask first = some tid →
    kernel.currentTask second = some tid → first = second
  queued_once : ∀ cpu, (kernel.rq cpu).Nodup
  queued_iff : ∀ cpu tid, tid ∈ kernel.rq cpu ↔
    tid < maxTasks ∧ (kernel.tasks tid).rqCpu = some cpu
  queued_alive : ∀ cpu tid, tid ∈ kernel.rq cpu → (kernel.tasks tid).state.dead = false
  committed_alive : ∀ entry ∈ kernel.commits, entry.2.dead = false
  ready_placed : ∀ tid, tid < maxTasks → (kernel.tasks tid).state = .ready →
    (∃ cpu, tid ∈ kernel.rq cpu) ∨ ∃ cid, kernel.currentTask cid = some tid
  idle_home : ∀ cid tid, kernel.currentTask cid = some tid → (kernel.tasks tid).isIdle = true →
    cid = tid
  num_tasks : kernel.numTasks =
    ((List.range maxTasks).countP fun tid => (kernel.tasks tid).state ≠ .free)

theorem Safe.schedulerSafe {kernel : Kernel} (safe : Safe kernel) : SchedulerSafe kernel where
  current_once := safe.sane.current_once
  queued_once := safe.sane.queued_once
  queued_iff := safe.sane.queued
  queued_alive := by
    intro cpu tid member
    obtain ⟨slot, home⟩ := (safe.sane.queued cpu tid).mp member
    by_contra alive
    have unqueued := safe.sane.dead_unqueued tid slot (Bool.not_eq_false _ ▸ alive)
    exact Option.some_ne_none cpu (home.symm.trans unqueued)
  committed_alive := safe.sane.committed_alive
  ready_placed := by
    intro tid slot ready
    refine (safe.placed tid slot not_false ready).imp_left fun queued => ?_
    obtain ⟨cpu, home⟩ := Option.ne_none_iff_exists'.mp queued
    exact ⟨cpu, (safe.sane.queued cpu tid).mpr ⟨slot, home⟩⟩
  idle_home := by
    intro cid tid current idle
    exact safe.sane.pinned_current tid cid
      ((safe.sane.idle_iff tid (safe.slot current)).mp idle).2 current
  num_tasks := by
    refine safe.sane.count.trans (congrArg Nat.cast ?_)
    rw [List.countP_eq_length_filter]
    rfl

/-- In every run whose steps are orderly, the scheduler is safe in every state. -/
theorem scheduler_safe {kernel : Kernel} (reachable : taskSystem.Reachable Orderly kernel) :
    SchedulerSafe kernel := by
  have safe : Safe kernel := by
    refine reachable.invariant Safe ?_ fun _ _ _ safe orderly stepped => safe.step orderly stepped
    rintro _ ⟨machine, rfl⟩
    exact safe_initTasking machine
  exact safe.schedulerSafe

theorem scheduler_safe_spawned :
    SchedulerSafe (spawnTask (initTasking twoCores) 0 (threadArgs 0x300000)) := by
  have spawned : step (initTasking twoCores) (.spawn 0 (threadArgs 0x300000)) =
      some (spawnTask (initTasking twoCores) 0 (threadArgs 0x300000)) := by
    have called : (caller (initTasking twoCores) 0).isSome = true := by decide +kernel
    have allocated : freshDir (initTasking twoCores) 0x300000 = true := by decide +kernel
    obtain ⟨tid, current⟩ := Option.isSome_iff_exists.mp called
    simp only [step, current, Option.bind_some, threadArgs, allocated, if_true]
  have orderly : Orderly (initTasking twoCores) (.spawn 0 (threadArgs 0x300000)) := trivial
  exact scheduler_safe (.step (.init ⟨twoCores, rfl⟩) orderly spawned)

/-! ### A killed task goes to sleep -/

/-- Two apps are started, the second on core 1; the kernel task kills it while it runs there,
and the app reaches its call of `task_sleep` before core 1 ticks. -/
def killedSleeper : List Label :=
  [.spawn 0 (threadArgs 0x300000), .spawn 0 (threadArgs 0x400000),
    .tick 1 0x209000 false (fun tid => ⟨tid = 3, true, 0xBFFFE000⟩), .signal 0 3 9, .sleep 1 50]

/-- The kill frees the slot, the sleep parks it again: a task that nothing counts. -/
theorem killed_sleeper_uncounted :
    ¬∀ kernel, taskSystem.Reachable Transition.anyStep kernel → SchedulerSafe kernel := by
  intro claimed
  have completes : ((Transition.execute step (initTasking twoCores) killedSleeper).map fun kernel =>
      (kernel.numTasks, (List.range maxTasks).countP fun tid =>
        (kernel.tasks tid).state ≠ .free)) = some (3, 4) := by decide +kernel
  obtain ⟨kernel, run, counted⟩ := Option.map_eq_some_iff.mp completes
  have count := (claimed kernel
    (Transition.reachable_execute (.init ⟨twoCores, rfl⟩) run)).num_tasks
  obtain ⟨tasks, live⟩ := Prod.mk.inj counted
  rw [tasks, live] at count
  exact absurd count (by decide)

end MectovOS.Sched
