/-
This file follows the saved frame of a new task from its creation to the tick
that first resumes it. As long as no creation takes a slot that a core still
names as current, no tick writes over a frame that was built and never resumed,
and the first resume returns exactly that frame. `create_task` does not look at
the cores, so for it this is a condition on the slot it finds first.
-/

import MectovOS.Task.Pick

namespace MectovOS.Sched

open Function

/-! ### The invariant -/

/-- A frame that was built and never resumed is still the saved frame of its task, and no
core names that task as current. -/
structure FramesKept (kernel : Kernel) : Prop where
  cores : kernel.smpCpuCount ≤ maxCpus
  kept : ∀ tid frame, kernel.fresh tid = some frame →
    (kernel.tasks tid).esp = frame ∧ slotStillCurrent kernel tid = false

theorem FramesKept.of_fixed {before after : Kernel} (framesKept : FramesKept before)
    (same : fixed after = fixed before) : FramesKept after := by
  obtain ⟨current, fresh, _, cores, _, esp, _⟩ := fixed_iff.mp same
  refine ⟨cores ▸ framesKept.cores, fun tid frame built => ?_⟩
  rw [fresh] at built
  refine ⟨(esp tid).trans (framesKept.kept tid frame built).1, ?_⟩
  rw [slotStillCurrent_eq_false, current, ← slotStillCurrent_eq_false]
  exact (framesKept.kept tid frame built).2

/-! ### Creations -/

theorem FramesKept.publish {kernel : Kernel} (framesKept : FramesKept kernel) (cpu : Nat)
    {tid : Nat} (unclaimed : slotStillCurrent kernel tid = false) (task : Task) :
    FramesKept (publish kernel cpu tid task) := by
  refine FramesKept.of_fixed ?_ (fixed_rqEnqueue _ _ _)
  refine ⟨framesKept.cores, fun other frame built => ?_⟩
  by_cases apart : other = tid
  · subst apart
    change update kernel.fresh other _ other = some frame at built
    rw [update_self] at built
    exact ⟨(congrArg Task.esp (setTask_same _ _ _)).trans (Option.some.inj built), unclaimed⟩
  · change update kernel.fresh tid _ other = some frame at built
    rw [update_of_ne apart] at built
    obtain ⟨saved, elsewhere⟩ := framesKept.kept other frame built
    exact ⟨(congrArg Task.esp (setTask_other _ _ apart)).trans saved, elsewhere⟩

theorem FramesKept.claimed {kernel : Kernel} (framesKept : FramesKept kernel) {first : Nat}
    (cpu : Nat) {tid : Nat} (claimed : claimSlot kernel first = some tid) (task : Task) :
    FramesKept (Sched.publish kernel cpu tid task) :=
  framesKept.publish cpu (claimSlot_spec claimed).2.2.2 task

theorem FramesKept.createTask {kernel : Kernel} (framesKept : FramesKept kernel) (cid : Nat)
    (released : ∀ tid, claimAnySlot kernel = some tid → slotStillCurrent kernel tid = false) :
    FramesKept (createTask kernel cid).1 := by
  unfold Sched.createTask
  split
  · exact framesKept
  · rename_i tid found
    exact framesKept.publish _ (released tid found) _

theorem FramesKept.createIdleTask {kernel : Kernel} (framesKept : FramesKept kernel) (cpu : Nat) :
    FramesKept (createIdleTask kernel cpu).1 := by
  unfold Sched.createIdleTask
  split
  · exact framesKept
  · rename_i tid claimed
    exact framesKept.claimed _ claimed _

theorem FramesKept.threadCreateEx {kernel : Kernel} (framesKept : FramesKept kernel) (cid : Nat)
    (args : ThreadArgs) : FramesKept (threadCreateEx kernel cid args).1 := by
  unfold Sched.threadCreateEx
  dsimp only
  split_ifs
  · exact framesKept
  · split
    · exact framesKept
    · rename_i tid claimed
      split_ifs
      · exact framesKept
      · exact framesKept.claimed _ claimed _

theorem FramesKept.forkCommon {kernel : Kernel} (framesKept : FramesKept kernel) (cid : Nat)
    (args : ForkArgs) : FramesKept (forkCommon kernel cid args).1 := by
  have cloned : FramesKept (allocPageDir kernel args.clone) := framesKept.of_fixed rfl
  unfold Sched.forkCommon
  split
  · exact framesKept
  · split_ifs
    · exact framesKept
    · dsimp only
      split
      · exact cloned.of_fixed rfl
      · rename_i tid claimed
        exact cloned.claimed _ claimed _

theorem FramesKept.taskForkExec {kernel : Kernel} (framesKept : FramesKept kernel) (cid : Nat)
    (args : ForkExecArgs) : FramesKept (taskForkExec kernel cid args).1 := by
  have built : FramesKept (allocPageDir kernel args.image) := framesKept.of_fixed rfl
  unfold Sched.taskForkExec
  split
  · exact framesKept
  · split_ifs
    · exact framesKept
    · dsimp only
      split_ifs
      · exact built.of_fixed rfl
      · split
        · exact built.of_fixed rfl
        · rename_i tid claimed
          split_ifs
          · exact built.of_fixed rfl
          · exact built.claimed _ claimed _

/-! ### schedule -/

theorem FramesKept.saveCurrent {kernel : Kernel} (framesKept : FramesKept kernel) {cid : Nat}
    (core : cid < maxCpus) (esp : Nat) :
    FramesKept (saveCurrent kernel cid (kernel.currentTask cid) esp) := by
  obtain ⟨current, fresh, cores, frames⟩ :=
    saveCurrent_spec kernel cid (kernel.currentTask cid) esp
  refine ⟨cores ▸ framesKept.cores, fun tid frame built => ?_⟩
  rw [fresh] at built
  obtain ⟨saved, unclaimed⟩ := framesKept.kept tid frame built
  refine ⟨(frames tid (slotStillCurrent_eq_false.mp unclaimed cid core)).trans saved, ?_⟩
  rw [slotStillCurrent_eq_false, current, ← slotStillCurrent_eq_false]
  exact unclaimed

/-- The committed task has no fresh frame left; every other one keeps its frame and stays
current nowhere. -/
theorem FramesKept.commit {kernel : Kernel} (framesKept : FramesKept kernel) (cid next : Nat) :
    FramesKept (commit kernel cid next) := by
  obtain ⟨current, fresh, cores, frames⟩ := commit_spec kernel cid next
  refine ⟨cores ▸ framesKept.cores, fun tid frame built => ?_⟩
  rw [fresh] at built
  by_cases apart : tid = next
  · rw [apart, update_self] at built
    cases built
  · rw [update_of_ne apart] at built
    obtain ⟨saved, unclaimed⟩ := framesKept.kept tid frame built
    refine ⟨(frames tid).trans saved, slotStillCurrent_eq_false.mpr fun other bound => ?_⟩
    rw [current]
    by_cases here : other = cid
    · rw [here, update_self]
      exact fun equal => apart (Option.some.inj equal).symm
    · rw [update_of_ne here]
      exact slotStillCurrent_eq_false.mp unclaimed other bound

theorem FramesKept.switchTo {kernel : Kernel} (framesKept : FramesKept kernel) (cid esp : Nat)
    (cur : Option Nat) (next : Nat) (frames : Nat → UserFrame) :
    FramesKept (switchTo kernel cid esp cur next frames).1 := by
  have delivered := (@deliverLoop_rule cid cur frames FramesKept
    (fun _ _ aged kept => kept.of_fixed aged.fixed)
    (fun _ _ kept _ => kept.of_fixed (fixed_taskDeliverSignals _ _ _))
    (fun _ _ _ _ kept _ _ chosen => (kept.of_fixed chosen.fixed).commit _ _)
    deliverFuel _ _ (framesKept.commit cid next)
    (by rw [commit_currentTask, update_self])).1
  unfold Sched.switchTo
  dsimp only
  split_ifs
  · exact framesKept
  · split
    · rename_i done
      rwa [done] at delivered
    · rename_i done
      rwa [done] at delivered
  · exact framesKept.commit cid next

theorem FramesKept.savedKernel {kernel : Kernel} (framesKept : FramesKept kernel) {cid : Nat}
    (core : cid < maxCpus) (esp : Nat) (sweep : Bool) :
    FramesKept (savedKernel kernel cid esp sweep) := by
  have upkept := framesKept.of_fixed (fixed_upkeep kernel cid sweep)
  have current := (fixed_iff.mp (fixed_upkeep kernel cid sweep)).1
  unfold Sched.savedKernel
  rw [← congrFun current cid]
  exact upkept.saveCurrent core esp

theorem FramesKept.schedule {kernel after : Kernel} (framesKept : FramesKept kernel)
    {cid esp ret : Nat} {sweep : Bool} {frames : Nat → UserFrame} (core : cid < maxCpus)
    (ticked : schedule kernel cid esp sweep frames = some (after, ret)) : FramesKept after := by
  have saved := framesKept.savedKernel core esp sweep
  rcases schedule_cases ticked with rfl | aged | ⟨chosen, next, dead, chosenNext, switched⟩
  · exact framesKept.of_fixed (fixed_upkeep _ _ _)
  · exact saved.of_fixed aged.fixed
  · have ready := (saved.of_fixed chosenNext.fixed).of_fixed
      (fixed_accountTick chosen (kernel.currentTask cid) dead)
    have result := ready.switchTo cid esp (kernel.currentTask cid) next frames
    rwa [← switched] at result

/-! ### Every step -/

/-- The step does not let `create_task` take a slot that a core still names as current. -/
def TakesReleased (kernel : Kernel) : Label → Prop
  | .createTask _ =>
    ∀ tid, claimAnySlot kernel = some tid → slotStillCurrent kernel tid = false
  | _ => True

theorem FramesKept.spawnTask {kernel : Kernel} (framesKept : FramesKept kernel) (cid : Nat)
    (args : ThreadArgs) : FramesKept (spawnTask kernel cid args) := by
  have allocated : FramesKept (allocPageDir kernel args.pageDir) := framesKept.of_fixed rfl
  have created := allocated.threadCreateEx cid args
  unfold Sched.spawnTask
  split
  · rename_i done
    rwa [done] at created
  · rename_i done
    rw [done] at created
    exact created.of_fixed rfl

theorem setPending_framesKept {kernel : Kernel} {cid : Nat} {pending : Option Pending}
    (framesKept : FramesKept kernel) : FramesKept (setPending kernel cid pending) :=
  ⟨framesKept.cores, framesKept.kept⟩

theorem FramesKept.step {kernel after : Kernel} {label : Label} (framesKept : FramesKept kernel)
    (released : TakesReleased kernel label) (stepped : step kernel label = some after) :
    FramesKept after := by
  cases label <;> simp only [Sched.step, Option.map_eq_some_iff, Option.bind_eq_some_iff,
    Option.ite_none_right_eq_some, Option.ite_none_left_eq_some, Option.some.injEq] at stepped
  case tick cid esp sweep frames =>
    obtain ⟨⟨quiet, _⟩, ⟨_, ret⟩, ticked, rfl⟩ := stepped
    exact framesKept.schedule ((quiet_core quiet).trans_le framesKept.cores) ticked
  case clock ticks =>
    subst stepped
    exact framesKept.of_fixed rfl
  case createTask cid =>
    obtain ⟨_, _, rfl⟩ := stepped
    exact framesKept.createTask cid released
  case spawn cid args =>
    obtain ⟨_, _, _, rfl⟩ := stepped
    exact framesKept.spawnTask cid args
  case threadBegin cid =>
    obtain ⟨_, _, _, rfl⟩ := stepped
    exact setPending_framesKept framesKept
  case threadCreate cid args =>
    obtain ⟨_, rfl⟩ := stepped
    exact (setPending_framesKept framesKept).threadCreateEx cid args
  case fork cid args =>
    obtain ⟨_, _, _, _, rfl⟩ := stepped
    exact framesKept.forkCommon cid args
  case forkExec cid args =>
    obtain ⟨_, _, _, rfl⟩ := stepped
    exact framesKept.taskForkExec cid args
  case execSwitch cid image =>
    obtain ⟨tid, _, _, _, rfl⟩ := stepped
    have allocated : FramesKept (allocPageDir kernel image) := framesKept.of_fixed rfl
    exact setPending_framesKept (allocated.of_fixed (fixed_taskExecSwitch _ _ _ _))
  case execRewire cid args =>
    split at stepped
    · rw [← Option.some.inj stepped]
      exact (setPending_framesKept framesKept).of_fixed (fixed_taskExecRewire _ _ _ _)
    · cases stepped
  case exit cid code =>
    obtain ⟨_, _, rfl⟩ := stepped
    exact framesKept.of_fixed (fixed_taskExitWithCode _ _ _)
  case signal cid tid sig =>
    obtain ⟨_, rfl⟩ := stepped
    exact framesKept.of_fixed (fixed_taskSignal _ _ _ _)
  case deliver cid frame =>
    obtain ⟨_, _, rfl⟩ := stepped
    exact framesKept.of_fixed (fixed_taskDeliverSignals _ _ _)
  case fault cid sig frame =>
    obtain ⟨_, _, rfl⟩ := stepped
    exact framesKept.of_fixed (fixed_taskFaultSignal _ _ _ _)
  case sleep cid ticks =>
    obtain ⟨_, _, rfl⟩ := stepped
    exact framesKept.of_fixed (fixed_taskSleep _ _ _)
  case wake cid tid =>
    obtain ⟨_, rfl⟩ := stepped
    exact framesKept.of_fixed (fixed_taskWake _ _)
  case block cid =>
    obtain ⟨_, _, rfl⟩ := stepped
    exact framesKept.of_fixed (fixed_taskSetState _ _ _)
  case unblock cid tid =>
    obtain ⟨_, rfl⟩ := stepped
    exact framesKept.of_fixed (fixed_taskSetState _ _ _)
  case waitReap cid child =>
    obtain ⟨_, _, _, rfl⟩ := stepped
    exact framesKept.of_fixed (fixed_waitpidReap _ _ _)
  case waitPark cid pid =>
    obtain ⟨_, _, _, rfl⟩ := stepped
    exact framesKept.of_fixed (fixed_waitpidPark _ _ _)
  case waitDone cid =>
    obtain ⟨_, _, rfl⟩ := stepped
    exact framesKept.of_fixed (fixed_setTask _ _ _ (by simp))
  case reap cid now =>
    obtain ⟨_, _, rfl⟩ := stepped
    exact framesKept.of_fixed (fixed_taskReapZombies _ _)
  case set cid tid value =>
    obtain ⟨_, rfl⟩ := stepped
    exact framesKept.of_fixed (fixed_setAttribute _ _ _)

theorem framesKept_initTasking (machine : Machine) : FramesKept (initTasking machine) := by
  have boot : FramesKept (bootKernel machine) := ⟨machine.cores_le, fun tid frame built => by
    cases built⟩
  unfold initTasking
  generalize (List.range machine.cores).filter (0 < ·) = cpus
  generalize bootKernel machine = kernel at boot ⊢
  induction cpus generalizing kernel with
  | nil => exact boot
  | cons cpu rest inductionHypothesis =>
    exact inductionHypothesis _ (boot.createIdleTask cpu)

theorem framesKept_reachable {kernel : Kernel}
    (reachable : taskSystem.Reachable TakesReleased kernel) : FramesKept kernel := by
  refine reachable.invariant FramesKept ?_ ?_
  · rintro _ ⟨machine, rfl⟩
    exact framesKept_initTasking machine
  · exact fun _ _ _ framesKept released stepped => framesKept.step released stepped

/-! ### The first resume -/

/-- What a switch makes current is resumed from its saved frame, unless a signal killed it
on the way. -/
theorem switchTo_resumes {kernel after : Kernel} {cid esp ret next tid : Nat} {cur : Option Nat}
    {frames : Nat → UserFrame} (switched : (after, ret) = switchTo kernel cid esp cur next frames)
    (current : after.currentTask cid = some tid) (alive : (after.tasks tid).state ≠ .zombie)
    (entered : kernel.currentTask cid ≠ some tid) : ret = (kernel.tasks tid).esp := by
  have frame := (commit_spec kernel cid next).2.2.2
  have delivered := @deliverLoop_rule cid cur frames
    (fun later => ∀ other, (later.tasks other).esp = (kernel.tasks other).esp)
    (fun _ _ aged kept other => ((fixed_iff.mp aged.fixed).2.2.2.2.2.1 other).trans (kept other))
    (fun _ _ kept _ other => ((fixed_iff.mp (fixed_taskDeliverSignals _ _ _)).2.2.2.2.2.1
      other).trans (kept other))
    (fun _ _ _ _ kept _ _ chosen other => ((commit_spec _ _ _).2.2.2 other).trans
      (((fixed_iff.mp chosen.fixed).2.2.2.2.2.1 other).trans (kept other)))
    deliverFuel _ _ frame (by rw [commit_currentTask, update_self])
  unfold switchTo at switched
  dsimp only at switched
  split_ifs at switched
  · rw [(Prod.mk.inj switched).1] at current
    exact absurd current entered
  · split at switched
    · rename_i done
      rw [done] at delivered
      obtain ⟨rfl, -⟩ := Prod.mk.inj switched
      obtain ⟨_, last, named, dead⟩ := delivered
      rw [current] at named
      obtain rfl := Option.some.inj named
      exact absurd dead alive
    · rename_i final done
      rw [done] at delivered
      obtain ⟨rfl, rfl⟩ := Prod.mk.inj switched
      have named := delivered.2
      dsimp only at named
      rw [current] at named
      obtain rfl := Option.some.inj named
      exact delivered.1 tid
  · obtain ⟨rfl, rfl⟩ := Prod.mk.inj switched
    rw [commit_currentTask, update_self] at current
    obtain rfl := Option.some.inj current
    exact frame next

/-- A tick that makes a task with a fresh frame current returns that frame. -/
theorem FramesKept.resumes {kernel after : Kernel} (framesKept : FramesKept kernel)
    {cid esp ret tid frame : Nat} {sweep : Bool} {frames : Nat → UserFrame}
    (core : cid < maxCpus) (ticked : Sched.schedule kernel cid esp sweep frames = some (after, ret))
    (current : after.currentTask cid = some tid) (built : kernel.fresh tid = some frame)
    (alive : (after.tasks tid).state ≠ .zombie) : ret = frame := by
  have elsewhere := slotStillCurrent_eq_false.mp (framesKept.kept tid frame built).2 cid core
  have upkept := (fixed_iff.mp (fixed_upkeep kernel cid sweep)).1
  obtain ⟨-, fresh, -, -⟩ := saveCurrent_spec (upkeep kernel cid sweep) cid
    (kernel.currentTask cid) esp
  have same := savedKernel_currentTask kernel cid esp sweep
  have stillBuilt : (Sched.savedKernel kernel cid esp sweep).fresh tid = some frame := by
    refine (congrFun fresh tid).trans ?_
    rw [(fixed_iff.mp (fixed_upkeep kernel cid sweep)).2.1, built]
  rcases schedule_cases ticked with rfl | aged | ⟨chosen, next, dead, chosenNext, switched⟩
  · rw [upkept] at current
    exact absurd current elsewhere
  · rw [aged.currentTask, same] at current
    exact absurd current elsewhere
  · have kept := (fixed_accountTick chosen (kernel.currentTask cid) dead).trans chosenNext.fixed
    obtain ⟨entered, _, _, _, _, esps, _⟩ := fixed_iff.mp kept
    have resumed := switchTo_resumes switched current alive (by rw [entered, same]; exact elsewhere)
    rw [resumed, esps]
    exact ((framesKept.savedKernel core esp sweep).kept tid frame stillBuilt).1

/-- The saved frame of a new task survives until the task is first resumed, no core names the
task as current before that, and the first resume returns the frame. -/
def FreshFramesResume (kernel : Kernel) : Prop :=
  (∀ tid frame, kernel.fresh tid = some frame →
    (kernel.tasks tid).esp = frame ∧ slotStillCurrent kernel tid = false) ∧
  ∀ cid esp sweep frames after ret tid frame, quiet kernel cid = true →
    schedule kernel cid esp sweep frames = some (after, ret) →
    after.currentTask cid = some tid → kernel.fresh tid = some frame →
    (after.tasks tid).state ≠ .zombie → ret = frame

/-- In every run in which `create_task` finds only slots that no core names as current, every
new task is first resumed from the frame its creator built. -/
theorem fresh_frames_resume {kernel : Kernel}
    (reachable : taskSystem.Reachable TakesReleased kernel) : FreshFramesResume kernel := by
  have framesKept := framesKept_reachable reachable
  refine ⟨framesKept.kept, ?_⟩
  intro cid esp sweep frames after ret tid frame quiet ticked current built alive
  exact framesKept.resumes ((quiet_core quiet).trans_le framesKept.cores) ticked current built alive

/-! ### A slot taken too early -/

theorem fresh_frames_resume_spawned :
    FreshFramesResume (spawnTask (initTasking twoCores) 0 (threadArgs 0x300000)) := by
  have spawned : step (initTasking twoCores) (.spawn 0 (threadArgs 0x300000)) =
      some (spawnTask (initTasking twoCores) 0 (threadArgs 0x300000)) := by
    have called : (caller (initTasking twoCores) 0).isSome = true := by decide +kernel
    have allocated : freshDir (initTasking twoCores) 0x300000 = true := by decide +kernel
    obtain ⟨tid, current⟩ := Option.isSome_iff_exists.mp called
    simp only [step, current, Option.bind_some, threadArgs, allocated, if_true]
  have released : TakesReleased (initTasking twoCores) (.spawn 0 (threadArgs 0x300000)) := trivial
  exact fresh_frames_resume (.step (.init ⟨twoCores, rfl⟩) released spawned)

/-- The second app returns to Ring 3, to a mapped stack. -/
def secondAppFrames : Nat → UserFrame := fun tid => ⟨tid = 3, true, 0xBFFFE000⟩

/-- Two apps are started, the second on core 1; it exits there, and before core 1 ticks the
kernel task makes a task on core 0. -/
def earlyHistory : List Label :=
  [.spawn 0 (threadArgs 0x300000), .spawn 0 (threadArgs 0x400000),
    .tick 1 0x209000 false secondAppFrames, .exit 1 0, .createTask 0]

/-- The kernel after that history. -/
def earlyKernel : Kernel :=
  (Transition.execute step (initTasking twoCores) earlyHistory).getD (initTasking twoCores)

theorem earlyKernel_reachable : taskSystem.Reachable Transition.anyStep earlyKernel :=
  bootRun_reachable (by decide +kernel)

/-- The next tick of core 1 saves the park loop of the exited app over the new task's frame and
resumes the new task there. -/
theorem fresh_frame_overwritten :
    ¬∀ kernel, taskSystem.Reachable Transition.anyStep kernel → FreshFramesResume kernel := by
  intro claimed
  have resumes := (claimed earlyKernel earlyKernel_reachable).2 1 0x20A000 false secondAppFrames
  have resumed : (schedule earlyKernel 1 0x20A000 false secondAppFrames).map (fun result =>
      (result.2, result.1.currentTask 1, (result.1.tasks 3).state)) =
      some (0x20A000, some 3, .running) := by decide +kernel
  obtain ⟨⟨after, ret⟩, ticked, shown⟩ := Option.map_eq_some_iff.mp resumed
  simp only [Prod.mk.injEq] at shown
  obtain ⟨rfl, current, running⟩ := shown
  have frame := resumes after 0x20A000 3 (0x200000 + 4 * 36864 - 64) (by decide +kernel) ticked
    current (by decide +kernel) (by rw [running]; decide)
  exact absurd frame (by decide)

end MectovOS.Sched
