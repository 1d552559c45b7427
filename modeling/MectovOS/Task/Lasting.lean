/-
This file is about what a task keeps while it runs: its identity, its limits,
its heap pointer and its mmap regions. Scheduling, signalling, waiting and dying
leave these alone; only a creation, an exec and the setters write them. Each
operation is shown to keep the lasting part of every record.
-/

import MectovOS.Task.View

namespace MectovOS.Sched

open Function

/-! ### The lasting part of a record -/

/-- The record without what scheduling, signals, waiting and exit write. Exit also gives the
dirty bitmaps back. -/
def Task.lasting (task : Task) : Task :=
  { task with
    esp := 0
    stackWatermark := 0
    state := .free
    sleepTicks := 0
    waitTicks := 0
    rqCpu := none
    pageDir := 0
    name := []
    parent := 0
    exitCode := 0
    waiting := 0
    pendingSignals := 0
    blockedSignals := 0
    sigRestartTicks := 0
    sigFrameEsp := 0
    zombieSince := 0
    cpuTicks := 0
    mmapRegions := mmapFreeDirtyBitmaps task.mmapRegions }

theorem mmapFreeDirtyBitmaps_twice (regions : List MmapRegion) :
    mmapFreeDirtyBitmaps (mmapFreeDirtyBitmaps regions) = mmapFreeDirtyBitmaps regions := by
  unfold mmapFreeDirtyBitmaps
  rw [List.map_map]
  rfl

theorem lasting_home : HomeBlind Task.lasting := fun _ _ => rfl

theorem lasting_cleanup : CleanupBlind Task.lasting where
  bitmaps task := by
    unfold Task.lasting
    dsimp only
    rw [mmapFreeDirtyBitmaps_twice]
  pageDir _ _ := rfl

/-- Every task keeps the lasting part of its record. -/
def Settled (before after : Kernel) : Prop :=
  viewOf Task.lasting after = viewOf Task.lasting before

theorem Settled.trans {first second third : Kernel} (earlier : Settled first second)
    (later : Settled second third) : Settled first third :=
  Eq.trans later earlier

theorem settled_unseen (kernel : Kernel) (tid : Nat) (change : Task → Task)
    (blind : ∀ task, (change task).lasting = task.lasting) :
    Settled kernel (kernel.setTask tid change) :=
  viewOf_unseen kernel tid change blind

theorem settled_foldl {Item : Type} {operation : Kernel → Item → Kernel}
    (keeps : ∀ kernel item, Settled kernel (operation kernel item)) (items : List Item)
    (kernel : Kernel) : Settled kernel (items.foldl operation kernel) :=
  viewOf_foldl keeps items kernel

/-! ### Runqueues -/

theorem settled_rqEnqueue (kernel : Kernel) (cpu tid : Nat) :
    Settled kernel (rqEnqueue kernel cpu tid) :=
  viewOf_rqEnqueue lasting_home kernel cpu tid

theorem settled_rqRemove (kernel : Kernel) (tid : Nat) : Settled kernel (rqRemove kernel tid) :=
  viewOf_rqRemove lasting_home kernel tid

theorem settled_rqEnqueueWake (kernel : Kernel) (tid : Nat) :
    Settled kernel (rqEnqueueWake kernel tid) :=
  viewOf_rqEnqueueWake lasting_home kernel tid

theorem settled_pickScan (cid : Nat) (tids : List Nat) (kernel : Kernel) (best : Option Nat)
    (bestScore : Int) : Settled kernel (pickScan cid kernel best bestScore tids).1 := by
  induction tids generalizing kernel best bestScore with
  | nil => rfl
  | cons tid rest inductionHypothesis =>
    have aged : Settled kernel (kernel.setTask tid fun task =>
        { task with waitTicks := task.waitTicks + 1 }) :=
      settled_unseen _ _ _ fun _ => by rfl
    unfold pickScan
    dsimp only
    split_ifs
    · exact aged.trans (inductionHypothesis _ _ _)
    · exact aged.trans (inductionHypothesis _ _ _)
    · exact inductionHypothesis _ _ _

theorem settled_rqPick (kernel : Kernel) (cid : Nat) : Settled kernel (rqPick kernel cid).1 := by
  have scanned := settled_pickScan cid (kernel.rq cid) kernel none (-1)
  unfold rqPick
  split
  · rename_i picked
    rwa [picked] at scanned
  · rename_i picked
    rw [picked] at scanned
    dsimp only
    exact scanned.trans (settled_unseen _ _ _ fun _ => by rfl)

theorem settled_rqSteal (kernel : Kernel) (cid : Nat) : Settled kernel (rqSteal kernel cid).1 := by
  unfold rqSteal
  split
  · rfl
  · unfold migrate
    dsimp only
    exact settled_unseen _ _ _ fun _ => by rfl

theorem settled_pickOrSteal (kernel : Kernel) (cid : Nat) :
    Settled kernel (pickOrSteal kernel cid).1 := by
  have picked := settled_rqPick kernel cid
  unfold pickOrSteal
  split
  · rename_i result
    rwa [result] at picked
  · rename_i result
    rw [result] at picked
    exact picked.trans (settled_rqSteal _ _)

/-! ### Ends of tasks -/

theorem settled_vmmSwitchPageDir (kernel : Kernel) (cid pageDir : Nat) :
    Settled kernel (vmmSwitchPageDir kernel cid pageDir) :=
  viewOf_vmmSwitchPageDir kernel cid pageDir

theorem settled_taskCleanup (kernel : Kernel) (cid tid : Nat) :
    Settled kernel (taskCleanup kernel cid tid) :=
  viewOf_taskCleanup lasting_cleanup kernel cid tid

theorem settled_freeSlot (kernel : Kernel) (tid : Nat) : Settled kernel (freeSlot kernel tid) := by
  unfold freeSlot
  exact settled_unseen _ _ _ fun _ => by rfl

theorem settled_reparentChildren (kernel : Kernel) (tid : Nat) :
    Settled kernel (reparentChildren kernel tid) := by
  refine settled_foldl (fun kernel child => ?_) _ _
  unfold reparentChild
  split_ifs
  · exact settled_freeSlot _ _
  · exact settled_unseen _ _ _ fun _ => by rfl
  · rfl

theorem settled_notifyParent (kernel : Kernel) (parent : Nat) :
    Settled kernel (notifyParent kernel parent) := by
  unfold notifyParent
  dsimp only
  split_ifs
  · exact (settled_unseen kernel parent
      (fun task => { task with waiting := 0, state := .ready }) fun _ => by rfl).trans
      ((settled_rqEnqueueWake _ _).trans (settled_unseen _ _ _ fun _ => by rfl))
  · exact settled_unseen _ _ _ fun _ => by rfl

theorem settled_buryTask (kernel : Kernel) (tid code : Nat) :
    Settled kernel (buryTask kernel tid code) := by
  unfold buryTask
  dsimp only
  split_ifs
  · exact (settled_unseen kernel tid
      (fun task => { task with
        state := .zombie, exitCode := code % 256, zombieSince := kernel.ticks }) fun _ => by rfl).trans
      (settled_notifyParent _ _)
  · exact settled_freeSlot _ _

theorem settled_terminateTask (kernel : Kernel) (cid tid code : Nat) :
    Settled kernel (terminateTask kernel cid tid code) := by
  unfold terminateTask
  split_ifs
  · rfl
  · rfl
  · exact (settled_unseen kernel tid (fun task => { task with name := [] }) fun _ => by rfl).trans
      ((settled_rqRemove _ _).trans ((settled_taskCleanup _ _ _).trans
        ((settled_reparentChildren _ _).trans (settled_buryTask _ _ _))))

theorem settled_taskExitWithCode (kernel : Kernel) (cid code : Nat) :
    Settled kernel (taskExitWithCode kernel cid code) := by
  unfold taskExitWithCode
  split
  · rfl
  · split_ifs
    · rfl
    · exact settled_terminateTask _ _ _ _

theorem settled_taskReapZombies (kernel : Kernel) (now : BitVec 32) :
    Settled kernel (taskReapZombies kernel now) := by
  unfold taskReapZombies
  have reaped : Settled kernel (reapDeferred kernel.deferredPdQ.length kernel 0) :=
    viewOf_reapDeferred _ _ _
  refine reaped.trans (settled_foldl (fun kernel tid => ?_) _ _)
  unfold reapZombie
  dsimp only
  split_ifs
  · rfl
  · exact settled_freeSlot _ _
  · rfl

/-! ### Signals -/

theorem settled_stopTask (kernel : Kernel) (tid : Nat) (cleared : BitVec 32) :
    Settled kernel (stopTask kernel tid cleared) :=
  (settled_unseen _ _ _ fun _ => by rfl).trans (settled_rqRemove _ _)

theorem settled_postSignal (kernel : Kernel) (tid sig : Nat) :
    Settled kernel (postSignal kernel tid sig) := by
  unfold postSignal
  dsimp only
  have posted : Settled kernel (kernel.setTask tid fun task =>
      { task with pendingSignals := task.pendingSignals ||| signalBit sig }) :=
    settled_unseen _ _ _ fun _ => by rfl
  split
  · exact posted.trans ((settled_unseen _ _ _ fun _ => by rfl).trans (settled_rqEnqueueWake _ _))
  · exact posted

theorem settled_taskSignal (kernel : Kernel) (cid tid sig : Nat) :
    Settled kernel (taskSignal kernel cid tid sig) := by
  unfold taskSignal
  dsimp only
  split_ifs
  all_goals first
    | rfl
    | exact settled_terminateTask _ _ _ _
    | exact settled_stopTask _ _ _
    | exact settled_postSignal _ _ _
    | exact settled_unseen _ _ _ fun _ => by rfl
    | exact (settled_unseen kernel tid (fun task => { task with
          pendingSignals := task.pendingSignals &&&
            ~~~(signalBit sigstop ||| signalBit sigtstp) }) fun _ => by rfl).trans
        ((settled_unseen _ _ _ fun _ => by rfl).trans (settled_rqEnqueueWake _ _))

theorem settled_deliverScan (cid tid : Nat) (frame : UserFrame) (fuel sig : Nat)
    (kernel : Kernel) : Settled kernel (deliverScan cid tid frame fuel sig kernel).1 := by
  induction fuel generalizing sig kernel with
  | zero => rfl
  | succ fuel inductionHypothesis =>
    have taken : Settled kernel (kernel.setTask tid fun task =>
        { task with pendingSignals := task.pendingSignals &&& ~~~signalBit sig }) :=
      settled_unseen _ _ _ fun _ => by rfl
    unfold deliverScan
    dsimp only
    split_ifs
    · exact inductionHypothesis _ _
    · exact inductionHypothesis _ _
    · exact taken.trans (inductionHypothesis _ _)
    · exact taken.trans (inductionHypothesis _ _)
    · exact taken.trans (settled_terminateTask _ _ _ _)
    · unfold enterHandler
      dsimp only
      exact taken.trans (settled_unseen _ _ _ fun _ => by rfl)
    · exact taken.trans (settled_terminateTask _ _ _ _)

theorem settled_taskDeliverSignals (kernel : Kernel) (cid : Nat) (frame : UserFrame) :
    Settled kernel (taskDeliverSignals kernel cid frame).1 := by
  unfold taskDeliverSignals
  split
  · rfl
  · split_ifs
    · rfl
    · exact settled_deliverScan _ _ _ _ _ _

theorem settled_taskFaultSignal (kernel : Kernel) (cid sig : Nat) (frame : UserFrame) :
    Settled kernel (taskFaultSignal kernel cid sig frame) := by
  unfold taskFaultSignal
  split
  · rfl
  · rename_i tid current
    have posted : Settled kernel (kernel.setTask tid fun task =>
        { task with pendingSignals := task.pendingSignals ||| signalBit sig }) :=
      settled_unseen _ _ _ fun _ => by rfl
    split_ifs
    · rfl
    · exact settled_terminateTask _ _ _ _
    · dsimp only
      split_ifs
      · exact posted.trans (settled_taskDeliverSignals _ _ _)
      · exact posted.trans ((settled_taskDeliverSignals _ _ _).trans
          (settled_terminateTask _ _ _ _))

/-! ### Parking, waking and waiting -/

theorem settled_upkeep (kernel : Kernel) (cid : Nat) (sweep : Bool) :
    Settled kernel (upkeep kernel cid sweep) := by
  have slept : Settled kernel (sleepUpkeep kernel) := by
    refine settled_foldl (fun kernel tid => ?_) _ _
    unfold sleepTick
    dsimp only
    split_ifs
    all_goals first
      | rfl
      | exact (settled_unseen kernel tid (fun task => { task with
            sleepTicks := _ }) fun _ => by rfl).trans
          ((settled_unseen _ _ _ fun _ => by rfl).trans (settled_rqEnqueueWake _ _))
      | exact settled_unseen _ _ _ fun _ => by rfl
  have swept : ∀ kernel, Settled kernel (schedIntegritySweep kernel) := by
    refine fun kernel => settled_foldl (fun kernel tid => ?_) _ _
    split_ifs
    · exact settled_rqRemove _ _
    · rfl
  unfold upkeep
  split_ifs
  · exact slept.trans (swept _)
  · exact slept
  · rfl

theorem settled_taskSleep (kernel : Kernel) (cid : Nat) (ticks : Int) :
    Settled kernel (taskSleep kernel cid ticks) := by
  unfold taskSleep
  split
  · rfl
  · split_ifs
    · rfl
    · exact (settled_unseen _ _ _ fun _ => by rfl).trans (settled_rqRemove _ _)

theorem settled_taskWake (kernel : Kernel) (tid : Nat) : Settled kernel (taskWake kernel tid) := by
  unfold taskWake
  split_ifs
  · rfl
  · exact (settled_unseen _ _ _ fun _ => by rfl).trans (settled_rqEnqueueWake _ _)
  · rfl

theorem settled_taskSetState (kernel : Kernel) (tid : Nat) (state : TaskState) :
    Settled kernel (taskSetState kernel tid state) := by
  have moved : Settled kernel (kernel.setTask tid fun task => { task with state := state }) :=
    settled_unseen _ _ _ fun _ => by rfl
  unfold taskSetState
  dsimp only
  split_ifs
  all_goals first
    | rfl
    | exact moved.trans ((settled_unseen _ _ _ fun _ => by rfl).trans (settled_rqEnqueueWake _ _))
    | exact moved.trans (settled_rqRemove _ _)
    | exact moved.trans (settled_unseen _ _ _ fun _ => by rfl)
    | exact moved

theorem settled_waitpidReap (kernel : Kernel) (self child : Nat) :
    Settled kernel (waitpidReap kernel self child) := by
  unfold waitpidReap
  split_ifs
  · rfl
  · exact settled_freeSlot _ _

theorem settled_waitpidPark (kernel : Kernel) (self : Nat) (pid : Int) :
    Settled kernel (waitpidPark kernel self pid) := by
  have parked : Settled kernel (parkWaiting kernel self pid) :=
    (settled_unseen _ _ _ fun _ => by rfl).trans (settled_rqRemove _ _)
  unfold waitpidPark
  dsimp only
  split_ifs
  · exact parked.trans (settled_unseen _ _ _ fun _ => by rfl)
  · exact parked

/-! ### The tick -/

theorem settled_saveCurrent (kernel : Kernel) (cid : Nat) (cur : Option Nat) (esp : Nat) :
    Settled kernel (saveCurrent kernel cid cur esp) := by
  unfold saveCurrent
  split
  · rfl
  · dsimp only
    split_ifs
    · rfl
    · exact (settled_unseen _ _ _ fun _ => by rfl).trans (settled_rqEnqueue _ _ _)
    · exact settled_unseen _ _ _ fun _ => by rfl

theorem settled_chooseNext (kernel : Kernel) (cid : Nat) (cur : Option Nat) (dead : Bool) :
    Settled kernel (chooseNext kernel cid cur dead).1 := by
  have picked := settled_pickOrSteal kernel cid
  unfold chooseNext
  split
  · rename_i result
    rwa [result] at picked
  · rename_i result
    rw [result] at picked
    split
    · exact picked
    · split_ifs <;> exact picked

theorem settled_commit (kernel : Kernel) (cid next : Nat) :
    Settled kernel (commit kernel cid next) := by
  unfold commit
  exact (settled_unseen kernel next (fun task => { task with state := .running })
    fun _ => by rfl).trans (settled_vmmSwitchPageDir _ _ _)

theorem settled_repick (kernel : Kernel) (cid : Nat) (cur : Option Nat) :
    Settled kernel (repick kernel cid cur).1 := by
  have picked := settled_pickOrSteal kernel cid
  unfold repick
  split
  · rename_i result
    rwa [result] at picked
  · rename_i result
    rwa [result] at picked

theorem settled_deliverLoop (cid : Nat) (cur : Option Nat) (frames : Nat → UserFrame)
    (fuel : Nat) (kernel : Kernel) (next : Nat) :
    Settled kernel (deliverLoop cid cur frames fuel kernel next).1 := by
  induction fuel generalizing kernel next with
  | zero => rfl
  | succ fuel inductionHypothesis =>
    have delivered := settled_taskDeliverSignals kernel cid (frames next)
    unfold deliverLoop
    split
    · split
      · rename_i result
        rwa [result] at delivered
      · rename_i killed result
        rw [result] at delivered
        have picked := settled_repick killed cid cur
        split_ifs
        · split
          · rename_i chosen
            rw [chosen] at picked
            exact delivered.trans picked
          · rename_i chosen
            rw [chosen] at picked
            exact delivered.trans (picked.trans ((settled_commit _ _ _).trans
              (inductionHypothesis _ _)))
        · exact delivered.trans (inductionHypothesis _ _)
    · rfl

theorem settled_switchTo (kernel : Kernel) (cid esp : Nat) (cur : Option Nat) (next : Nat)
    (frames : Nat → UserFrame) : Settled kernel (switchTo kernel cid esp cur next frames).1 := by
  have committed := settled_commit kernel cid next
  have delivered := settled_deliverLoop cid cur frames deliverFuel (commit kernel cid next) next
  unfold switchTo
  dsimp only
  split_ifs
  · rfl
  · split
    · rename_i result
      rw [result] at delivered
      exact committed.trans delivered
    · rename_i result
      rw [result] at delivered
      exact committed.trans delivered
  · exact committed

theorem settled_accountTick (kernel : Kernel) (cur : Option Nat) (dead : Bool) :
    Settled kernel (accountTick kernel cur dead) := by
  unfold accountTick
  split
  · rfl
  · split_ifs
    · exact settled_unseen _ _ _ fun _ => by rfl
    · rfl

theorem settled_schedule {kernel next : Kernel} {cid esp frame : Nat} {sweep : Bool}
    {frames : Nat → UserFrame} (ticked : schedule kernel cid esp sweep frames = some (next, frame)) :
    Settled kernel next := by
  have kept := settled_upkeep kernel cid sweep
  unfold schedule at ticked
  dsimp only at ticked
  split_ifs at ticked
  · cases ticked
    exact kept
  · have chosen := settled_chooseNext (saveCurrent (upkeep kernel cid sweep) cid
      (kernel.currentTask cid) esp) cid (kernel.currentTask cid)
      (curDead (upkeep kernel cid sweep) (kernel.currentTask cid))
    have saved := kept.trans (settled_saveCurrent (upkeep kernel cid sweep) cid
      (kernel.currentTask cid) esp)
    split at ticked
    · rename_i result
      rw [result] at chosen
      cases ticked
      exact saved.trans chosen
    · rename_i result
      rw [result] at chosen
      have switched : (switchTo _ cid esp _ _ frames).1 = next :=
        congrArg Prod.fst (Option.some.inj ticked)
      rw [← switched]
      exact saved.trans (chosen.trans ((settled_accountTick _ _ _).trans
        (settled_switchTo _ _ _ _ _ _)))

/-! ### What a step writes -/

theorem lasting_publish (kernel : Kernel) (cpu tid : Nat) (task : Task) :
    viewOf Task.lasting (publish kernel cpu tid task) =
      update (viewOf Task.lasting kernel) tid task.lasting :=
  viewOf_publish lasting_home (fun _ _ => rfl) kernel cpu tid task

/-- The record a step writes as a whole: the one of a created task, of a task that execs, or
of a task with a new attribute. -/
def written (kernel : Kernel) : Label → Option (Nat × Task)
  | .createTask cid =>
    (createTask kernel cid).2.map fun tid =>
      (tid, createTaskFill kernel cid tid (kernel.tasks tid))
  | .spawn cid args =>
    (threadCreateEx (allocPageDir kernel args.pageDir) cid args).2.map fun tid =>
      (tid, threadFill kernel (kernel.currentTask cid) args tid (kernel.tasks tid))
  | .threadCreate cid args =>
    (threadCreateEx (setPending kernel cid none) cid args).2.map fun tid =>
      (tid, threadFill kernel (kernel.currentTask cid) args tid (kernel.tasks tid))
  | .fork cid args =>
    (kernel.currentTask cid).bind fun parent =>
      (forkCommon kernel cid args).2.map fun tid =>
        (tid, forkFill kernel parent args tid (kernel.tasks tid))
  | .forkExec cid args =>
    (kernel.currentTask cid).bind fun creator =>
      (taskForkExec kernel cid args).2.map fun tid =>
        (tid, forkExecFill kernel creator args tid (kernel.tasks tid))
  | .execRewire cid args =>
    match kernel.pending cid, kernel.currentTask cid with
    | some (.exec image), some tid =>
      some (tid, (taskExecRewire kernel tid image args).tasks tid)
    | _, _ => none
  | .set _ tid value => if maxTasks ≤ tid then none else some (tid, value.apply (kernel.tasks tid))
  | _ => none

/-- The lasting records after a write. -/
def writtenOver (kernel : Kernel) : Option (Nat × Task) → Nat → Task
  | none => viewOf Task.lasting kernel
  | some (tid, task) => update (viewOf Task.lasting kernel) tid task.lasting

theorem lasting_createTask (kernel : Kernel) (cid : Nat) :
    viewOf Task.lasting (createTask kernel cid).1 =
      writtenOver kernel (written kernel (.createTask cid)) := by
  unfold written createTask
  split
  · rfl
  · exact lasting_publish _ _ _ _

theorem lasting_threadCreateEx (kernel : Kernel) (cid : Nat) (args : ThreadArgs) :
    viewOf Task.lasting (threadCreateEx kernel cid args).1 =
      writtenOver kernel ((threadCreateEx kernel cid args).2.map fun tid =>
        (tid, threadFill kernel (kernel.currentTask cid) args tid (kernel.tasks tid))) := by
  unfold threadCreateEx
  dsimp only
  split_ifs
  · rfl
  · split
    · rfl
    · split_ifs
      · rfl
      · exact lasting_publish _ _ _ _

theorem lasting_spawnTask (kernel : Kernel) (cid : Nat) (args : ThreadArgs) :
    viewOf Task.lasting (spawnTask kernel cid args) =
      viewOf Task.lasting (threadCreateEx (allocPageDir kernel args.pageDir) cid args).1 := by
  unfold spawnTask
  split
  · rename_i result
    rw [result]
  · rename_i result
    rw [result]
    rfl

theorem lasting_forkCommon (kernel : Kernel) (cid : Nat) (args : ForkArgs) :
    viewOf Task.lasting (forkCommon kernel cid args).1 =
      writtenOver kernel (written kernel (.fork cid args)) := by
  simp only [written, forkCommon]
  cases kernel.currentTask cid with
  | none => rfl
  | some parent =>
    dsimp only [Option.bind_some]
    split_ifs
    · rfl
    · split
      · rfl
      · exact lasting_publish _ _ _ _

theorem lasting_taskForkExec (kernel : Kernel) (cid : Nat) (args : ForkExecArgs) :
    viewOf Task.lasting (taskForkExec kernel cid args).1 =
      writtenOver kernel (written kernel (.forkExec cid args)) := by
  simp only [written, taskForkExec]
  cases kernel.currentTask cid with
  | none => rfl
  | some creator =>
    dsimp only [Option.bind_some]
    split_ifs
    · rfl
    · rfl
    · split
      · rfl
      · split_ifs
        · rfl
        · exact lasting_publish _ _ _ _

/-- A step writes at most one record as a whole; every other task keeps what lasts. -/
theorem lasting_step {kernel next : Kernel} {label : Label}
    (taken : step kernel label = some next) :
    viewOf Task.lasting next = writtenOver kernel (written kernel label) := by
  cases label with
  | tick cid esp sweep frames =>
    simp only [step, Option.ite_none_right_eq_some, Option.map_eq_some_iff] at taken
    obtain ⟨_, ⟨result, frame⟩, ticked, rfl⟩ := taken
    exact settled_schedule ticked
  | clock ticks =>
    cases taken
    rfl
  | createTask cid =>
    obtain ⟨_, _, rfl⟩ := Option.map_eq_some_iff.mp taken
    exact lasting_createTask kernel cid
  | spawn cid args =>
    simp only [step, Option.bind_eq_some_iff, Option.ite_none_right_eq_some,
      Option.some.injEq] at taken
    obtain ⟨_, _, _, rfl⟩ := taken
    rw [lasting_spawnTask, lasting_threadCreateEx]
    rfl
  | threadBegin cid =>
    simp only [step, Option.bind_eq_some_iff, Option.ite_none_left_eq_some,
      Option.some.injEq] at taken
    obtain ⟨_, _, _, rfl⟩ := taken
    rfl
  | threadCreate cid args =>
    simp only [step, Option.ite_none_right_eq_some, Option.some.injEq] at taken
    obtain ⟨_, rfl⟩ := taken
    rw [lasting_threadCreateEx]
    rfl
  | fork cid args =>
    simp only [step, Option.bind_eq_some_iff, Option.ite_none_left_eq_some,
      Option.ite_none_right_eq_some, Option.some.injEq] at taken
    obtain ⟨_, _, _, _, rfl⟩ := taken
    exact lasting_forkCommon kernel cid args
  | forkExec cid args =>
    simp only [step, Option.bind_eq_some_iff, Option.ite_none_right_eq_some,
      Option.some.injEq] at taken
    obtain ⟨_, _, _, rfl⟩ := taken
    exact lasting_taskForkExec kernel cid args
  | execSwitch cid image =>
    simp only [step, Option.bind_eq_some_iff, Option.ite_none_left_eq_some,
      Option.ite_none_right_eq_some, Option.some.injEq] at taken
    obtain ⟨tid, _, _, _, rfl⟩ := taken
    have switched := @viewOf_vmmSwitchPageDir _ Task.lasting
      (allocPageDir kernel image) cid image
    simp only [setPending, taskExecSwitch]
    split_ifs
    · exact switched
    · exact switched
  | execRewire cid args =>
    simp only [step] at taken
    split at taken
    · rename_i image tid pending current
      simp only [written, pending, current]
      rw [← Option.some.inj taken]
      unfold taskExecRewire
      rw [viewOf_setTask]
      dsimp only [writtenOver]
      rw [setTask_same]
      rfl
    · exact absurd taken (by simp)
  | exit cid code =>
    obtain ⟨_, _, rfl⟩ := Option.map_eq_some_iff.mp taken
    exact settled_taskExitWithCode kernel cid code
  | signal cid tid sig =>
    simp only [step, Option.ite_none_right_eq_some, Option.some.injEq] at taken
    obtain ⟨_, rfl⟩ := taken
    exact settled_taskSignal kernel cid tid sig
  | deliver cid frame =>
    obtain ⟨_, _, rfl⟩ := Option.map_eq_some_iff.mp taken
    exact settled_taskDeliverSignals kernel cid frame
  | fault cid sig frame =>
    obtain ⟨_, _, rfl⟩ := Option.map_eq_some_iff.mp taken
    exact settled_taskFaultSignal kernel cid sig frame
  | sleep cid ticks =>
    obtain ⟨_, _, rfl⟩ := Option.map_eq_some_iff.mp taken
    exact settled_taskSleep kernel cid ticks
  | wake cid tid =>
    simp only [step, Option.ite_none_right_eq_some, Option.some.injEq] at taken
    obtain ⟨_, rfl⟩ := taken
    exact settled_taskWake kernel tid
  | block cid =>
    obtain ⟨tid, _, rfl⟩ := Option.map_eq_some_iff.mp taken
    exact settled_taskSetState kernel tid _
  | unblock cid tid =>
    simp only [step, Option.ite_none_right_eq_some, Option.some.injEq] at taken
    obtain ⟨_, rfl⟩ := taken
    exact settled_taskSetState kernel tid _
  | waitReap cid child =>
    simp only [step, Option.bind_eq_some_iff, Option.ite_none_left_eq_some,
      Option.some.injEq] at taken
    obtain ⟨self, _, _, rfl⟩ := taken
    exact settled_waitpidReap kernel self child
  | waitPark cid pid =>
    simp only [step, Option.bind_eq_some_iff, Option.ite_none_left_eq_some,
      Option.some.injEq] at taken
    obtain ⟨self, _, _, rfl⟩ := taken
    exact settled_waitpidPark kernel self pid
  | waitDone cid =>
    obtain ⟨self, _, rfl⟩ := Option.map_eq_some_iff.mp taken
    exact settled_unseen _ _ _ fun _ => by rfl
  | reap cid now =>
    obtain ⟨_, _, rfl⟩ := Option.map_eq_some_iff.mp taken
    exact settled_taskReapZombies kernel now
  | set cid tid value =>
    simp only [step, Option.ite_none_right_eq_some, Option.some.injEq] at taken
    obtain ⟨_, rfl⟩ := taken
    simp only [written, setAttribute]
    split_ifs
    · rfl
    · exact viewOf_setTask Task.lasting kernel tid _

/-! ### What holds of every task -/

theorem forall_setTask {holds : Task → Prop} {kernel : Kernel}
    (every : ∀ tid, holds (kernel.tasks tid)) {tid : Nat} {change : Task → Task}
    (changed : holds (change (kernel.tasks tid))) (other : Nat) :
    holds ((kernel.setTask tid change).tasks other) := by
  by_cases apart : other = tid
  · rw [apart, setTask_same]
    exact changed
  · rw [setTask_other _ _ apart]
    exact every other

/-- What holds of every record and looks at its lasting part only still holds after a step, when
it holds of the record the step writes. -/
theorem forall_writtenOver {holds : Task → Prop}
    (blind : ∀ task : Task, holds task.lasting ↔ holds task) {before after : Kernel}
    {write : Option (Nat × Task)} (same : viewOf Task.lasting after = writtenOver before write)
    (every : ∀ tid, holds (before.tasks tid))
    (fresh : ∀ {tid task}, write = some (tid, task) → holds task) (other : Nat) :
    holds (after.tasks other) := by
  rw [← blind]
  have shown : (after.tasks other).lasting = writtenOver before write other := congrFun same other
  rw [shown]
  cases write with
  | none => exact (blind _).mpr (every other)
  | some pair =>
    obtain ⟨tid, task⟩ := pair
    unfold writtenOver
    dsimp only
    by_cases apart : other = tid
    · rw [apart, update_self]
      exact (blind _).mpr (fresh rfl)
    · rw [update_of_ne apart]
      exact (blind _).mpr (every other)

/-- What holds of the boot records and of every idle task made over a record it holds of, holds
of every task at boot. -/
theorem forall_initTasking {holds : Task → Prop}
    (blind : ∀ task : Task, holds task.lasting ↔ holds task) (machine : Machine)
    (kernelTask : holds ((bootKernel machine).tasks 0)) (slot : holds bootTask)
    (idle : ∀ kernel tid task, holds task → holds (createIdleTaskFill kernel tid task))
    (tid : Nat) : holds ((initTasking machine).tasks tid) := by
  have booted : ∀ tid, holds ((bootKernel machine).tasks tid) := by
    intro tid
    by_cases first : tid = 0
    · rw [first]
      exact kernelTask
    · unfold bootKernel
      dsimp only
      rw [update_of_ne first]
      exact slot
  have every : ∀ tid, holds ((initTasking machine).tasks tid) := by
    unfold initTasking
    refine @List.foldlRecOn _ _ (fun kernel : Kernel => ∀ tid, holds (kernel.tasks tid)) _ _ _
      booted fun kernel every cpu _ => ?_
    unfold createIdleTask
    split
    · exact every
    · refine @forall_writtenOver _ blind kernel _ (some (_, _)) (lasting_publish _ _ _ _) every
        fun same => ?_
      cases same
      exact idle _ _ _ (every _)
  exact every tid

/-- A label that sets neither a region nor a heap pointer writes these only as creations, forks
and execs do. -/
theorem written_set {kernel : Kernel} {cid slot tid : Nat} {value : Attribute} {task : Task}
    (unset : ∀ index region, value ≠ .mmapRegion index region) (heap : ∀ ptr, value ≠ .heapPtr ptr)
    (write : written kernel (.set cid slot value) = some (tid, task)) :
    task.mmapRegions = (kernel.tasks tid).mmapRegions ∧ task.heapPtr = (kernel.tasks tid).heapPtr := by
  simp only [written] at write
  split_ifs at write
  cases write
  cases value with
  | sigaction =>
    simp only [Attribute.apply]
    split_ifs <;> exact ⟨rfl, rfl⟩
  | nice =>
    simp only [Attribute.apply]
    split_ifs <;> exact ⟨rfl, rfl⟩
  | mmapRegion index region => exact absurd rfl (unset _ _)
  | heapPtr ptr => exact absurd rfl (heap _)
  | _ => exact ⟨rfl, rfl⟩

end MectovOS.Sched
