/-
This file names what the task operations leave alone. Queueing, waking, parking,
signalling, burying and reaping tasks change neither who is current on a core
nor which saved frames exist; only a creation and the commit of `schedule` do.
Each operation is shown to keep that view of the kernel.
-/

import MectovOS.Task.System

namespace MectovOS.Sched

/-! ### The fixed view -/

/-- What only creations and commits change. -/
structure Fixed where
  currentTask : Nat → Option Nat
  fresh : Nat → Option Nat
  commits : List (Nat × TaskState)
  smpCpuCount : Nat
  pending : Nat → Option Pending
  esp : Nat → Nat
  isIdle : Nat → Bool
  ring : Nat → Nat

def fixed (kernel : Kernel) : Fixed where
  currentTask := kernel.currentTask
  fresh := kernel.fresh
  commits := kernel.commits
  smpCpuCount := kernel.smpCpuCount
  pending := kernel.pending
  esp := fun tid => (kernel.tasks tid).esp
  isIdle := fun tid => (kernel.tasks tid).isIdle
  ring := fun tid => (kernel.tasks tid).ring

theorem fixed_iff {before after : Kernel} :
    fixed after = fixed before ↔
      after.currentTask = before.currentTask ∧ after.fresh = before.fresh ∧
        after.commits = before.commits ∧ after.smpCpuCount = before.smpCpuCount ∧
        after.pending = before.pending ∧
        (∀ tid, (after.tasks tid).esp = (before.tasks tid).esp) ∧
        (∀ tid, (after.tasks tid).isIdle = (before.tasks tid).isIdle) ∧
        ∀ tid, (after.tasks tid).ring = (before.tasks tid).ring := by
  simp only [fixed, Fixed.mk.injEq, funext_iff]

/-- A change of a task record that keeps its frame and its kind. -/
theorem fixed_setTask (kernel : Kernel) (tid : Nat) (change : Task → Task)
    (kept : ∀ task, (change task).esp = task.esp ∧ (change task).isIdle = task.isIdle ∧
      (change task).ring = task.ring) :
    fixed (kernel.setTask tid change) = fixed kernel := by
  have same : ∀ other, ((kernel.setTask tid change).tasks other).esp = (kernel.tasks other).esp ∧
      ((kernel.setTask tid change).tasks other).isIdle = (kernel.tasks other).isIdle ∧
      ((kernel.setTask tid change).tasks other).ring = (kernel.tasks other).ring := by
    intro other
    by_cases apart : other = tid
    · rw [apart, setTask_same]
      exact kept _
    · rw [setTask_other _ _ apart]
      exact ⟨rfl, rfl, rfl⟩
  exact fixed_iff.mpr ⟨rfl, rfl, rfl, rfl, rfl, fun other => (same other).1,
    fun other => (same other).2.1, fun other => (same other).2.2⟩

theorem fixed_foldl {Item : Type} {operation : Kernel → Item → Kernel}
    (keeps : ∀ kernel item, fixed (operation kernel item) = fixed kernel) (items : List Item)
    (kernel : Kernel) : fixed (items.foldl operation kernel) = fixed kernel := by
  induction items generalizing kernel with
  | nil => rfl
  | cons item rest inductionHypothesis =>
    rw [List.foldl_cons, inductionHypothesis, keeps]

/-! ### Runqueues -/

theorem fixed_rqEnqueue (kernel : Kernel) (cpu tid : Nat) :
    fixed (rqEnqueue kernel cpu tid) = fixed kernel := by
  unfold rqEnqueue
  split_ifs
  all_goals first | rfl | exact fixed_setTask _ _ _ (by simp)

theorem fixed_rqRemove (kernel : Kernel) (tid : Nat) :
    fixed (rqRemove kernel tid) = fixed kernel := by
  unfold rqRemove
  split_ifs
  · rfl
  · split
    · rfl
    · split_ifs
      · rfl
      · exact fixed_setTask _ _ _ (by simp)

theorem fixed_rqEnqueueWake (kernel : Kernel) (tid : Nat) :
    fixed (rqEnqueueWake kernel tid) = fixed kernel := by
  unfold rqEnqueueWake
  split_ifs
  · rfl
  · rfl
  · exact fixed_rqEnqueue _ _ _

theorem fixed_migrate (kernel : Kernel) (source cid tid : Nat) :
    fixed (migrate kernel source cid tid) = fixed kernel := by
  unfold migrate
  exact fixed_setTask _ _ _ (by simp)

/-! ### Ends of tasks -/

theorem fixed_vmmSwitchPageDir (kernel : Kernel) (cid pageDir : Nat) :
    fixed (vmmSwitchPageDir kernel cid pageDir) = fixed kernel := by
  unfold vmmSwitchPageDir
  split_ifs <;> rfl

theorem fixed_deferredPdPush (kernel : Kernel) (pageDir slot : Nat) :
    fixed (deferredPdPush kernel pageDir slot) = fixed kernel := by
  unfold deferredPdPush
  split_ifs <;> rfl

theorem fixed_cleanupPageDir (kernel : Kernel) (cid tid : Nat) :
    fixed (cleanupPageDir kernel cid tid) = fixed kernel := by
  unfold cleanupPageDir
  dsimp only
  split_ifs
  · exact (fixed_setTask _ _ _ (by simp)).trans (fixed_deferredPdPush _ _ _)
  · exact (fixed_setTask _ _ _ (by simp)).trans (fixed_vmmSwitchPageDir _ _ _)
  · exact fixed_setTask _ _ _ (by simp)
  · exact fixed_setTask _ _ _ (by simp)
  · rfl

theorem fixed_taskCleanup (kernel : Kernel) (cid tid : Nat) :
    fixed (taskCleanup kernel cid tid) = fixed kernel := by
  unfold taskCleanup
  split_ifs
  · rfl
  · exact (fixed_cleanupPageDir _ _ _).trans (fixed_setTask _ _ _ (by simp))

theorem fixed_freeSlot (kernel : Kernel) (tid : Nat) :
    fixed (freeSlot kernel tid) = fixed kernel := by
  unfold freeSlot
  exact fixed_setTask _ _ _ (by simp)

theorem fixed_reparentChildren (kernel : Kernel) (tid : Nat) :
    fixed (reparentChildren kernel tid) = fixed kernel := by
  refine fixed_foldl (fun kernel child => ?_) _ _
  unfold reparentChild
  split_ifs
  · exact fixed_freeSlot _ _
  · exact fixed_setTask _ _ _ (by simp)
  · rfl

theorem fixed_notifyParent (kernel : Kernel) (parent : Nat) :
    fixed (notifyParent kernel parent) = fixed kernel := by
  unfold notifyParent
  refine (fixed_setTask _ _ _ (by simp)).trans ?_
  split_ifs
  · exact (fixed_rqEnqueueWake _ _).trans (fixed_setTask _ _ _ (by simp))
  · rfl

theorem fixed_buryTask (kernel : Kernel) (tid code : Nat) :
    fixed (buryTask kernel tid code) = fixed kernel := by
  unfold buryTask
  dsimp only
  split_ifs
  · exact (fixed_notifyParent _ _).trans (fixed_setTask _ _ _ (by simp))
  · exact fixed_freeSlot _ _

theorem fixed_terminateTask (kernel : Kernel) (cid tid code : Nat) :
    fixed (terminateTask kernel cid tid code) = fixed kernel := by
  unfold terminateTask
  split_ifs
  · rfl
  · rfl
  · exact (fixed_buryTask _ _ _).trans ((fixed_reparentChildren _ _).trans
      ((fixed_taskCleanup _ _ _).trans ((fixed_rqRemove _ _).trans
        (fixed_setTask _ _ _ (by simp)))))

theorem fixed_taskExitWithCode (kernel : Kernel) (cid code : Nat) :
    fixed (taskExitWithCode kernel cid code) = fixed kernel := by
  unfold taskExitWithCode
  split
  · rfl
  · split_ifs
    · rfl
    · exact fixed_terminateTask _ _ _ _

theorem fixed_reapDeferred (fuel : Nat) (kernel : Kernel) (index : Nat) :
    fixed (reapDeferred fuel kernel index) = fixed kernel := by
  induction fuel generalizing kernel index with
  | zero => rfl
  | succ fuel inductionHypothesis =>
    unfold reapDeferred
    dsimp only
    split_ifs
    · exact inductionHypothesis _ _
    · exact (inductionHypothesis _ _).trans rfl
    · rfl

theorem fixed_taskReapZombies (kernel : Kernel) (now : BitVec 32) :
    fixed (taskReapZombies kernel now) = fixed kernel := by
  refine (fixed_foldl (fun kernel tid => ?_) _ _).trans (fixed_reapDeferred _ _ _)
  unfold reapZombie
  dsimp only
  split_ifs
  · rfl
  · exact fixed_freeSlot _ _
  · rfl

/-! ### Signals -/

theorem fixed_stopTask (kernel : Kernel) (tid : Nat) (cleared : BitVec 32) :
    fixed (stopTask kernel tid cleared) = fixed kernel :=
  (fixed_rqRemove _ _).trans (fixed_setTask _ _ _ (by simp))

theorem fixed_postSignal (kernel : Kernel) (tid sig : Nat) :
    fixed (postSignal kernel tid sig) = fixed kernel := by
  unfold postSignal
  dsimp only
  split
  · exact (fixed_rqEnqueueWake _ _).trans ((fixed_setTask _ _ _ (by simp)).trans
      (fixed_setTask _ _ _ (by simp)))
  · exact fixed_setTask _ _ _ (by simp)

theorem fixed_taskSignal (kernel : Kernel) (cid tid sig : Nat) :
    fixed (taskSignal kernel cid tid sig) = fixed kernel := by
  unfold taskSignal
  dsimp only
  split_ifs
  all_goals first
    | rfl
    | exact fixed_terminateTask _ _ _ _
    | exact fixed_stopTask _ _ _
    | exact fixed_postSignal _ _ _
    | exact fixed_setTask _ _ _ (by simp)
    | exact (fixed_rqEnqueueWake _ _).trans ((fixed_setTask _ _ _ (by simp)).trans
        (fixed_setTask _ _ _ (by simp)))

theorem fixed_deliverScan (cid tid : Nat) (frame : UserFrame) (fuel sig : Nat) (kernel : Kernel) :
    fixed (deliverScan cid tid frame fuel sig kernel).1 = fixed kernel := by
  induction fuel generalizing sig kernel with
  | zero => rfl
  | succ fuel inductionHypothesis =>
    unfold deliverScan
    dsimp only
    split_ifs
    · exact inductionHypothesis _ _
    · exact inductionHypothesis _ _
    · exact (inductionHypothesis _ _).trans (fixed_setTask _ _ _ (by simp))
    · exact (inductionHypothesis _ _).trans (fixed_setTask _ _ _ (by simp))
    · exact (fixed_terminateTask _ _ _ _).trans (fixed_setTask _ _ _ (by simp))
    · exact (fixed_setTask _ _ _ (by simp)).trans (fixed_setTask _ _ _ (by simp))
    · exact (fixed_terminateTask _ _ _ _).trans (fixed_setTask _ _ _ (by simp))

theorem fixed_taskDeliverSignals (kernel : Kernel) (cid : Nat) (frame : UserFrame) :
    fixed (taskDeliverSignals kernel cid frame).1 = fixed kernel := by
  unfold taskDeliverSignals
  split
  · rfl
  · split_ifs
    · rfl
    · exact fixed_deliverScan _ _ _ _ _ _

theorem fixed_taskFaultSignal (kernel : Kernel) (cid sig : Nat) (frame : UserFrame) :
    fixed (taskFaultSignal kernel cid sig frame) = fixed kernel := by
  unfold taskFaultSignal
  split
  · rfl
  · split_ifs
    · rfl
    · exact fixed_terminateTask _ _ _ _
    · dsimp only
      split_ifs
      · exact (fixed_taskDeliverSignals _ _ _).trans (fixed_setTask _ _ _ (by simp))
      · exact (fixed_terminateTask _ _ _ _).trans
          ((fixed_taskDeliverSignals _ _ _).trans (fixed_setTask _ _ _ (by simp)))

/-! ### Parking, waking and waiting -/

theorem fixed_sleepUpkeep (kernel : Kernel) : fixed (sleepUpkeep kernel) = fixed kernel := by
  refine fixed_foldl (fun kernel tid => ?_) _ _
  unfold sleepTick
  dsimp only
  split_ifs
  all_goals first
    | rfl
    | exact (fixed_rqEnqueueWake _ _).trans ((fixed_setTask _ _ _ (by simp)).trans
        (fixed_setTask _ _ _ (by simp)))
    | exact fixed_setTask _ _ _ (by simp)

theorem fixed_schedIntegritySweep (kernel : Kernel) :
    fixed (schedIntegritySweep kernel) = fixed kernel := by
  refine fixed_foldl (fun kernel tid => ?_) _ _
  split_ifs
  · exact fixed_rqRemove _ _
  · rfl

theorem fixed_upkeep (kernel : Kernel) (cid : Nat) (sweep : Bool) :
    fixed (upkeep kernel cid sweep) = fixed kernel := by
  unfold upkeep
  split_ifs
  · exact (fixed_schedIntegritySweep _).trans (fixed_sleepUpkeep _)
  · exact fixed_sleepUpkeep _
  · rfl

theorem fixed_taskSleep (kernel : Kernel) (cid : Nat) (ticks : Int) :
    fixed (taskSleep kernel cid ticks) = fixed kernel := by
  unfold taskSleep
  split
  · rfl
  · split_ifs
    · rfl
    · exact (fixed_rqRemove _ _).trans (fixed_setTask _ _ _ (by simp))

theorem fixed_taskWake (kernel : Kernel) (tid : Nat) :
    fixed (taskWake kernel tid) = fixed kernel := by
  unfold taskWake
  split_ifs
  · rfl
  · exact (fixed_rqEnqueueWake _ _).trans (fixed_setTask _ _ _ (by simp))
  · rfl

theorem fixed_taskSetState (kernel : Kernel) (tid : Nat) (state : TaskState) :
    fixed (taskSetState kernel tid state) = fixed kernel := by
  unfold taskSetState
  dsimp only
  split_ifs
  all_goals first
    | rfl
    | exact (fixed_rqEnqueueWake _ _).trans ((fixed_setTask _ _ _ (by simp)).trans
        (fixed_setTask _ _ _ (by simp)))
    | exact (fixed_rqRemove _ _).trans (fixed_setTask _ _ _ (by simp))
    | exact (fixed_setTask _ _ _ (by simp)).trans (fixed_setTask _ _ _ (by simp))
    | exact fixed_setTask _ _ _ (by simp)

theorem fixed_waitpidReap (kernel : Kernel) (self child : Nat) :
    fixed (waitpidReap kernel self child) = fixed kernel := by
  unfold waitpidReap
  split_ifs
  · rfl
  · exact fixed_freeSlot _ _

theorem fixed_parkWaiting (kernel : Kernel) (self : Nat) (pid : Int) :
    fixed (parkWaiting kernel self pid) = fixed kernel :=
  (fixed_rqRemove _ _).trans (fixed_setTask _ _ _ (by simp))

theorem fixed_waitpidPark (kernel : Kernel) (self : Nat) (pid : Int) :
    fixed (waitpidPark kernel self pid) = fixed kernel := by
  unfold waitpidPark
  dsimp only
  split_ifs
  · exact (fixed_setTask _ _ _ (by simp)).trans (fixed_parkWaiting _ _ _)
  · exact fixed_parkWaiting _ _ _

/-! ### exec and attributes -/

theorem fixed_taskExecSwitch (kernel : Kernel) (cid tid image : Nat) :
    fixed (taskExecSwitch kernel cid tid image) = fixed kernel := by
  unfold taskExecSwitch
  dsimp only
  split_ifs
  · exact fixed_vmmSwitchPageDir _ _ _
  · exact fixed_vmmSwitchPageDir _ _ _

theorem fixed_taskExecRewire (kernel : Kernel) (tid image : Nat) (args : ExecArgs) :
    fixed (taskExecRewire kernel tid image args) = fixed kernel :=
  fixed_setTask _ _ _ (by simp)

theorem fixed_setAttribute (kernel : Kernel) (tid : Nat) (value : Attribute) :
    fixed (setAttribute kernel tid value) = fixed kernel := by
  unfold setAttribute
  split_ifs
  · rfl
  · refine fixed_setTask _ _ _ fun task => ?_
    cases value with
    | sigaction =>
      simp only [Attribute.apply]
      split_ifs <;> exact ⟨rfl, rfl, rfl⟩
    | nice =>
      simp only [Attribute.apply]
      split_ifs <;> exact ⟨rfl, rfl, rfl⟩
    | _ => exact ⟨rfl, rfl, rfl⟩

/-! ### Cores -/

theorem quiet_core {kernel : Kernel} {cid : Nat} (quiet : quiet kernel cid = true) :
    cid < kernel.smpCpuCount := by
  simp only [Sched.quiet, Bool.and_eq_true, decide_eq_true_eq] at quiet
  exact quiet.1

end MectovOS.Sched
