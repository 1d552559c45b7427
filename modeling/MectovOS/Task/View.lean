/-
This file is about views of task records. An operation that only moves a task
between queues, or gives its memory back, keeps every view of the table that
does not look at the fields it writes; each claim about the table then names
the fields it looks at once.
-/

import MectovOS.Task.System

namespace MectovOS.Sched

open Function

variable {View : Type} {view : Task → View}

/-- What a view shows of every slot. -/
def viewOf (view : Task → View) (kernel : Kernel) : Nat → View :=
  fun tid => view (kernel.tasks tid)

/-- The view does not look at the queue of a task. -/
def HomeBlind (view : Task → View) : Prop :=
  ∀ task home, view { task with rqCpu := home } = view task

/-- The view does not look at the ticks a task has waited. -/
def WaitBlind (view : Task → View) : Prop :=
  ∀ task wait, view { task with waitTicks := wait } = view task

/-- The view does not look at what `task_cleanup` writes. -/
structure CleanupBlind (view : Task → View) : Prop where
  bitmaps : ∀ task, view { task with mmapRegions := mmapFreeDirtyBitmaps task.mmapRegions } =
    view task
  pageDir : ∀ task pageDir, view { task with pageDir := pageDir } = view task

theorem viewOf_setTask (view : Task → View) (kernel : Kernel) (tid : Nat)
    (change : Task → Task) :
    viewOf view (kernel.setTask tid change) =
      update (viewOf view kernel) tid (view (change (kernel.tasks tid))) := by
  funext other
  by_cases apart : other = tid
  · rw [apart, update_self, viewOf, setTask_same]
  · rw [update_of_ne apart, viewOf, setTask_other _ _ apart]
    rfl

theorem viewOf_unseen (kernel : Kernel) (tid : Nat) (change : Task → Task)
    (blind : ∀ task, view (change task) = view task) :
    viewOf view (kernel.setTask tid change) = viewOf view kernel := by
  rw [viewOf_setTask, blind]
  exact update_eq_self tid (viewOf view kernel)

theorem viewOf_foldl {Item : Type} {operation : Kernel → Item → Kernel}
    (keeps : ∀ kernel item, viewOf view (operation kernel item) = viewOf view kernel)
    (items : List Item) (kernel : Kernel) :
    viewOf view (items.foldl operation kernel) = viewOf view kernel := by
  induction items generalizing kernel with
  | nil => rfl
  | cons item rest inductionHypothesis =>
    rw [List.foldl_cons, inductionHypothesis, keeps]

/-! ### Queues -/

theorem viewOf_rqEnqueue (blind : HomeBlind view) (kernel : Kernel) (cpu tid : Nat) :
    viewOf view (rqEnqueue kernel cpu tid) = viewOf view kernel := by
  unfold rqEnqueue
  split_ifs
  all_goals first | rfl | exact viewOf_unseen _ _ _ fun task => blind task _

theorem viewOf_rqRemove (blind : HomeBlind view) (kernel : Kernel) (tid : Nat) :
    viewOf view (rqRemove kernel tid) = viewOf view kernel := by
  unfold rqRemove
  split_ifs
  · rfl
  · split
    · rfl
    · split_ifs
      · rfl
      · exact viewOf_unseen _ _ _ fun task => blind task _

theorem viewOf_rqEnqueueWake (blind : HomeBlind view) (kernel : Kernel) (tid : Nat) :
    viewOf view (rqEnqueueWake kernel tid) = viewOf view kernel := by
  unfold rqEnqueueWake
  split_ifs
  · rfl
  · rfl
  · exact viewOf_rqEnqueue blind _ _ _

/-- A task record put into its slot is what a view shows of the slot, when the view looks at
neither the queue nor the state. -/
theorem viewOf_publish (blind : HomeBlind view)
    (stateless : ∀ task state, view { task with state := state } = view task)
    (kernel : Kernel) (cpu tid : Nat) (task : Task) :
    viewOf view (publish kernel cpu tid task) =
      update (viewOf view kernel) tid (view task) := by
  unfold publish
  rw [viewOf_rqEnqueue blind]
  unfold occupy
  rw [viewOf_setTask, stateless]
  rfl

/-! ### Page directories -/

theorem viewOf_vmmSwitchPageDir (kernel : Kernel) (cid pageDir : Nat) :
    viewOf view (vmmSwitchPageDir kernel cid pageDir) = viewOf view kernel := by
  unfold vmmSwitchPageDir
  split_ifs <;> rfl

theorem viewOf_deferredPdPush (kernel : Kernel) (pageDir slot : Nat) :
    viewOf view (deferredPdPush kernel pageDir slot) = viewOf view kernel := by
  unfold deferredPdPush
  split_ifs <;> rfl

theorem viewOf_taskCleanup (blind : CleanupBlind view) (kernel : Kernel) (cid tid : Nat) :
    viewOf view (taskCleanup kernel cid tid) = viewOf view kernel := by
  have forgets : ∀ kernel : Kernel, viewOf view (kernel.setTask tid fun task =>
      { task with pageDir := 0 }) = viewOf view kernel :=
    fun kernel => viewOf_unseen _ _ _ fun task => blind.pageDir task 0
  have drops : viewOf view (kernel.setTask tid fun task =>
      { task with mmapRegions := mmapFreeDirtyBitmaps task.mmapRegions }) = viewOf view kernel :=
    viewOf_unseen _ _ _ blind.bitmaps
  unfold taskCleanup
  split_ifs
  · rfl
  · unfold cleanupPageDir
    dsimp only
    split_ifs
    · exact (forgets _).trans ((viewOf_deferredPdPush _ _ _).trans drops)
    · exact (forgets _).trans ((viewOf_vmmSwitchPageDir _ _ _).trans drops)
    · exact (forgets _).trans drops
    · exact (forgets _).trans drops
    · exact drops

theorem viewOf_reapDeferred (fuel : Nat) (kernel : Kernel) (index : Nat) :
    viewOf view (reapDeferred fuel kernel index) = viewOf view kernel := by
  induction fuel generalizing kernel index with
  | zero => rfl
  | succ fuel inductionHypothesis =>
    unfold reapDeferred
    dsimp only
    split_ifs
    · exact inductionHypothesis _ _
    · exact (inductionHypothesis _ _).trans rfl
    · rfl

end MectovOS.Sched
