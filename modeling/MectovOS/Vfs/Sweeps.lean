/-
This file proves what the removals of src/sys/vfs.c leave of a tree. A pass
either changes nothing or frees a slot, so the passes end with one that changes
nothing. A delete frees nodes without children only, so what it leaves is a tree
all along and nothing is left below the node. `vfs_clear_children` frees in the
order of the slots, so nothing is left behind only where children come first.
-/

import MectovOS.Vfs.Tree

namespace MectovOS.Vfs

variable {nodes : Nodes}

/-! ### Passes -/

/-- A step of a pass frees its slot, which is in use, or it changes nothing. -/
def Stepwise (step : Sweep → Nat → Sweep) : Prop :=
  ∀ sweep index, step sweep index = sweep ∨
    ((sweep.nodes index).inUse = true ∧ step sweep index = sweep.free index)

theorem deleteStep_stepwise (actingUid node : Nat) : Stepwise (deleteStep actingUid node) := by
  intro sweep index
  unfold deleteStep
  rw [isProtected_eq_false]
  split
  · exact Or.inl rfl
  split
  · exact Or.inl rfl
  rename_i used
  split
  · exact Or.inl rfl
  rw [if_neg (by decide)]
  split
  · exact Or.inl rfl
  · exact Or.inr ⟨by simpa using used, rfl⟩

theorem clearStep_stepwise (node : Nat) : Stepwise (clearStep node) := by
  intro sweep index
  unfold clearStep
  split
  · exact Or.inl rfl
  rename_i used
  split
  · exact Or.inl rfl
  · exact Or.inr ⟨by simpa using used, rfl⟩

/-- The number of slots in use. -/
def usedCount (nodes : Nodes) : Nat :=
  ((Finset.range maxNodes).filter fun index => (nodes index).inUse = true).card

theorem usedCount_le (nodes : Nodes) : usedCount nodes ≤ maxNodes :=
  (Finset.card_filter_le _ _).trans (Nat.le_of_eq (Finset.card_range maxNodes))

theorem usedCount_release {index : Nat} (within : index < maxNodes)
    (used : (nodes index).inUse = true) : usedCount (release nodes index) < usedCount nodes := by
  refine Finset.card_lt_card ⟨fun other member => ?_, fun same => ?_⟩
  · obtain ⟨inside, is⟩ := Finset.mem_filter.mp member
    refine Finset.mem_filter.mpr ⟨inside, ?_⟩
    unfold release at is
    rcases eq_or_ne other index with rfl | different
    · exact used
    · rwa [Function.update_of_ne different] at is
  · have member := same (Finset.mem_filter.mpr ⟨Finset.mem_range.mpr within, used⟩)
    have is := (Finset.mem_filter.mp member).2
    unfold release at is
    rw [Function.update_self] at is
    exact absurd is (by simp [FsNode.released])

theorem Stepwise.denied {step : Sweep → Nat → Sweep} (stepwise : Stepwise step)
    (indices : List Nat) (sweep : Sweep) :
    (indices.foldl step sweep).denied = sweep.denied := by
  induction indices generalizing sweep with
  | nil => rfl
  | cons index rest inductionHypothesis =>
    rw [List.foldl_cons, inductionHypothesis]
    rcases stepwise sweep index with same | ⟨_, freed⟩
    · rw [same]
    · rw [freed]
      rfl

/-- A pass changes nothing, or it frees a slot. -/
theorem Stepwise.pass {step : Sweep → Nat → Sweep} (stepwise : Stepwise step)
    (indices : List Nat) (inside : ∀ index ∈ indices, index < maxNodes) (sweep : Sweep) :
    (indices.foldl step sweep = sweep ∧ ∀ index ∈ indices, step sweep index = sweep) ∨
    ((indices.foldl step sweep).deleted = true ∧
      usedCount (indices.foldl step sweep).nodes < usedCount sweep.nodes) := by
  induction indices generalizing sweep with
  | nil => exact Or.inl ⟨rfl, fun _ member => absurd member List.not_mem_nil⟩
  | cons index rest inductionHypothesis =>
    have later := inductionHypothesis (fun other member =>
      inside other (List.mem_cons_of_mem _ member)) (step sweep index)
    rw [List.foldl_cons]
    rcases stepwise sweep index with same | ⟨used, freed⟩
    · rw [same] at later ⊢
      rcases later with ⟨still, nothing⟩ | less
      · refine Or.inl ⟨still, fun other member => ?_⟩
        rcases List.mem_cons.mp member with rfl | behind
        · exact same
        · exact nothing other behind
      · exact Or.inr less
    · have less : usedCount (step sweep index).nodes < usedCount sweep.nodes := by
        rw [freed]
        exact usedCount_release (inside index List.mem_cons_self) used
      rcases later with ⟨still, _⟩ | ⟨deleted, more⟩
      · refine Or.inr ⟨?_, ?_⟩
        · rw [still, freed]
          rfl
        · rw [still]
          exact less
      · exact Or.inr ⟨deleted, more.trans less⟩

/-- The passes end with one that changes nothing. -/
theorem Stepwise.settles {step : Sweep → Nat → Sweep} (stepwise : Stepwise step) {fuel : Nat}
    {sweep : Sweep} (enough : usedCount sweep.nodes < fuel) (allowed : sweep.denied = false) :
    ∀ index < maxNodes, step (sweepAll step fuel sweep) index = sweepAll step fuel sweep := by
  induction fuel generalizing sweep with
  | zero => exact absurd enough (Nat.not_lt_zero _)
  | succ fuel inductionHypothesis =>
    have denied : (sweepOnce step sweep).denied = false :=
      (stepwise.denied _ _).trans allowed
    unfold Vfs.sweepAll
    rcases stepwise.pass (List.range maxNodes) (fun index member => List.mem_range.mp member)
      { sweep with deleted := false } with ⟨same, nothing⟩ | ⟨deleted, less⟩
    · have once : sweepOnce step sweep = { sweep with deleted := false } := same
      rw [once, if_neg (by simp)]
      exact fun index within => nothing index (List.mem_range.mpr within)
    · have once : (sweepOnce step sweep).deleted = true := deleted
      rw [if_pos (by rw [once, denied]; rfl)]
      exact inductionHypothesis (Nat.lt_of_lt_of_le less (Nat.le_of_lt_succ enough)) denied

/-! ### The passes of a delete -/

/-- A node without children leaves a tree. -/
theorem TreeSound.release {index : Nat} (sound : TreeSound nodes) (notRoot : index ≠ 0)
    (used : (nodes index).inUse = true) (childless : hasChildren nodes index = false) :
    TreeSound (release nodes index) := by
  refine sound.drop ((Freed.start nodes fun _ => True).free used trivial) ?_ ?_
  · simpa using notRoot.symm
  · intro child parent link member
    obtain rfl := List.mem_singleton.mp member
    rw [sound.hasChild link] at childless
    exact absurd childless (by simp)

theorem below_ne_root (sound : TreeSound nodes) {node index : Nat}
    (below : Below nodes node index) : index ≠ 0 := by
  rintro rfl
  obtain ⟨parent, link, _⟩ := Relation.TransGen.head'_iff.mp below
  rw [ParentOf, sound.root.2.2] at link
  exact absurd link.2 (by simp)

theorem TreeSound.deleteStep {actingUid node : Nat} (sweep : Sweep) (index : Nat)
    (sound : TreeSound sweep.nodes) :
    TreeSound (deleteStep actingUid node sweep index).nodes := by
  unfold Vfs.deleteStep
  split
  · exact sound
  split
  · exact sound
  split
  · exact sound
  split
  · exact sound
  split
  · exact sound
  · rename_i _ used below _ childless
    rw [Bool.not_eq_false] at used below
    rw [Bool.not_eq_true] at childless
    exact sound.release (below_ne_root sound (isDescendant_below used below)) used childless

/-- A delete keeps the tree in each of its passes. -/
theorem TreeSound.sweepAll {actingUid node : Nat} (fuel : Nat) {sweep : Sweep}
    (sound : TreeSound sweep.nodes) :
    TreeSound (sweepAll (Vfs.deleteStep actingUid node) fuel sweep).nodes := by
  have pass : ∀ (indices : List Nat) (sweep : Sweep), TreeSound sweep.nodes →
      TreeSound (indices.foldl (Vfs.deleteStep actingUid node) sweep).nodes := by
    intro indices
    induction indices with
    | nil => exact fun _ before => before
    | cons index rest inductionHypothesis =>
      exact fun sweep before => inductionHypothesis _ (TreeSound.deleteStep sweep index before)
  induction fuel generalizing sweep with
  | zero => exact sound
  | succ fuel inductionHypothesis =>
    have once : TreeSound (sweepOnce (Vfs.deleteStep actingUid node) sweep).nodes :=
      pass (List.range maxNodes) { sweep with deleted := false } sound
    unfold Vfs.sweepAll
    split
    · exact inductionHypothesis once
    · exact once

/-- With fuel for every slot, a delete leaves nothing below the node. -/
theorem sweepAll_childless {actingUid node fuel : Nat} {sweep : Sweep}
    (sound : TreeSound sweep.nodes) (enough : maxNodes < fuel) (allowed : sweep.denied = false)
    (child : Nat) :
    ¬ ParentOf (sweepAll (deleteStep actingUid node) fuel sweep).nodes child node := by
  have left := @TreeSound.sweepAll actingUid node fuel _ sound
  have settled := (deleteStep_stepwise actingUid node).settles
    (Nat.lt_of_le_of_lt (usedCount_le sweep.nodes) enough) allowed
  have denied := @sweepAll_denied actingUid node fuel _ allowed
  revert left settled denied
  generalize sweepAll (deleteStep actingUid node) fuel sweep = final
  intro left settled denied link
  obtain ⟨lowest, below, childless⟩ := left.lowest (Relation.TransGen.single link)
  obtain ⟨parent, up, _⟩ := Relation.TransGen.head'_iff.mp below
  have step := settled lowest (left.within lowest up.1)
  unfold deleteStep at step
  rw [if_neg (by rw [denied]; simp), if_neg (by rw [up.1]; simp),
    if_neg (by rw [left.descendant below]; simp), if_neg (by rw [isProtected_eq_false]; simp),
    if_neg (by rw [childless]; simp)] at step
  have longer := congrArg (fun sweep => sweep.freed.length) step
  simp [Sweep.free] at longer

/-- A delete leaves a tree, with nothing below the node. -/
theorem deleteSweep_tree {actingUid node : Nat} (sound : TreeSound nodes)
    (clean : isRecursive (nodes node).type = true ∨ hasChildren nodes node = false) :
    TreeSound (deleteSweep nodes actingUid node).nodes ∧
      ∀ child, ¬ ParentOf (deleteSweep nodes actingUid node).nodes child node := by
  have enough : maxNodes < maxNodes + 1 := Nat.lt_succ_self maxNodes
  unfold deleteSweep
  revert enough
  generalize maxNodes + 1 = fuel
  intro enough
  split
  · exact ⟨@TreeSound.sweepAll _ _ fuel (Sweep.start nodes) sound,
      @sweepAll_childless _ _ _ (Sweep.start nodes) sound enough rfl⟩
  · rename_i flat
    refine ⟨sound, fun child link => ?_⟩
    rcases clean with recursive | childless
    · exact flat recursive
    · rw [show hasChildren nodes node = true from sound.hasChild link] at childless
      exact absurd childless (by simp)

/-- A node that a delete removes cleanly: a RAM directory has nothing in it. -/
def Clean (nodes : Nodes) (node : Nat) : Prop :=
  (nodes node).type = .ramDir → hasChildren nodes node = false

theorem Clean.recursive {node : Nat} (sound : TreeSound nodes) (clean : Clean nodes node) :
    isRecursive (nodes node).type = true ∨ hasChildren nodes node = false := by
  by_cases typed : isDirType (nodes node).type = true
  · by_cases ram : (nodes node).type = .ramDir
    · exact Or.inr (clean ram)
    · refine Or.inl ?_
      unfold isDirType at typed
      unfold isRecursive
      simpa [ram] using typed
  · refine Or.inr ?_
    by_contra has
    rw [Bool.not_eq_false] at has
    obtain ⟨child, link⟩ := hasChildren_parentOf has
    have notRoot : child ≠ 0 := below_ne_root sound (Relation.TransGen.single link)
    obtain ⟨parent, is, _, dir⟩ := sound.parent child notRoot link.1
    obtain rfl := Option.some.inj (link.2.symm.trans is)
    exact typed dir

/-- A clean delete keeps the tree. -/
theorem deleteNode_tree {busy : Nat → Bool} {actingUid node : Nat} (sound : TreeSound nodes)
    (used : (nodes node).inUse = true) (clean : Clean nodes node) :
    TreeSound (deleteNode nodes busy actingUid node).2.nodes := by
  rcases deleteNode_eq nodes busy actingUid node with ⟨deletable, done⟩ | ⟨_, code, _, failed⟩
  · rw [done]
    obtain ⟨left, childless⟩ := @deleteSweep_tree _ actingUid _ sound
      (clean.recursive sound)
    have freed := deleteSweep_freed nodes actingUid node
    have notRoot : node ≠ 0 := by
      unfold isDeletable at deletable
      simp only [Bool.and_eq_true, decide_eq_true_eq] at deletable
      exact deletable.1.1
    have stays : node ∉ (deleteSweep nodes actingUid node).freed :=
      fun member => sound.acyclic (freed.may node member)
    refine left.release notRoot ?_ ?_
    · rw [freed.kept stays]
      exact used
    · by_contra has
      rw [Bool.not_eq_false] at has
      obtain ⟨child, link⟩ := hasChildren_parentOf has
      exact childless child link
  · rw [failed]
    exact sound

/-! ### The passes of `vfs_clear_children` -/

/-- Below the node, every child comes before its parent in the table. -/
def ChildrenFirst (nodes : Nodes) (node : Nat) : Prop :=
  ∀ child parent, Below nodes node parent → ParentOf nodes child parent → child < parent

theorem Stepwise.freed_subset {step : Sweep → Nat → Sweep} (stepwise : Stepwise step)
    (fuel : Nat) (sweep : Sweep) : sweep.freed ⊆ (sweepAll step fuel sweep).freed := by
  have pass : ∀ (indices : List Nat) (sweep : Sweep),
      sweep.freed ⊆ (indices.foldl step sweep).freed := by
    intro indices
    induction indices with
    | nil => exact fun _ => List.Subset.refl _
    | cons index rest inductionHypothesis =>
      intro sweep
      refine List.Subset.trans ?_ (inductionHypothesis (step sweep index))
      rcases stepwise sweep index with same | ⟨_, freed⟩
      · rw [same]
        exact List.Subset.refl _
      · rw [freed]
        exact List.subset_cons_self index sweep.freed
  induction fuel generalizing sweep with
  | zero => exact List.Subset.refl _
  | succ fuel inductionHypothesis =>
    have once := pass (List.range maxNodes) { sweep with deleted := false }
    unfold Vfs.sweepAll
    split
    · exact List.Subset.trans once (inductionHypothesis _)
    · exact once

/-- The first part of a pass has freed the slots below the node that it has come to. -/
theorem clearPass_freed {node : Nat} (sound : TreeSound nodes) (first : ChildrenFirst nodes node)
    (count : Nat) :
    Freed nodes ((List.range count).foldl (clearStep node) (Sweep.start nodes)).nodes
      ((List.range count).foldl (clearStep node) (Sweep.start nodes)).freed (Below nodes node) ∧
    ∀ index, index ∈ ((List.range count).foldl (clearStep node) (Sweep.start nodes)).freed ↔
      index < count ∧ Below nodes node index := by
  induction count with
  | zero =>
    refine ⟨Freed.start nodes _, fun index => ?_⟩
    simp [Sweep.start]
  | succ count inductionHypothesis =>
    rw [List.range_succ, List.foldl_append]
    simp only [List.foldl_cons, List.foldl_nil]
    revert inductionHypothesis
    generalize (List.range count).foldl (clearStep node) (Sweep.start nodes) = sweep
    rintro ⟨freed, which⟩
    refine ⟨Freed.clearStep sweep count freed, ?_⟩
    have rootStays : 0 ∉ sweep.freed := fun member =>
      below_ne_root sound ((which 0).mp member).2 rfl
    have left : TreeSound sweep.nodes := by
      refine sound.drop freed rootStays fun child parent link member => ?_
      obtain ⟨before, below⟩ := (which parent).mp member
      exact (which child).mpr
        ⟨(first child parent below link).trans before, Relation.TransGen.head link below⟩
    have still : ∀ start, Below nodes node start → count ≤ start →
        Below sweep.nodes node start := by
      intro start below
      induction below using Relation.TransGen.head_induction_on with
      | @single start link =>
        intro later
        have kept := freed.kept fun member => absurd ((which start).mp member).1 (by omega)
        refine Relation.TransGen.single ?_
        unfold ParentOf
        rw [kept]
        exact link
      | @head start parent link rest inductionHypothesis =>
        intro later
        have kept := freed.kept fun member => absurd ((which start).mp member).1 (by omega)
        refine Relation.TransGen.head ?_ (inductionHypothesis
          (later.trans (Nat.le_of_lt (first start parent rest link))))
        unfold ParentOf
        rw [kept]
        exact link
    have notYet : count ∉ sweep.freed := fun member => absurd ((which count).mp member).1 (by omega)
    have here : Below nodes node count → (clearStep node sweep count).freed =
        count :: sweep.freed := by
      intro below
      have inside := still count below (Nat.le_refl count)
      obtain ⟨parent, link, _⟩ := Relation.TransGen.head'_iff.mp inside
      unfold clearStep
      rw [if_neg (by rw [link.1]; simp), if_neg (by rw [left.descendant inside]; simp)]
      rfl
    have there : ¬ Below nodes node count → (clearStep node sweep count).freed = sweep.freed := by
      intro apart
      unfold clearStep
      split
      · rfl
      split
      · rfl
      · rename_i used below
        rw [Bool.not_eq_false] at used below
        exact absurd (freed.below (isDescendant_below used below)) apart
    intro index
    by_cases below : Below nodes node count
    · rw [here below, List.mem_cons, which index]
      constructor
      · rintro (rfl | ⟨before, inside⟩)
        · exact ⟨Nat.lt_succ_self _, below⟩
        · exact ⟨Nat.lt_succ_of_lt before, inside⟩
      · rintro ⟨before, inside⟩
        rcases Nat.lt_succ_iff_lt_or_eq.mp before with earlier | same
        · exact Or.inr ⟨earlier, inside⟩
        · exact Or.inl same
    · rw [there below, which index]
      constructor
      · rintro ⟨before, inside⟩
        exact ⟨Nat.lt_succ_of_lt before, inside⟩
      · rintro ⟨before, inside⟩
        rcases Nat.lt_succ_iff_lt_or_eq.mp before with earlier | same
        · exact ⟨earlier, inside⟩
        · subst same
          exact absurd inside below

/-- Where children come first, `vfs_clear_children` frees everything below the node. -/
theorem clearChildren_all {node index : Nat} (sound : TreeSound nodes)
    (within : node < maxNodes) (first : ChildrenFirst nodes node)
    (below : Below nodes node index) : index ∈ (clearChildren nodes node).freed := by
  obtain ⟨parent, link, _⟩ := Relation.TransGen.head'_iff.mp below
  have inPass := (clearPass_freed sound first maxNodes).2 index |>.mpr
    ⟨sound.within index link.1, below⟩
  have once : index ∈ (sweepOnce (clearStep node) (Sweep.start nodes)).freed := inPass
  unfold clearChildren
  rw [if_neg (Nat.not_le.mpr within)]
  unfold Vfs.sweepAll
  generalize maxNodes = fuel
  split
  · exact (clearStep_stepwise node).freed_subset fuel _ once
  · exact once

/-- Where children come first, `vfs_clear_children` leaves a tree. -/
theorem clearChildren_tree {node : Nat} (sound : TreeSound nodes) (within : node < maxNodes)
    (first : ChildrenFirst nodes node) : TreeSound (clearChildren nodes node).nodes := by
  have freed := clearChildren_freed nodes node
  refine sound.drop freed (fun member => below_ne_root sound (freed.may 0 member) rfl)
    fun child parent link member => ?_
  exact clearChildren_all sound within first
    (Relation.TransGen.head link (freed.may parent member))

end MectovOS.Vfs
