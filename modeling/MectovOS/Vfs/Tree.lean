/-
This file states when the node table of src/sys/vfs.c is a tree of names, and
shows what keeps it one: nodes that change without moving, a new node, a set of
freed slots that is closed below, and a node that moves to a directory that does
not lie below it. The links up from the nodes in use are a forest.
-/

import Mathlib.Data.Set.Finite.Basic
import MectovOS.Lib.Forest
import MectovOS.Vfs.Path
import MectovOS.Vfs.Rename

namespace MectovOS.Vfs

open Forest Function

variable {nodes next : Nodes}

/-! ### Links -/

/-- The link of a node in use to its parent. -/
def upLink (nodes : Nodes) (node : Nat) : Option Nat :=
  if (nodes node).inUse then (nodes node).parent else none

theorem upLink_eq_some {node parent : Nat} :
    upLink nodes node = some parent ↔ ParentOf nodes node parent := by
  unfold upLink ParentOf
  split
  · rename_i used
    simp [used]
  · rename_i free
    simp [free]

theorem step_upLink : Step (upLink nodes) = ParentOf nodes := by
  funext node parent
  exact propext upLink_eq_some

/-- The test for a descendant is a climb. -/
theorem climbs_eq (nodes : Nodes) (node fuel : Nat) (start : Option Nat) :
    climbs nodes node fuel start =
      (climb (upLink nodes) (fun above => decide (above = node)) fuel start).isSome := by
  induction fuel generalizing start with
  | zero => rfl
  | succ fuel inductionHypothesis =>
    cases start with
    | none => rfl
    | some above =>
      rw [climbs, climb]
      by_cases reached : above = node
      · rw [if_pos reached, if_pos (decide_eq_true reached)]
        rfl
      · have passed : ¬ decide (above = node) = true := by
          rw [decide_eq_true_eq]
          exact reached
        rw [if_neg reached, if_neg passed, ← inductionHypothesis, upLink]
        split
        · rfl
        · cases fuel <;> rfl

/-! ### Trees -/

/-- Every node in use but the root has a name that is not empty and has no slash, and a parent in
use that is a directory; its way up ends at the root, and no sibling has its name up to case. -/
structure TreeSound (nodes : Nodes) : Prop where
  within : ∀ node, (nodes node).inUse = true → node < maxNodes
  root : (nodes 0).inUse = true ∧ isDirType (nodes 0).type = true ∧ (nodes 0).parent = none
  named : ∀ node, node ≠ 0 → (nodes node).inUse = true →
    (nodes node).name ≠ [] ∧ '/' ∉ (nodes node).name
  parent : ∀ node, node ≠ 0 → (nodes node).inUse = true → ∃ parent,
    (nodes node).parent = some parent ∧ (nodes parent).inUse = true ∧
      isDirType (nodes parent).type = true
  rooted : ∀ node, (nodes node).inUse = true →
    Relation.ReflTransGen (ParentOf nodes) node 0
  unique : ∀ node other, node ≠ 0 → other ≠ 0 → (nodes node).inUse = true →
    (nodes other).inUse = true → (nodes node).parent = (nodes other).parent →
    strToLower (nodes node).name = strToLower (nodes other).name → node = other

theorem TreeSound.grounded (sound : TreeSound nodes) {node : Nat}
    (used : (nodes node).inUse = true) : Grounded (upLink nodes) node := by
  refine ⟨0, ?_, ?_⟩
  · unfold upLink
    rw [if_pos sound.root.1, sound.root.2.2]
  · rw [Reach, step_upLink]
    exact sound.rooted node used

/-- No node lies below itself. -/
theorem TreeSound.acyclic (sound : TreeSound nodes) {node : Nat} :
    ¬ Below nodes node node := by
  intro cycle
  obtain ⟨parent, link, _⟩ := Relation.TransGen.head'_iff.mp cycle
  have irrefl := (sound.grounded link.1).irrefl
  rw [Under, step_upLink] at irrefl
  exact irrefl cycle

/-- What a node is reached from by going up is in use. -/
theorem TreeSound.above (sound : TreeSound nodes) {node above : Nat}
    (used : (nodes node).inUse = true)
    (way : Relation.ReflTransGen (ParentOf nodes) node above) : (nodes above).inUse = true := by
  induction way with
  | refl => exact used
  | @tail middle upper _ link _ =>
    have other : middle ≠ 0 := by
      rintro rfl
      rw [ParentOf, sound.root.2.2] at link
      exact absurd link.2 (by simp)
    obtain ⟨parent, is, inUse, _⟩ := sound.parent middle other link.1
    obtain rfl := Option.some.inj (link.2.symm.trans is)
    exact inUse

theorem TreeSound.parent_used (sound : TreeSound nodes) {node parent : Nat}
    (link : ParentOf nodes node parent) : (nodes parent).inUse = true :=
  sound.above link.1 (.single link)

/-- The walk up from a node finds everything above it. -/
theorem TreeSound.descendant (sound : TreeSound nodes) {node index : Nat}
    (below : Below nodes node index) : isDescendant nodes node index = true := by
  obtain ⟨parent, link, rest⟩ := Relation.TransGen.head'_iff.mp below
  have used := sound.parent_used link
  unfold Vfs.isDescendant
  rw [climbs_eq, link.2]
  refine @climb_isSome _ _ _ _ _ _ node (Finset.range maxNodes) (sound.grounded used)
    (fun above way => ?_) (Nat.le_of_eq (Finset.card_range maxNodes)) ?_ (by simp)
  · rw [Reach, step_upLink] at way
    exact Finset.mem_range.mpr (sound.within above (sound.above used way))
  · rw [Reach, step_upLink]
    exact rest

theorem TreeSound.hasChild (sound : TreeSound nodes) {node child : Nat}
    (link : ParentOf nodes child node) : hasChildren nodes node = true := by
  unfold Vfs.hasChildren
  refine List.any_eq_true.mpr ⟨child, List.mem_range.mpr (sound.within child link.1), ?_⟩
  rw [link.1, link.2]
  simp

theorem hasChildren_parentOf {node : Nat} (has : hasChildren nodes node = true) :
    ∃ child, ParentOf nodes child node := by
  unfold hasChildren at has
  obtain ⟨child, _, is⟩ := List.any_eq_true.mp has
  simp only [Bool.and_eq_true, decide_eq_true_eq] at is
  exact ⟨child, is⟩

/-- Some node below another one has nothing below it. -/
theorem TreeSound.lowest (sound : TreeSound nodes) {node index : Nat}
    (below : Below nodes node index) :
    ∃ lowest, Below nodes node lowest ∧ hasChildren nodes lowest = false := by
  have finite : Set.Finite {index | Below nodes node index} := by
    refine (Set.finite_lt_nat maxNodes).subset fun index below => ?_
    obtain ⟨parent, link, _⟩ := Relation.TransGen.head'_iff.mp below
    exact sound.within index link.1
  obtain ⟨lowest, under, least⟩ := @exists_lowest _ (upLink nodes) _ finite ⟨index, below⟩
    fun element below => by
      obtain ⟨parent, link, _⟩ := Relation.TransGen.head'_iff.mp below
      exact sound.grounded link.1
  refine ⟨lowest, under, ?_⟩
  by_contra has
  rw [Bool.not_eq_false] at has
  obtain ⟨child, link⟩ := hasChildren_parentOf has
  refine least child (Relation.TransGen.head link under) ?_
  rw [Under, step_upLink]
  exact .single link

/-! ### What keeps a tree -/

/-- The nodes in use keep their names and their places, and directories stay directories. -/
structure SameShape (nodes next : Nodes) : Prop where
  inUse : ∀ node, (next node).inUse = (nodes node).inUse
  name : ∀ node, (nodes node).inUse = true → (next node).name = (nodes node).name
  parent : ∀ node, (nodes node).inUse = true → (next node).parent = (nodes node).parent
  dir : ∀ node, (nodes node).inUse = true → isDirType (nodes node).type = true →
    isDirType (next node).type = true

theorem SameShape.parentOf (same : SameShape nodes next) :
    ParentOf next = ParentOf nodes := by
  funext node parent
  unfold ParentOf
  rw [same.inUse]
  refine propext (and_congr_right fun used => ?_)
  rw [same.parent node used]

theorem SameShape.update {index : Nat} {changed : FsNode}
    (inUse : changed.inUse = (nodes index).inUse) (name : changed.name = (nodes index).name)
    (parent : changed.parent = (nodes index).parent)
    (dir : isDirType (nodes index).type = true → isDirType changed.type = true) :
    SameShape nodes (Function.update nodes index changed) := by
  refine ⟨fun node => ?_, fun node _ => ?_, fun node _ => ?_, fun node _ => ?_⟩
  all_goals
    rcases eq_or_ne node index with rfl | different
  · rw [Function.update_self]
    exact inUse
  · rw [Function.update_of_ne different]
  · rw [Function.update_self]
    exact name
  · rw [Function.update_of_ne different]
  · rw [Function.update_self]
    exact parent
  · rw [Function.update_of_ne different]
  · rw [Function.update_self]
    exact dir
  · rw [Function.update_of_ne different]
    exact id

theorem TreeSound.reshape (sound : TreeSound nodes) (same : SameShape nodes next) :
    TreeSound next := by
  refine ⟨fun node used => ?_, ⟨?_, ?_, ?_⟩, fun node other used => ?_, fun node other used => ?_,
    fun node used => ?_, fun node other first second usedNode usedOther siblings alike => ?_⟩
  · exact sound.within node (by rwa [same.inUse] at used)
  · rw [same.inUse]
    exact sound.root.1
  · exact same.dir 0 sound.root.1 sound.root.2.1
  · rw [same.parent 0 sound.root.1]
    exact sound.root.2.2
  · rw [same.inUse] at used
    rw [same.name node used]
    exact sound.named node other used
  · rw [same.inUse] at used
    obtain ⟨parent, is, inUse, dir⟩ := sound.parent node other used
    exact ⟨parent, (same.parent node used).trans is, (same.inUse parent).trans inUse,
      same.dir parent inUse dir⟩
  · rw [same.inUse] at used
    rw [same.parentOf]
    exact sound.rooted node used
  · rw [same.inUse] at usedNode usedOther
    rw [same.parent node usedNode, same.parent other usedOther] at siblings
    rw [same.name node usedNode, same.name other usedOther] at alike
    exact sound.unique node other first second usedNode usedOther siblings alike

/-- Slots that are freed together with everything below them leave a tree. -/
theorem TreeSound.drop {freed : List Nat} {may : Nat → Prop} (sound : TreeSound nodes)
    (freed' : Freed nodes next freed may) (root : 0 ∉ freed)
    (closed : ∀ child parent, ParentOf nodes child parent → parent ∈ freed → child ∈ freed) :
    TreeSound next := by
  have stays : ∀ node, (next node).inUse = true → node ∉ freed := by
    intro node used member
    rw [freed'.gone member] at used
    exact absurd used (by simp)
  have old : ∀ node, (next node).inUse = true → (nodes node).inUse = true := by
    intro node used
    rw [← freed'.same used]
    exact used
  have rootStays : next 0 = nodes 0 := freed'.kept root
  have up : ∀ child parent, ParentOf nodes child parent → child ∉ freed → parent ∉ freed :=
    fun child parent link kept member => kept (closed child parent link member)
  refine ⟨fun node used => sound.within node (old node used), ?_, fun node other used => ?_,
    fun node other used => ?_, fun node used => ?_,
    fun node other first second usedNode usedOther siblings alike => ?_⟩
  · rw [rootStays]
    exact sound.root
  · rw [freed'.same used]
    exact sound.named node other (old node used)
  · obtain ⟨parent, is, inUse, dir⟩ := sound.parent node other (old node used)
    have kept : next parent = nodes parent :=
      freed'.kept (up node parent ⟨old node used, is⟩ (stays node used))
    refine ⟨parent, ?_, ?_, ?_⟩
    · rw [freed'.same used]
      exact is
    · rw [kept]
      exact inUse
    · rw [kept]
      exact dir
  · have way := sound.rooted node (old node used)
    have outside := stays node used
    clear used
    induction way using Relation.ReflTransGen.head_induction_on with
    | refl => exact .refl
    | @head child parent link _ inductionHypothesis =>
      refine .head ⟨?_, ?_⟩ (inductionHypothesis (up child parent link outside))
      · rw [freed'.kept outside]
        exact link.1
      · rw [freed'.kept outside]
        exact link.2
  · rw [freed'.same usedNode, freed'.same usedOther] at siblings alike
    exact sound.unique node other first second (old node usedNode) (old other usedOther) siblings
      alike

/-- A node in a free slot has nothing below it. -/
theorem TreeSound.childless (sound : TreeSound nodes) {node child : Nat}
    (free : (nodes node).inUse = false) : ¬ ParentOf nodes child node := by
  intro link
  rw [sound.parent_used link] at free
  exact absurd free (by simp)

theorem TreeSound.add {index uid parent : Nat} {name : Name} (sound : TreeSound nodes)
    (added : Added nodes next index uid name parent) : TreeSound next := by
  have old : ∀ node, node ≠ index → (next node).inUse = true → (nodes node).inUse = true := by
    intro node different used
    rw [← added.others node different]
    exact used
  have fresh : ∀ node, (nodes node).inUse = true → node ≠ index := by
    rintro node used rfl
    rw [added.free] at used
    exact absurd used (by simp)
  have notRoot : (0 : Nat) ≠ index := fresh 0 sound.root.1
  have lifted : ∀ node, (nodes node).inUse = true →
      Relation.ReflTransGen (ParentOf next) node 0 := by
    intro node used
    have way := sound.rooted node used
    clear used
    induction way using Relation.ReflTransGen.head_induction_on with
    | refl => exact .refl
    | head link _ inductionHypothesis =>
      refine .head ⟨?_, ?_⟩ inductionHypothesis
      · rw [added.others _ (fresh _ link.1)]
        exact link.1
      · rw [added.others _ (fresh _ link.1)]
        exact link.2
  have single : ∀ node, node ≠ 0 → (nodes node).inUse = true → (nodes node).parent = some parent →
      strToLower (nodes node).name ≠ strToLower name := by
    intro node other used above alike
    have alone := added.alone
    unfold findInDir at alone
    rw [if_neg (Nat.not_le.mpr added.directory.1), if_neg] at alone
    · refine absurd ?_ (List.find?_eq_none.mp alone node
        (List.mem_range.mpr (sound.within node used)))
      unfold isChildNamed
      simp [used, above, alike]
    · rw [added.directory.2.1, added.directory.2.2]
      simp
  refine ⟨fun node used => ?_, ?_, fun node other used => ?_, fun node other used => ?_,
    fun node used => ?_, fun node other first second usedNode usedOther siblings alike => ?_⟩
  · rcases eq_or_ne node index with rfl | different
    · exact added.within
    · exact sound.within node (old node different used)
  · rw [added.others 0 notRoot]
    exact sound.root
  · rcases eq_or_ne node index with rfl | different
    · rw [added.name]
      exact ⟨added.named.1, added.named.2.1⟩
    · rw [added.others node different]
      exact sound.named node other (old node different used)
  · rcases eq_or_ne node index with rfl | different
    · refine ⟨parent, added.parent, ?_⟩
      rw [added.others parent (fresh parent added.directory.2.1)]
      exact added.directory.2
    · obtain ⟨above, is, inUse, dir⟩ := sound.parent node other (old node different used)
      refine ⟨above, ?_⟩
      rw [added.others node different, added.others above (fresh above inUse)]
      exact ⟨is, inUse, dir⟩
  · rcases eq_or_ne node index with rfl | different
    · exact .head ⟨added.used, added.parent⟩ (lifted parent added.directory.2.1)
    · exact lifted node (old node different used)
  · rcases eq_or_ne node index with here | different <;>
      rcases eq_or_ne other index with there | different'
    · exact here.trans there.symm
    · rw [here, added.parent, added.others other different'] at siblings
      rw [here, added.name, added.others other different'] at alike
      exact absurd alike.symm (single other second (old other different' usedOther) siblings.symm)
    · rw [there, added.parent, added.others node different] at siblings
      rw [there, added.name, added.others node different] at alike
      exact absurd alike (single node first (old node different usedNode) siblings)
    · rw [added.others node different, added.others other different'] at siblings alike
      exact sound.unique node other first second (old node different usedNode)
        (old other different' usedOther) siblings alike

/-- The way up from a directory that does not lead through the node. -/
theorem not_leadsThrough {node fuel start : Nat} (root : (nodes 0).parent = none)
    (notRoot : node ≠ 0) (leads : leadsThrough nodes node fuel (some start) = false) :
    ¬ Relation.ReflTransGen (ParentOf nodes) start node := by
  induction fuel generalizing start with
  | zero => exact absurd leads (by simp [leadsThrough])
  | succ fuel inductionHypothesis =>
    intro way
    rw [leadsThrough] at leads
    split at leads
    · rename_i top
      rw [top] at way
      rcases way.cases_head with same | ⟨parent, link, _⟩
      · exact notRoot same.symm
      · rw [ParentOf, root] at link
        exact absurd link.2 (by simp)
    split at leads
    · exact absurd leads (by simp)
    · rename_i other
      rcases way.cases_head with same | ⟨parent, link, rest⟩
      · exact other same
      · rw [link.2] at leads
        exact inductionHypothesis leads rest

/-- A node moves to a directory that does not lie below it, under a name that is free there. -/
theorem TreeSound.move {node newParent : Nat} {name : Name} (sound : TreeSound nodes)
    (notRoot : node ≠ 0) (directory : (nodes newParent).inUse = true ∧
      isDirType (nodes newParent).type = true)
    (apart : ¬ Relation.ReflTransGen (ParentOf nodes) newParent node)
    (named : name ≠ [] ∧ '/' ∉ name)
    (alone : ∀ other, other ≠ node → other ≠ 0 → (nodes other).inUse = true →
      (nodes other).parent = some newParent → strToLower (nodes other).name ≠ strToLower name) :
    TreeSound (update nodes node ((nodes node).moved newParent name)) := by
  have inUse : ∀ other, (update nodes node ((nodes node).moved newParent name)
      other).inUse = (nodes other).inUse := by
    intro other
    rcases eq_or_ne other node with rfl | different
    · rw [update_self]
      rfl
    · rw [update_of_ne different]
  have type : ∀ other, (update nodes node ((nodes node).moved newParent name)
      other).type = (nodes other).type := by
    intro other
    rcases eq_or_ne other node with rfl | different
    · rw [update_self]
      rfl
    · rw [update_of_ne different]
  have link : ∀ {child parent}, child ≠ node → ParentOf nodes child parent →
      ParentOf (update nodes node ((nodes node).moved newParent name)) child parent := by
    intro child parent different link
    unfold ParentOf
    rw [update_of_ne different]
    exact link
  have beside : ∀ start, Relation.ReflTransGen (ParentOf nodes) start 0 →
      ¬ Relation.ReflTransGen (ParentOf nodes) start node → Relation.ReflTransGen
        (ParentOf (update nodes node ((nodes node).moved newParent name))) start 0 := by
    intro start way
    induction way using Relation.ReflTransGen.head_induction_on with
    | refl => exact fun _ => .refl
    | @head child parent up _ inductionHypothesis =>
      intro outside
      have different : child ≠ node := by
        rintro rfl
        exact outside .refl
      exact .head (link different up) (inductionHypothesis fun through => outside (.head up through))
  refine ⟨fun other used => ?_, ⟨?_, ?_, ?_⟩, fun other notTop used => ?_, fun other notTop used => ?_,
    fun other used => ?_, fun first second firstTop secondTop usedFirst usedSecond siblings alike =>
      ?_⟩
  · exact sound.within other (by rwa [inUse] at used)
  · rw [inUse]
    exact sound.root.1
  · rw [type]
    exact sound.root.2.1
  · rw [update_of_ne notRoot.symm]
    exact sound.root.2.2
  · rw [inUse] at used
    rcases eq_or_ne other node with rfl | different
    · rw [update_self]
      exact named
    · rw [update_of_ne different]
      exact sound.named other notTop used
  · rw [inUse] at used
    rcases eq_or_ne other node with rfl | different
    · refine ⟨newParent, by rw [update_self]; rfl, ?_⟩
      rw [inUse, type]
      exact directory
    · obtain ⟨parent, is, parentUsed, dir⟩ := sound.parent other notTop used
      refine ⟨parent, by rw [update_of_ne different]; exact is, ?_⟩
      rw [inUse, type]
      exact ⟨parentUsed, dir⟩
  · rw [inUse] at used
    have way := sound.rooted other used
    clear used
    induction way using Relation.ReflTransGen.head_induction_on with
    | refl => exact .refl
    | @head child parent up rest inductionHypothesis =>
      rcases eq_or_ne child node with rfl | different
      · refine .head ⟨?_, ?_⟩ (beside newParent (sound.rooted newParent directory.1) apart)
        · rw [inUse]
          exact up.1
        · rw [update_self]
          rfl
      · exact .head (link different up) inductionHypothesis
  · rw [inUse] at usedFirst usedSecond
    rcases eq_or_ne first node with here | different <;>
      rcases eq_or_ne second node with there | different'
    · exact here.trans there.symm
    · rw [here, update_self, update_of_ne different'] at siblings alike
      exact absurd alike.symm (alone second different' secondTop usedSecond siblings.symm)
    · rw [there, update_self, update_of_ne different] at siblings alike
      exact absurd alike (alone first different firstTop usedFirst siblings)
    · rw [update_of_ne different, update_of_ne different'] at siblings alike
      exact sound.unique first second firstTop secondTop usedFirst usedSecond siblings alike

end MectovOS.Vfs
