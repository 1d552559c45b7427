/-
This file models how src/sys/vfs.c takes nodes out of the table: the delete of a
node with everything below it, `vfs_clear_children`, and the drop of a tmpfs.
Each walks up from a node to see whether it lies below another one. A removal
gives back the slots it freed, the latest first, because the buffers and cache
entries of those slots go with them.
-/

import MectovOS.Vfs.Node
import Mathlib.Logic.Relation

namespace MectovOS.Vfs

open Function

/-! ### Slots -/

/-- A node whose slot is given back. -/
def FsNode.released (node : FsNode) : FsNode :=
  { node with inUse := false, size := 0, dataSector := 0 }

def release (nodes : Nodes) (index : Nat) : Nodes :=
  update nodes index (nodes index).released

/-- The walk up from a parent link: it ends at the node, at a free slot, or after so many hops. -/
def climbs (nodes : Nodes) (node : Nat) : Nat → Option Nat → Bool
  | 0, _ => false
  | _ + 1, none => false
  | hops + 1, some parent =>
    if parent = node then true
    else if (nodes parent).inUse then climbs nodes node hops (nodes parent).parent
    else false

/-- The test for a descendant that the delete and `vfs_clear_children` share. -/
def isDescendant (nodes : Nodes) (node index : Nat) : Bool :=
  climbs nodes node maxNodes (nodes index).parent

/-- Does the node have a child? -/
def hasChildren (nodes : Nodes) (index : Nat) : Bool :=
  (List.range maxNodes).any fun child =>
    (nodes child).inUse && decide ((nodes child).parent = some index)

/-- What the passes over the table have done so far: the slots freed, whether the current pass
freed one, and whether a protected file stopped it. -/
structure Sweep where
  nodes : Nodes
  freed : List Nat
  deleted : Bool
  denied : Bool

def Sweep.free (sweep : Sweep) (index : Nat) : Sweep :=
  { sweep with
    nodes := release sweep.nodes index
    freed := index :: sweep.freed
    deleted := true }

/-! ### Removal of a subtree -/

/-- One node of a pass of `vfs_delete_node`: a descendant without children goes. -/
def deleteStep (actingUid node : Nat) (sweep : Sweep) (index : Nat) : Sweep :=
  if sweep.denied then sweep
  else if (sweep.nodes index).inUse = false then sweep
  else if isDescendant sweep.nodes node index = false then sweep
  else if isProtected sweep.nodes actingUid index then { sweep with denied := true }
  else if hasChildren sweep.nodes index then sweep
  else sweep.free index

/-- One node of a pass of `vfs_clear_children`: every descendant goes. -/
def clearStep (node : Nat) (sweep : Sweep) (index : Nat) : Sweep :=
  if (sweep.nodes index).inUse = false then sweep
  else if isDescendant sweep.nodes node index = false then sweep
  else sweep.free index

/-- One pass over the whole table. -/
def sweepOnce (step : Sweep → Nat → Sweep) (sweep : Sweep) : Sweep :=
  (List.range maxNodes).foldl step { sweep with deleted := false }

/-- Passes until one frees nothing. Each pass but the last frees a slot, so there are at most as
many as the fuel allows. -/
def sweepAll (step : Sweep → Nat → Sweep) : Nat → Sweep → Sweep
  | 0, sweep => sweep
  | fuel + 1, sweep =>
    if (sweepOnce step sweep).deleted && !(sweepOnce step sweep).denied then
      sweepAll step fuel (sweepOnce step sweep)
    else sweepOnce step sweep

/-- A sweep that has not begun. -/
def Sweep.start (nodes : Nodes) : Sweep := ⟨nodes, [], false, false⟩

/-- `vfs_clear_children`. -/
def clearChildren (nodes : Nodes) (node : Nat) : Sweep :=
  if maxNodes ≤ node then Sweep.start nodes
  else sweepAll (clearStep node) (maxNodes + 1) (Sweep.start nodes)

/-- One node of `vfs_tmpfs_free_subtree`. -/
def tmpfsFreeStep (mountNode : Nat) (sweep : Sweep) (index : Nat) : Sweep :=
  if index ≠ 0 ∧ (sweep.nodes index).inUse = true ∧ isRamType (sweep.nodes index).type = true ∧
      (sweep.nodes index).parent = some mountNode then
    sweep.free index
  else sweep

/-- `vfs_tmpfs_free_subtree`, which drops the direct children only. -/
def tmpfsFreeSubtree (nodes : Nodes) (mountNode : Nat) : Sweep :=
  if maxNodes ≤ mountNode then Sweep.start nodes
  else (List.range maxNodes).foldl (tmpfsFreeStep mountNode) (Sweep.start nodes)

/-! ### Delete -/

/-- The permanent nodes of `vfs_delete_node`: virtual files, `/proc`, `/tmp`, and the directories
of the processes. -/
def isPermanent (nodes : Nodes) (node : Nat) : Bool :=
  let it := nodes node
  decide (it.type = .proc) ||
    (decide (it.type = .dir) && decide (it.parent = some 0) &&
      decide (it.name = ['p', 'r', 'o', 'c'])) ||
    (decide (it.type = .ramDir) && decide (it.parent = some 0) &&
      decide (it.name = ['t', 'm', 'p'])) ||
    (decide (it.type = .dir) &&
      match it.parent with
      | none => false
      | some above =>
        decide (0 < above) && (nodes above).inUse && decide ((nodes above).parent = some 0) &&
          decide ((nodes above).name = ['p', 'r', 'o', 'c']) && decide (it.name ≠ []) &&
          it.name.all Char.isDigit)

/-- Does the delete go below the node? RAM directories are not in its list. -/
def isRecursive (type : FsType) : Bool :=
  decide (type = .dir) || decide (type = .ext2Dir) || decide (type = .fat32Dir)

/-- The passes of a delete over the nodes below it. -/
def deleteSweep (nodes : Nodes) (actingUid node : Nat) : Sweep :=
  if isRecursive (nodes node).type then
    sweepAll (deleteStep actingUid node) (maxNodes + 1) (Sweep.start nodes)
  else Sweep.start nodes

/-- `vfs_delete_node` from the node that the path names on; `busy` tells which nodes an open
descriptor refers to. -/
def deleteNode (nodes : Nodes) (busy : Nat → Bool) (actingUid node : Nat) : Int × Sweep :=
  if node = 0 then (-3, Sweep.start nodes)
  else if isPermanent nodes node then (-7, Sweep.start nodes)
  else if isProtected nodes actingUid node then (-8, Sweep.start nodes)
  else if busy node then (-6, Sweep.start nodes)
  else if (deleteSweep nodes actingUid node).denied then (-8, deleteSweep nodes actingUid node)
  else (0, (deleteSweep nodes actingUid node).free node)

/-! ### What a removal frees -/

/-- The node is in use, and its parent link names the other one. -/
def ParentOf (nodes : Nodes) (index parent : Nat) : Prop :=
  (nodes index).inUse = true ∧ (nodes index).parent = some parent

/-- The node lies below another one. -/
def Below (nodes : Nodes) (node index : Nat) : Prop :=
  Relation.TransGen (ParentOf nodes) index node

/-- Slots were freed, each of a node in use that could go, and all other slots are as before. -/
structure Freed (nodes next : Nodes) (freed : List Nat) (may : Nat → Prop) : Prop where
  slot : ∀ index, next index = if index ∈ freed then (nodes index).released else nodes index
  used : ∀ index ∈ freed, (nodes index).inUse = true
  may : ∀ index ∈ freed, may index

variable {nodes next : Nodes} {freed : List Nat} {may : Nat → Prop}

theorem Freed.start (nodes : Nodes) (may : Nat → Prop) : Freed nodes nodes [] may :=
  ⟨fun _ => (if_neg List.not_mem_nil).symm, fun _ member => absurd member List.not_mem_nil,
    fun _ member => absurd member List.not_mem_nil⟩

theorem Freed.kept (freed' : Freed nodes next freed may) {index : Nat} (stays : index ∉ freed) :
    next index = nodes index := (freed'.slot index).trans (if_neg stays)

/-- What is still in use was not freed. -/
theorem Freed.same (freed' : Freed nodes next freed may) {index : Nat}
    (used : (next index).inUse = true) : next index = nodes index := by
  refine freed'.kept fun gone => ?_
  rw [freed'.slot, if_pos gone] at used
  exact absurd used (by simp [FsNode.released])

theorem Freed.gone (freed' : Freed nodes next freed may) {index : Nat} (member : index ∈ freed) :
    (next index).inUse = false := by
  rw [freed'.slot, if_pos member]
  rfl

theorem Freed.free (freed' : Freed nodes next freed may) {index : Nat}
    (used : (next index).inUse = true) (goes : may index) :
    Freed nodes (release next index) (index :: freed) may := by
  have same := freed'.same used
  refine ⟨fun other => ?_, fun other member => ?_, fun other member => ?_⟩
  · unfold release
    rcases eq_or_ne other index with rfl | different
    · rw [update_self, if_pos List.mem_cons_self, same]
    · rw [update_of_ne different, freed'.slot]
      simp only [List.mem_cons, different, false_or]
  · rcases List.mem_cons.mp member with rfl | before
    · rw [← same]
      exact used
    · exact freed'.used other before
  · rcases List.mem_cons.mp member with rfl | before
    · exact goes
    · exact freed'.may other before

/-- A node that was in use is given back, for the first or the second time. -/
theorem Freed.again (freed' : Freed nodes next freed may) {index : Nat}
    (used : (nodes index).inUse = true) (goes : may index) :
    Freed nodes (release next index) (index :: freed) may := by
  by_cases gone : index ∈ freed
  · refine ⟨fun other => ?_, fun other member => ?_, fun other member => ?_⟩
    · unfold release
      rcases eq_or_ne other index with rfl | different
      · rw [update_self, if_pos List.mem_cons_self, freed'.slot, if_pos gone]
        rfl
      · rw [update_of_ne different, freed'.slot]
        simp only [List.mem_cons, different, false_or]
    · rcases List.mem_cons.mp member with rfl | before
      · exact used
      · exact freed'.used other before
    · rcases List.mem_cons.mp member with rfl | before
      · exact goes
      · exact freed'.may other before
  · refine freed'.free ?_ goes
    rw [freed'.kept gone]
    exact used

theorem Freed.mono (freed' : Freed nodes next freed may) {wider : Nat → Prop}
    (wide : ∀ index, may index → wider index) : Freed nodes next freed wider :=
  ⟨freed'.slot, freed'.used, fun index member => wide index (freed'.may index member)⟩

/-- Nothing new comes to lie below a node when slots are freed. -/
theorem Freed.below (freed' : Freed nodes next freed may) {node index : Nat}
    (below : Below next node index) : Below nodes node index := by
  have same : ∀ child parent, ParentOf next child parent → ParentOf nodes child parent := by
    intro child parent link
    rw [ParentOf, freed'.same link.1] at link
    exact link
  exact Relation.TransGen.mono same index node below

theorem climbs_below {node hops index : Nat} (used : (nodes index).inUse = true)
    (climb : climbs nodes node hops (nodes index).parent = true) : Below nodes node index := by
  induction hops generalizing index with
  | zero => exact absurd climb (by simp [climbs])
  | succ hops inductionHypothesis =>
    cases above : (nodes index).parent with
    | none =>
      rw [above] at climb
      exact absurd climb (by simp [climbs])
    | some parent =>
      rw [above, climbs] at climb
      split at climb
      · rename_i reached
        exact Relation.TransGen.single ⟨used, reached ▸ above⟩
      split at climb
      · rename_i used'
        exact Relation.TransGen.head ⟨used, above⟩ (inductionHypothesis used' climb)
      · exact absurd climb (by simp)

/-- A node that passes the test lies below the other one. -/
theorem isDescendant_below {node index : Nat} (used : (nodes index).inUse = true)
    (below : isDescendant nodes node index = true) : Below nodes node index :=
  climbs_below used below

/-- What a pass frees, when each of its steps frees a node that may go or nothing. -/
theorem Freed.fold {step : Sweep → Nat → Sweep}
    (preserves : ∀ sweep index, Freed nodes sweep.nodes sweep.freed may →
      Freed nodes (step sweep index).nodes (step sweep index).freed may)
    (indices : List Nat) {sweep : Sweep} (before : Freed nodes sweep.nodes sweep.freed may) :
    Freed nodes (indices.foldl step sweep).nodes (indices.foldl step sweep).freed may := by
  induction indices generalizing sweep with
  | nil => exact before
  | cons index rest inductionHypothesis => exact inductionHypothesis (preserves sweep index before)

theorem Freed.sweepAll {step : Sweep → Nat → Sweep}
    (preserves : ∀ sweep index, Freed nodes sweep.nodes sweep.freed may →
      Freed nodes (step sweep index).nodes (step sweep index).freed may)
    (fuel : Nat) {sweep : Sweep} (before : Freed nodes sweep.nodes sweep.freed may) :
    Freed nodes (sweepAll step fuel sweep).nodes (sweepAll step fuel sweep).freed may := by
  induction fuel generalizing sweep with
  | zero => exact before
  | succ fuel inductionHypothesis =>
    have pass : Freed nodes (sweepOnce step sweep).nodes (sweepOnce step sweep).freed may :=
      Freed.fold preserves (List.range maxNodes) before
    unfold Vfs.sweepAll
    split
    · exact inductionHypothesis pass
    · exact pass

theorem Freed.deleteStep {actingUid node : Nat} (sweep : Sweep) (index : Nat)
    (before : Freed nodes sweep.nodes sweep.freed (Below nodes node)) :
    Freed nodes (deleteStep actingUid node sweep index).nodes
      (deleteStep actingUid node sweep index).freed (Below nodes node) := by
  unfold Vfs.deleteStep
  split
  · exact before
  split
  · exact before
  split
  · exact before
  split
  · exact before
  split
  · exact before
  · rename_i _ used below _ _
    rw [Bool.not_eq_false] at used below
    exact before.free used (before.below (isDescendant_below used below))

theorem Freed.clearStep {node : Nat} (sweep : Sweep) (index : Nat)
    (before : Freed nodes sweep.nodes sweep.freed (Below nodes node)) :
    Freed nodes (clearStep node sweep index).nodes (clearStep node sweep index).freed
      (Below nodes node) := by
  unfold Vfs.clearStep
  split
  · exact before
  split
  · exact before
  · rename_i used below
    rw [Bool.not_eq_false] at used below
    exact before.free used (before.below (isDescendant_below used below))

/-- `vfs_clear_children` frees nodes below the node. -/
theorem clearChildren_freed (nodes : Nodes) (node : Nat) :
    Freed nodes (clearChildren nodes node).nodes (clearChildren nodes node).freed
      (Below nodes node) := by
  unfold clearChildren
  split
  · exact Freed.start nodes _
  · generalize maxNodes + 1 = fuel
    exact Freed.sweepAll Freed.clearStep fuel (Freed.start nodes _)

/-- The drop of a tmpfs frees RAM nodes directly below the mount point. -/
theorem tmpfsFreeSubtree_freed (nodes : Nodes) (mountNode : Nat) :
    Freed nodes (tmpfsFreeSubtree nodes mountNode).nodes (tmpfsFreeSubtree nodes mountNode).freed
      fun index => isRamType (nodes index).type = true ∧ (nodes index).parent = some mountNode ∧
        index ≠ 0 := by
  unfold tmpfsFreeSubtree
  split
  · exact Freed.start nodes _
  · generalize List.range maxNodes = indices
    refine Freed.fold (fun sweep index before => ?_) indices (Freed.start nodes _)
    unfold tmpfsFreeStep
    split
    · rename_i goes
      refine before.free goes.2.1 ?_
      rw [← before.same goes.2.1]
      exact ⟨goes.2.2.1, goes.2.2.2, goes.1⟩
    · exact before

theorem deleteStep_denied {actingUid node index : Nat} {sweep : Sweep}
    (allowed : sweep.denied = false) : (deleteStep actingUid node sweep index).denied = false := by
  unfold Vfs.deleteStep
  rw [isProtected_eq_false, allowed]
  simp only [Bool.false_eq_true, if_false]
  split
  · exact allowed
  split
  · exact allowed
  split
  · exact allowed
  · exact allowed

/-- No protected file stops the passes: the guard asks for a result that does not occur. -/
theorem sweepAll_denied {actingUid node : Nat} (fuel : Nat) {sweep : Sweep}
    (allowed : sweep.denied = false) :
    (sweepAll (deleteStep actingUid node) fuel sweep).denied = false := by
  have pass : ∀ (indices : List Nat) (before : Sweep), before.denied = false →
      (indices.foldl (deleteStep actingUid node) before).denied = false := by
    intro indices
    induction indices with
    | nil => exact fun _ allowed => allowed
    | cons index rest inductionHypothesis =>
      exact fun before allowed => inductionHypothesis _ (deleteStep_denied allowed)
  induction fuel generalizing sweep with
  | zero => exact allowed
  | succ fuel inductionHypothesis =>
    have once : (sweepOnce (deleteStep actingUid node) sweep).denied = false :=
      pass (List.range maxNodes) _ allowed
    unfold Vfs.sweepAll
    split
    · exact inductionHypothesis once
    · exact once

theorem deleteSweep_denied (nodes : Nodes) (actingUid node : Nat) :
    (deleteSweep nodes actingUid node).denied = false := by
  unfold deleteSweep
  generalize maxNodes + 1 = fuel
  split
  · exact sweepAll_denied fuel rfl
  · rfl

theorem deleteSweep_freed (nodes : Nodes) (actingUid node : Nat) :
    Freed nodes (deleteSweep nodes actingUid node).nodes (deleteSweep nodes actingUid node).freed
      (Below nodes node) := by
  unfold deleteSweep
  generalize maxNodes + 1 = fuel
  split
  · exact Freed.sweepAll Freed.deleteStep fuel (Freed.start nodes _)
  · exact Freed.start nodes _

/-- May the node be deleted? It is neither the root nor permanent, and no descriptor is open. -/
def isDeletable (nodes : Nodes) (busy : Nat → Bool) (node : Nat) : Bool :=
  decide (node ≠ 0) && !isPermanent nodes node && !busy node

/-- A delete frees the node and nodes below it, or it fails and changes nothing. -/
theorem deleteNode_eq (nodes : Nodes) (busy : Nat → Bool) (actingUid node : Nat) :
    (isDeletable nodes busy node = true ∧
      deleteNode nodes busy actingUid node = (0, (deleteSweep nodes actingUid node).free node)) ∨
    (isDeletable nodes busy node = false ∧ ∃ code < 0,
      deleteNode nodes busy actingUid node = (code, Sweep.start nodes)) := by
  unfold deleteNode isDeletable
  rw [isProtected_eq_false, deleteSweep_denied]
  split
  · rename_i root
    exact Or.inr ⟨by simp [root], -3, by decide, rfl⟩
  split
  · rename_i permanent
    exact Or.inr ⟨by simp [permanent], -7, by decide, rfl⟩
  rw [if_neg (by decide)]
  split
  · rename_i open'
    exact Or.inr ⟨by simp [open'], -6, by decide, rfl⟩
  · rename_i root permanent free
    exact Or.inl ⟨by simp [root, permanent, free], rfl⟩

/-- What a delete frees. -/
theorem deleteNode_freed (nodes : Nodes) (busy : Nat → Bool) (actingUid : Nat) {node : Nat}
    (used : (nodes node).inUse = true) :
    Freed nodes (deleteNode nodes busy actingUid node).2.nodes
      (deleteNode nodes busy actingUid node).2.freed
      fun index => index = node ∨ Below nodes node index := by
  rcases deleteNode_eq nodes busy actingUid node with ⟨_, done⟩ | ⟨_, code, _, failed⟩
  · rw [done]
    have swept := (deleteSweep_freed nodes actingUid node).mono
      fun index below => (Or.inr below : index = node ∨ Below nodes node index)
    exact swept.again used (Or.inl rfl)
  · rw [failed]
    exact Freed.start nodes _

end MectovOS.Vfs
