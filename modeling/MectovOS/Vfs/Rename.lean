/-
This file models the rename of src/sys/vfs.c once its paths are resolved: the
node, the directory it goes to, its new name, and the node that the new path
names when the call removes what is there.
-/

import MectovOS.Vfs.Remove

namespace MectovOS.Vfs

/-- What a call returns and leaves behind: the table, and the slots freed, the latest first. -/
structure Outcome where
  result : Int
  nodes : Nodes
  freed : List Nat

/-- Does the way up from a directory lead through the node? A way that does not end counts as
one that does. -/
def leadsThrough (nodes : Nodes) (node : Nat) : Nat → Option Nat → Bool
  | 0, _ => true
  | _ + 1, none => false
  | hops + 1, some above =>
    if above = 0 then false
    else if above = node then true
    else leadsThrough nodes node hops (nodes above).parent

/-- Is the node of a type that only its volume can rename? -/
def onVolume (type : FsType) : Bool :=
  decide (type = .ext2File) || decide (type = .ext2Dir) ||
    decide (type = .fat32File) || decide (type = .fat32Dir)

/-- The type of the directories of the volume. -/
def volumeDir (type : FsType) : FsType :=
  if type = .ext2File ∨ type = .ext2Dir then .ext2Dir else .fat32Dir

/-- A volume renames an entry within its directory only: `renamed` is its answer. -/
def volumeRefuses (nodes : Nodes) (node newParent : Nat) (renamed : Bool) : Bool :=
  onVolume (nodes node).type &&
    (decide ((nodes node).parent ≠ some newParent) ||
      decide ((nodes newParent).type ≠ volumeDir (nodes node).type) || !renamed)

/-- The node once it is moved. -/
def FsNode.moved (node : FsNode) (parent : Nat) (name : Name) : FsNode :=
  { node with parent := some parent, name := name }

/-- The removal of what the new path names, when the directory has an entry of the new name. -/
def clearTarget (nodes : Nodes) (busy : Nat → Bool) (actingUid newParent : Nat) (name : Name)
    (target : Option Nat) : Sweep :=
  match findInDir nodes name newParent, target with
  | some _, some node => (deleteNode nodes busy actingUid node).2
  | _, _ => Sweep.start nodes

/-- The second half of `vfs_rename`: the target goes, and the node moves unless its volume
refuses. -/
def renameInto (nodes : Nodes) (busy : Nat → Bool) (renamed : Bool)
    (actingUid node newParent : Nat) (name : Name) (target : Option Nat) : Outcome :=
  let cleared := clearTarget nodes busy actingUid newParent name target
  if volumeRefuses cleared.nodes node newParent renamed then ⟨-5, cleared.nodes, cleared.freed⟩
  else ⟨0, Function.update cleared.nodes node ((cleared.nodes node).moved newParent name),
    cleared.freed⟩

/-- `vfs_rename` behind its lookups. -/
def renameNode (nodes : Nodes) (busy : Nat → Bool) (renamed : Bool)
    (actingUid node newParent : Nat) (name : Name) (target : Option Nat) : Outcome :=
  if node = 0 then ⟨-3, nodes, []⟩
  else if isProtected nodes actingUid node then ⟨-8, nodes, []⟩
  else if newParent = node ∨ leadsThrough nodes node (maxNodes + 1) (some newParent) then
    ⟨-4, nodes, []⟩
  else renameInto nodes busy renamed actingUid node newParent name target

/-! ### What a rename changes -/

variable {nodes : Nodes} {busy : Nat → Bool} {actingUid newParent : Nat} {name : Name}
  {target : Option Nat}

/-- A rename clears the target, and then it may move the node. -/
theorem renameNode_cases (nodes : Nodes) (busy : Nat → Bool) (renamed : Bool)
    (actingUid node newParent : Nat) (name : Name) (target : Option Nat) :
    (∃ code < 0, renameNode nodes busy renamed actingUid node newParent name target =
        ⟨code, nodes, []⟩) ∨
    ∃ cleared, cleared = clearTarget nodes busy actingUid newParent name target ∧ node ≠ 0 ∧
      newParent ≠ node ∧ leadsThrough nodes node (maxNodes + 1) (some newParent) = false ∧
      ((volumeRefuses cleared.nodes node newParent renamed = true ∧
        renameNode nodes busy renamed actingUid node newParent name target =
          ⟨-5, cleared.nodes, cleared.freed⟩) ∨
      (volumeRefuses cleared.nodes node newParent renamed = false ∧
        renameNode nodes busy renamed actingUid node newParent name target =
          ⟨0, Function.update cleared.nodes node ((cleared.nodes node).moved newParent name),
            cleared.freed⟩)) := by
  unfold renameNode renameInto
  split
  · exact Or.inl ⟨-3, by decide, rfl⟩
  rename_i root
  split
  · exact Or.inl ⟨-8, by decide, rfl⟩
  split
  · exact Or.inl ⟨-4, by decide, rfl⟩
  rename_i acyclic
  rw [not_or, Bool.not_eq_true] at acyclic
  refine Or.inr ⟨_, rfl, root, acyclic.1, acyclic.2, ?_⟩
  simp only
  split
  · rename_i refused
    exact Or.inl ⟨refused, rfl⟩
  · rename_i accepted
    rw [Bool.not_eq_true] at accepted
    exact Or.inr ⟨accepted, rfl⟩

end MectovOS.Vfs
