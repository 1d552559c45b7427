/-
This file models `vfs_create_node` of src/sys/vfs.c. The type of the new node
follows the directory it is put in, and in a directory of a mounted volume the
entry is first made there: the answer of the volume is an argument.
-/

import MectovOS.Vfs.Node

namespace MectovOS.Vfs

open Function

/-! ### New nodes -/

/-- The permission bits of a new node: directories that root makes are shared. -/
def defaultMode (type : FsType) (uid : Nat) : Nat :=
  if isDirType type then if uid = rootUid then 0x1FF else 0x1ED else 0x1A4

/-- The slot of a new node as it is first filled in; the target of a link and the inode are those
of the node that held the slot before. -/
def newNode (old : FsNode) (uid : Nat) (name : Name) (type : FsType) (parent : Nat) : FsNode :=
  { old with
    name := name
    type := type
    parent := some parent
    size := 0
    dataSector := 0
    inUse := true
    uid := uid
    gid := 0
    mode := defaultMode type uid }

/-- What a volume answers when it is asked to make an entry: the inode or the first cluster, and
the size. -/
abbrev Answer := Option (Nat × Nat)

/-- The node once the volume it lies on has made its entry; `none` when the volume refuses. -/
def settleNode (parentType : FsType) (answer : Answer) (node : FsNode) : Option FsNode :=
  if node.type ≠ .dir ∧ node.type ≠ .file then some node
  else
    match parentType with
    | .ext2Dir => answer.map fun entry =>
      { node with
        type := if node.type = .dir then .ext2Dir else .ext2File
        ext2Inode := entry.1
        size := entry.2 }
    | .fat32Dir => answer.map fun entry =>
      { node with
        type := if node.type = .dir then .fat32Dir else .fat32File
        dataSector := entry.1 }
    | .ramDir => some { node with type := if node.type = .dir then .ramDir else .ramFile }
    | _ => some node

/-- The first free slot. -/
def freeSlot (nodes : Nodes) : Option Nat :=
  (List.range maxNodes).find? fun index => !(nodes index).inUse

/-- `vfs_create_node`: the code of the failure or the new node. A node that its volume refuses
leaves its slot free. -/
def createNode (nodes : Nodes) (answer : Answer) (uid : Nat) (name : Name) (type : FsType)
    (parent : Nat) : Except Int Nat × Nodes :=
  if maxNodes ≤ parent then (.error (-1), nodes)
  else if (nodes parent).inUse = false ∨ isDirType (nodes parent).type = false then
    (.error (-1), nodes)
  else if name = [] then (.error (-1), nodes)
  else if (findInDir nodes name parent).isSome then (.error (-2), nodes)
  else
    match freeSlot nodes with
    | none => (.error (-1), nodes)
    | some index =>
      match copyNodeName name with
      | none => (.error (-1), nodes)
      | some copy =>
        let fresh := newNode (nodes index) uid copy type parent
        match settleNode (nodes parent).type answer fresh with
        | none => (.error (-1), update nodes index { fresh with inUse := false })
        | some settled => (.ok index, update nodes index settled)

/-! ### What a new node changes -/

variable {nodes next : Nodes}

/-- Only a free slot changes, and it stays free. -/
def Idle (nodes next : Nodes) : Prop :=
  ∀ index, next index = nodes index ∨
    ((nodes index).inUse = false ∧ (next index).inUse = false)

/-- A free slot takes a new node of that name below that directory. -/
structure Added (nodes next : Nodes) (index : Nat) (uid : Nat) (name : Name) (parent : Nat) :
    Prop where
  within : index < maxNodes
  free : (nodes index).inUse = false
  directory : parent < maxNodes ∧ (nodes parent).inUse = true ∧
    isDirType (nodes parent).type = true
  named : name ≠ [] ∧ '/' ∉ name ∧ name.length < maxFilename
  alone : findInDir nodes name parent = none
  used : (next index).inUse = true
  name : (next index).name = name
  parent : (next index).parent = some parent
  uid : (next index).uid = uid
  others : ∀ other, other ≠ index → next other = nodes other

theorem settleNode_keeps {parentType : FsType} {answer : Answer} {node settled : FsNode}
    (is : settleNode parentType answer node = some settled) :
    settled.inUse = node.inUse ∧ settled.name = node.name ∧ settled.parent = node.parent ∧
      settled.uid = node.uid := by
  unfold settleNode at is
  split at is
  · obtain rfl := Option.some.inj is
    exact ⟨rfl, rfl, rfl, rfl⟩
  split at is
  · obtain ⟨_, _, rfl⟩ := Option.map_eq_some_iff.mp is
    exact ⟨rfl, rfl, rfl, rfl⟩
  · obtain ⟨_, _, rfl⟩ := Option.map_eq_some_iff.mp is
    exact ⟨rfl, rfl, rfl, rfl⟩
  · obtain rfl := Option.some.inj is
    exact ⟨rfl, rfl, rfl, rfl⟩
  · obtain rfl := Option.some.inj is
    exact ⟨rfl, rfl, rfl, rfl⟩

theorem freeSlot_some {index : Nat} (found : freeSlot nodes = some index) :
    index < maxNodes ∧ (nodes index).inUse = false := by
  unfold freeSlot at found
  have holds := List.find?_some found
  rw [Bool.not_eq_true'] at holds
  exact ⟨List.mem_range.mp (List.mem_of_find?_eq_some found), holds⟩

theorem copyNodeName_some {name copy : Name} (is : copyNodeName name = some copy) :
    copy = name ∧ name ≠ [] ∧ '/' ∉ name ∧ name.length < maxFilename := by
  unfold copyNodeName at is
  split at is
  · exact absurd is (by simp)
  split at is
  · exact absurd is (by simp)
  · rename_i nonempty fine
    rw [not_or] at fine
    exact ⟨(Option.some.inj is).symm, nonempty, fine.1, Nat.lt_of_not_le fine.2⟩

/-- A node is created in a free slot, or no slot in use changes. -/
theorem createNode_cases (nodes : Nodes) (answer : Answer) (uid : Nat) (name : Name)
    (type : FsType) (parent : Nat) :
    (∃ index settled, createNode nodes answer uid name type parent =
        (.ok index, update nodes index settled) ∧
      settleNode (nodes parent).type answer (newNode (nodes index) uid name type parent) =
        some settled ∧
      Added nodes (update nodes index settled) index uid name parent) ∨
    (∃ code next, createNode nodes answer uid name type parent = (.error code, next) ∧
      code < 0 ∧ Idle nodes next) := by
  have still : Idle nodes nodes := fun _ => Or.inl rfl
  unfold createNode
  split
  · exact Or.inr ⟨-1, nodes, rfl, by decide, still⟩
  rename_i inside
  split
  · exact Or.inr ⟨-1, nodes, rfl, by decide, still⟩
  rename_i directory
  rw [not_or, Bool.not_eq_false, Bool.not_eq_false] at directory
  split
  · exact Or.inr ⟨-1, nodes, rfl, by decide, still⟩
  split
  · exact Or.inr ⟨-2, nodes, rfl, by decide, still⟩
  rename_i alone
  rw [Bool.not_eq_true, Option.isSome_eq_false_iff, Option.isNone_iff_eq_none] at alone
  split
  · exact Or.inr ⟨-1, nodes, rfl, by decide, still⟩
  rename_i index found
  obtain ⟨within, free⟩ := freeSlot_some found
  split
  · exact Or.inr ⟨-1, nodes, rfl, by decide, still⟩
  rename_i copy copied
  obtain ⟨rfl, named⟩ := copyNodeName_some copied
  simp only
  split
  · refine Or.inr ⟨-1, _, rfl, by decide, fun other => ?_⟩
    rcases eq_or_ne other index with rfl | different
    · exact Or.inr ⟨free, by rw [update_self]⟩
    · exact Or.inl (update_of_ne different _ _)
  · rename_i settled is
    obtain ⟨used, called, above, owner⟩ := settleNode_keeps is
    refine Or.inl ⟨index, settled, rfl, is, within, free, ⟨Nat.lt_of_not_le inside, directory⟩,
      named, alone, ?_, ?_, ?_, ?_, fun other different => update_of_ne different _ _⟩
    · rw [update_self, used]
      rfl
    · rw [update_self, called]
      rfl
    · rw [update_self, above]
      rfl
    · rw [update_self, owner]
      rfl

/-- Nodes in use stay as they are; others may come. -/
def Extends (nodes next : Nodes) : Prop :=
  ∀ index, (nodes index).inUse = true → next index = nodes index

theorem Extends.trans {middle : Nodes} (first : Extends nodes middle)
    (second : Extends middle next) : Extends nodes next := fun index used =>
  (second index ((congrArg FsNode.inUse (first index used)).trans used)).trans (first index used)

theorem createNode_extends (nodes : Nodes) (answer : Answer) (uid : Nat) (name : Name)
    (type : FsType) (parent : Nat) :
    Extends nodes (createNode nodes answer uid name type parent).2 := by
  intro other used
  rcases createNode_cases nodes answer uid name type parent with
    ⟨index, settled, done, _, added⟩ | ⟨code, next, done, _, idle⟩
  · rw [done]
    refine added.others other fun same => ?_
    rw [same, added.free] at used
    exact absurd used (by simp)
  · rw [done]
    rcases idle other with same | free
    · exact same
    · rw [free.1] at used
      exact absurd used (by simp)

end MectovOS.Vfs
