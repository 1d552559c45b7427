/-
This file models `vfs_load` of src/sys/vfs.c: the magic sector is checked, the
node table is read sector by sector over the table in memory, and its names and
parent links, which the image chooses, are repaired. A sector that the device
refuses is `none`, and a node is the 512 bytes of its sector. Behind it stand
the four loops that walk along the parent links, each by one of its rounds.
-/

import MectovOS.Lib.ByteMemory
import MectovOS.Lib.Forest
import MectovOS.Vfs.Node

namespace MectovOS.Vfs

open ByteMemory Function

/-- `VFS_MAGIC_SECTOR`, `VFS_NODE_START`, `VFS_NODE_SECTORS` and `VFS_LAYOUT_VERSION`. -/
def vfsMagicSector : Nat := 0
def vfsNodeStart : Nat := 1
def vfsNodeSectors : Nat := 2048
def vfsLayoutVersion : Nat := 5

/-- What the device gives for each sector. -/
abbrev DiskImage := Nat → Option Bytes

/-- `fs_nodes` as it lies in memory, node by node. -/
abbrev NodeTable := Nat → Bytes

/-! ### The fields of a node -/

/-- The offsets of `parent` and `in_use` in the packed `fs_node_t`. -/
def parentOffset : Nat := 36
def inUseOffset : Nat := 48

def nodeParent (node : Bytes) : Int := (BitVec.ofNat 32 (read32 node parentOffset)).toInt

def nodeInUse (node : Bytes) : Bool := decide (read32 node inUseOffset ≠ 0)

/-- A node whose parent link is set to the root. -/
def underRoot (node : Bytes) : Bytes := write32 node parentOffset 0

/-! ### Reading the table -/

/-- `MECTOVFS`. -/
def magicBytes : List UInt8 := [77, 69, 67, 84, 79, 86, 70, 83]

/-- The loop that reads the sectors of the node table; the first one that is refused ends it. -/
def readNodes (image : DiskImage) (table : NodeTable) : List Nat → Bool × NodeTable
  | [] => (true, table)
  | sector :: rest =>
    match image (vfsNodeStart + sector) with
    | none => (false, table)
    | some bytes => readNodes image (update table sector bytes) rest

/-! ### Repairing the table -/

/-- The first repair of a node: its name ends, and a link out of the table leads to the root. -/
def sanitizeNode (node : Bytes) : Bytes :=
  let named := update node (maxFilename - 1) 0
  if nodeInUse named = true ∧ (nodeParent named < -1 ∨ maxNodes ≤ nodeParent named) then
    underRoot named
  else named

def sanitize (table : NodeTable) : NodeTable := fun index =>
  if index < maxNodes then sanitizeNode (table index) else table index

/-- The walk up from a node with so many rounds left. Does it come back to the node, or is it
too long? -/
def spins (table : NodeTable) (node : Nat) : Nat → Int → Bool
  | 0, _ => true
  | left + 1, above =>
    if above < 0 ∨ maxNodes ≤ above then false
    else if above = node then true
    -- the round before the last one is the longest walk that `steps > MAX_NODES` lets pass
    else if nodeInUse (table above.toNat) = false then decide (left = 0)
    else spins table node left (nodeParent (table above.toNat))

/-- The second repair of a node: a walk that spins makes it a child of the root. -/
def breakCycle (table : NodeTable) (node : Nat) : NodeTable :=
  if nodeInUse (table node) = false then table
  else if spins table node (maxNodes + 1) (nodeParent (table node)) then
    update table node (underRoot (table node))
  else table

def breakCycles (table : NodeTable) : NodeTable := (List.range maxNodes).foldl breakCycle table

/-! ### Loading -/

/-- What `vfs_load` returns and leaves behind. -/
structure Loaded where
  result : Bool
  table : NodeTable
  currentDir : Nat

/-- The current directory of the image, if it is a node in use. -/
def loadedDir (table : NodeTable) (magic : Bytes) : Nat :=
  let dir := (magic 16).toNat + 256 * (magic 17).toNat
  if maxNodes ≤ dir ∨ nodeInUse (table dir) = false then 0 else dir

/-- `vfs_load`. -/
def vfsLoad (image : DiskImage) (table : NodeTable) (currentDir : Nat) : Loaded :=
  match image vfsMagicSector with
  | none => ⟨false, table, currentDir⟩
  | some magic =>
    if (List.range 8).map magic ≠ magicBytes then ⟨false, table, currentDir⟩
    else if (magic 8).toNat ≠ vfsLayoutVersion then ⟨false, table, currentDir⟩
    else
      match readNodes image table (List.range vfsNodeSectors) with
      | (false, partly) => ⟨false, partly, currentDir⟩
      | (true, read) =>
        let repaired := breakCycles (sanitize read)
        ⟨nodeInUse (repaired 0), repaired, loadedDir repaired magic⟩

/-! ### The walks along the parent links -/

/-- One round of the loop of `vfs_get_abs_path`, with the number of names that are stacked. -/
def absPathRound (table : NodeTable) (walk : Int × Nat) : Option (Int × Nat) :=
  if walk.1 < 0 ∨ nodeInUse (table walk.1.toNat) = false ∨ 16 ≤ walk.2 then none
  else
    let named := decide (walk.1 ≠ 0) && decide (table walk.1.toNat 0 ≠ 0)
    some (nodeParent (table walk.1.toNat), if named then walk.2 + 1 else walk.2)

/-- One round of the walk of a delete from a node up to the one that is deleted. -/
def deleteRound (table : NodeTable) (node : Nat) (walk : Int × Nat) : Option (Int × Nat) :=
  if walk.1 < 0 ∨ maxNodes ≤ walk.2 ∨ walk.1 = node ∨ nodeInUse (table walk.1.toNat) = false then
    none
  else some (nodeParent (table walk.1.toNat), walk.2 + 1)

/-- One round of the walk of a rename from the new parent up to the node that is renamed. -/
def renameRound (table : NodeTable) (node : Nat) (walk : Int × Nat) : Option (Int × Nat) :=
  if walk.1 ≤ 0 ∨ maxNodes < walk.2 ∨ walk.1 = node then none
  else some (nodeParent (table walk.1.toNat), walk.2 + 1)

/-- One round of the walk of `mount_select_for_node` up to a mount point. -/
def mountRound (table : NodeTable) (mounted : Int → Bool) (walk : Int × Nat) :
    Option (Int × Nat) :=
  let parent := nodeParent (table walk.1.toNat)
  if maxNodes + 1 ≤ walk.2 ∨ walk.1 < 0 ∨ maxNodes ≤ walk.1 ∨ mounted walk.1 = true then none
  else if parent < 0 ∨ maxNodes ≤ parent ∨ parent = walk.1 then none
  else some (parent, walk.2 + 1)

end MectovOS.Vfs
