/-
This file models `ext4_get_block` of src/sys/ext2.c on the bytes of an inode and
of the node blocks: the walk from the root in the inode down the index nodes to
a leaf, and the records it reads at each node. The walk leaves the depth that
the nodes claim aside once its own count runs out, and reads the last node as a
leaf.
-/

import MectovOS.Lib.ByteMemory

namespace MectovOS.Ext2

open ByteMemory

/-! ### Nodes -/

/-- A block number, or any other 32-bit field. -/
abbrev Word := BitVec 32

/-- The little-endian fields at an offset. -/
def le16 (node : Bytes) (offset : Nat) : Nat :=
  (node offset).toNat + 256 * (node (offset + 1)).toNat

def le32 (node : Bytes) (offset : Nat) : Word := BitVec.ofNat 32 (read32 node offset)

/-- `EXT4_EXT_MAGIC`, `EXT4_EXT_UNWRITTEN` and `EXT4_MAX_DEPTH`. -/
def ext4ExtMagic : Nat := 0xF30A
def ext4ExtUnwritten : Nat := 0x8000
def ext4MaxDepth : Nat := 5

/-- The fields of `ext4_ext_header_t`. -/
def ehMagic (node : Bytes) : Nat := le16 node 0
def ehEntries (node : Bytes) : Nat := le16 node 2
def ehDepth (node : Bytes) : Nat := le16 node 6

/-- `ext4_extent_t`. -/
structure Extent where
  block : Word
  len : Nat
  startHi : Nat
  startLo : Word
  deriving DecidableEq

/-- The extent at an index behind the header. -/
def extentAt (node : Bytes) (index : Nat) : Extent :=
  ⟨le32 node (12 + 12 * index), le16 node (16 + 12 * index), le16 node (18 + 12 * index),
    le32 node (20 + 12 * index)⟩

/-- `ext4_extent_idx_t`. -/
structure ExtentIdx where
  block : Word
  leafLo : Word
  leafHi : Nat
  deriving DecidableEq

/-- The index record at an index behind the header. -/
def extentIdxAt (node : Bytes) (index : Nat) : ExtentIdx :=
  ⟨le32 node (12 + 12 * index), le32 node (16 + 12 * index), le16 node (20 + 12 * index)⟩

/-! ### Records -/

/-- What the scan of a leaf does at an extent: the block it returns, or `none` to go on. -/
def Extent.answer (extent : Extent) (lb : Word) : Option Word :=
  let len := if ext4ExtUnwritten ≤ extent.len then extent.len - ext4ExtUnwritten else extent.len
  if lb < extent.block then none
  else if len = 0 ∨ len ≤ (lb - extent.block).toNat then none
  else if ext4ExtUnwritten ≤ extent.len then some 0
  else
    some ((extent.startLo ||| BitVec.ofNat 32 extent.startHi <<< 16) + (lb - extent.block))

/-- The scan of a leaf from an index on: the records it reads, and the block it returns. -/
def scanLeaf (node : Bytes) (lb : Word) : Nat → Nat → List Nat × Word
  | 0, _ => ([], 0)
  | entries + 1, index =>
    match (extentAt node index).answer lb with
    | some block => ([index], block)
    | none =>
      let later := scanLeaf node lb entries (index + 1)
      (index :: later.1, later.2)

/-- The block of an index record. -/
def ExtentIdx.leaf (record : ExtentIdx) : Word :=
  record.leafLo ||| BitVec.ofNat 32 record.leafHi <<< 16

/-- The scan of an index node: the block of the last record that does not lie behind `lb`. -/
def chosenBlock (node : Bytes) (lb : Word) : Word :=
  (List.range (ehEntries node)).foldl
    (fun chosen index =>
      if (extentIdxAt node index).block ≤ lb then (extentIdxAt node index).leaf else chosen) 0

/-! ### The walk -/

/-- What the walk reads: the size of a block, and the bytes in memory from the start of a block it
loads on, `none` when there is no memory for it. -/
structure Volume where
  blockSize : Nat
  load : Word → Option Bytes

/-- A node that the walk scans: is it the root, its bytes, and is it scanned as a leaf? -/
structure Visit where
  isRoot : Bool
  node : Bytes
  asLeaf : Bool

/-- The records that are read at a node. -/
def Visit.records (visit : Visit) (lb : Word) : List Nat :=
  if visit.asLeaf then (scanLeaf visit.node lb (ehEntries visit.node) 0).1
  else List.range (ehEntries visit.node)

/-- The re-scan of a block as a leaf, when the count of levels has run out. -/
def leafTail (node : Bytes) (lb : Word) : List Visit × Word :=
  if ehMagic node ≠ ext4ExtMagic then ([], 0)
  else ([⟨false, node, true⟩], (scanLeaf node lb (ehEntries node) 0).2)

/-- The loop at a node; the count of levels is `depth + 1` there. -/
def walk (volume : Volume) (lb : Word) : Nat → Bool → Bytes → List Visit × Word
  | depth, isRoot, node =>
    if isRoot = false ∧ ehMagic node ≠ ext4ExtMagic then ([], 0)
    else if ehDepth node = 0 then
      ([⟨isRoot, node, true⟩], (scanLeaf node lb (ehEntries node) 0).2)
    else
      let visit : Visit := ⟨isRoot, node, false⟩
      if chosenBlock node lb = 0 then ([visit], 0)
      else
        match volume.load (chosenBlock node lb) with
        | none => ([visit], 0)
        | some child =>
          let later := match depth with
            | 0 => leafTail child lb
            | depth + 1 => walk volume lb depth false child
          (visit :: later.1, later.2)

/-- `ext4_get_block`, with the nodes it scans; `inode` are the bytes from `i_block` on. -/
def ext4GetBlock (volume : Volume) (inode : Bytes) (lb : Word) : List Visit × Word :=
  if ehMagic inode ≠ ext4ExtMagic then ([], 0)
  else walk volume lb (min (ehDepth inode) ext4MaxDepth - 1) true inode

end MectovOS.Ext2
