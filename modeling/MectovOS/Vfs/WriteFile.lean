/-
This file models the write and the read of a native file in src/sys/vfs.c: the
search for a free span of sectors, the batches in which the data go to the block
device, the node record, the page cache of src/sys/pcache.c, and the aliases that
share the span. The device answers each call; a refused call may have changed
some of its sectors. The sectors that changed are kept in the order of the calls.
-/

import MectovOS.Vfs.Node
import Mathlib

namespace MectovOS.Vfs

/-- `VFS_DATA_START`, `VFS_DISK_SECTORS`, `PCACHE_MAX_FILE` and `BLOCK_BATCH_MAX`. -/
def vfsDataStart : Nat := 2049
def vfsDiskSectors : Nat := 8192
def pcacheMaxFile : Nat := 128 * 1024
def blockBatchMax : Nat := 128

/-! ### Files -/

/-- What the calls read and write of an `fs_node_t`. -/
structure FileRecord where
  inUse : Bool
  type : FsType
  size : Int
  dataSector : Int

/-- The 512 bytes of a sector. -/
abbrev SectorBytes := Nat → UInt8

/-- The node table, the sectors of the disk, and the copy of a file in the page cache. -/
structure FileStore where
  records : Nat → FileRecord
  disk : Nat → SectorBytes
  cache : Nat → Option (List UInt8)

/-- The number of sectors of a file, at least one. -/
def FileRecord.sectors (record : FileRecord) : Int := max 1 ((record.size + 511).tdiv 512)

/-- The number of a sector as the block device gets it. -/
def sectorAt (start : Int) (index : Nat) : Nat := ((start + index) % 2 ^ 32).toNat

/-! ### Free sectors -/

/-- The entry of `sector_map`: metadata, or a sector of a file other than the excluded one. -/
def isTaken (records : Nat → FileRecord) (exclude sector : Nat) : Bool :=
  decide (sector < vfsDataStart) ||
    (List.range maxNodes).any fun node =>
      (records node).inUse && decide ((records node).type = .file) &&
        decide (0 < (records node).dataSector) && decide (node ≠ exclude) &&
        decide ((records node).dataSector ≤ sector) &&
        decide (sector < (records node).dataSector + (records node).sectors)

/-- `vfs_alloc_sectors`. -/
def allocSectors (records : Nat → FileRecord) (needed exclude : Nat) : Option Nat :=
  (List.range' vfsDataStart (vfsDiskSectors + 1 - needed - vfsDataStart)).find? fun start =>
    (List.range needed).all fun index => !isTaken records exclude (start + index)

/-! ### Writing sectors -/

/-- What a write meets: whether there is memory for the batch buffer, which calls are refused, by
their first sector, and what a refused call leaves in its sectors, whether the save of the node
table is refused or left out, what it leaves of the table, and the entries that leave the page
cache. -/
structure WriteAnswers where
  buffered : Bool
  refuses : Nat → Bool
  torn : Nat → Option SectorBytes
  seeding : Bool
  saveRefused : Bool
  saved : Nat → SectorBytes
  uncached : Bool
  evicted : Nat → Bool

/-- `block_batch_limit`. -/
def blockBatchLimit (lba count : Nat) : Nat :=
  max 1 (min (min count blockBatchMax) (blockBatchMax - lba % blockBatchMax))

/-- A sector of the data, with zeros behind their end. -/
def dataSectorBytes (data : List UInt8) (index : Nat) : SectorBytes := fun offset =>
  if offset < 512 then data.getD (512 * index + offset) 0 else 0

/-- The sectors of a batch. -/
def batchSectors (data : List UInt8) (start : Int) (index batch : Nat) :
    List (Nat × SectorBytes) :=
  (List.range batch).map fun offset =>
    (sectorAt start (index + offset), dataSectorBytes data (index + offset))

/-- What a refused call leaves on the disk. -/
def tornSectors (answers : WriteAnswers) (sectors : List (Nat × SectorBytes)) :
    List (Nat × SectorBytes) :=
  sectors.filterMap fun sector => (answers.torn sector.1).map fun bytes => (sector.1, bytes)

/-- The two loops that write the data, in batches or sector by sector: whether all calls are
accepted, and the sectors that change. -/
def writeSectors (answers : WriteAnswers) (data : List UInt8) (start : Int) (secs : Nat) :
    Nat → Nat → Bool × List (Nat × SectorBytes)
  | 0, _ => (true, [])
  | rounds + 1, index =>
    if secs ≤ index then (true, [])
    else
      let batch :=
        if answers.buffered then blockBatchLimit (sectorAt start index) (secs - index) else 1
      let sectors := batchSectors data start index batch
      if answers.refuses (sectorAt start index) then (false, tornSectors answers sectors)
      else
        let rest := writeSectors answers data start secs rounds (index + batch)
        (rest.1, sectors ++ rest.2)

/-- The number of sectors of the data. -/
def sectorCount (data : List UInt8) : Nat := (data.length + 511) / 512

/-- The calls of a write to a span. -/
def writeCalls (answers : WriteAnswers) (data : List UInt8) (start : Int) :
    Bool × List (Nat × SectorBytes) :=
  writeSectors answers data start (sectorCount data) (sectorCount data) 0

/-- The disk after some sectors have changed. -/
def applySectors (disk : Nat → SectorBytes) (sectors : List (Nat × SectorBytes)) :
    Nat → SectorBytes :=
  sectors.foldl (fun disk sector => Function.update disk sector.1 sector.2) disk

/-! ### The write -/

/-- Do the data need another span than the one the file has? -/
def relocates (record : FileRecord) (data : List UInt8) : Bool :=
  decide (record.dataSector = 0) ||
    (decide (0 < record.dataSector) && decide (record.sectors < max 1 (sectorCount data)))

/-- The first sector of the span that the data are written to. -/
def startSector (records : Nat → FileRecord) (node : Nat) (data : List UInt8) : Option Int :=
  if relocates (records node) data then
    (allocSectors records (max 1 (sectorCount data)) node).map fun start => (start : Int)
  else some (records node).dataSector

/-- `pcache_insert`. -/
def pcacheInsert (cache : Nat → Option (List UInt8)) (answers : WriteAnswers) (node : Nat)
    (data : List UInt8) : Nat → Option (List UInt8) := fun other =>
  if other = node then
    if data = [] ∨ pcacheMaxFile < data.length ∨ answers.uncached then none else some data
  else if answers.evicted other then none else cache other

/-- Is the node another name of the file? -/
def isAlias (records : Nat → FileRecord) (node other : Nat) : Bool :=
  decide (other < maxNodes) && decide (other ≠ node) && (records other).inUse &&
    decide ((records other).type = .file) && decide (0 < (records node).dataSector) &&
    decide ((records other).dataSector = (records node).dataSector)

/-- `vfs_sync_aliases`. -/
def syncAliases (store : FileStore) (node : Nat) : FileStore :=
  { store with
    records := fun other =>
      if isAlias store.records node other then
        { store.records other with size := (store.records node).size }
      else store.records other
    cache := fun other =>
      if isAlias store.records node other then none else store.cache other }

/-- The record of a node is changed. -/
def FileStore.setRecord (store : FileStore) (node : Nat) (record : FileRecord) : FileStore :=
  { store with records := Function.update store.records node record }

/-- `vfs_write_file` from the check of the type on, for a native file. -/
def writeFile (store : FileStore) (node : Nat) (data : List UInt8) (answers : WriteAnswers) :
    Int × FileStore :=
  let old := store.records node
  match startSector store.records node data with
  | none => (-3, store)
  | some start =>
    let placed := store.setRecord node { old with dataSector := start }
    let calls := writeCalls answers data start
    let onDisk := { placed with disk := applySectors placed.disk calls.2 }
    if calls.1 = false then (-1, onDisk)
    else
      let sized := onDisk.setRecord node { old with dataSector := start, size := data.length }
      let written := syncAliases
        { sized with cache := pcacheInsert sized.cache answers node data } node
      if answers.seeding = false ∧ ((data.length : Int) ≠ old.size ∨ start ≠ old.dataSector) then
        let kept := { written with disk := fun sector =>
          if sector < vfsDataStart then answers.saved sector else written.disk sector }
        if answers.saveRefused then (-1, kept) else (data.length, kept)
      else (data.length, written)

/-! ### The read -/

/-- `pcache_read` from the start of a file. -/
def pcacheRead (store : FileStore) (node : Nat) : Option (List UInt8) :=
  match store.cache node with
  | none => none
  | some bytes =>
    if 0 < (store.records node).size ∧ (store.records node).size ≤ pcacheMaxFile ∧
        (bytes.length : Int) = (store.records node).size then
      some bytes
    else none

/-- What a read meets: the sectors of the file that the device refuses, and what then stands in
the buffer. -/
structure ReadAnswers where
  refuses : Nat → Bool
  buffer : Nat → UInt8

/-- A byte of a file that is read from the disk. -/
def diskByte (store : FileStore) (sector : Int) (answers : ReadAnswers) (offset : Nat) : UInt8 :=
  if answers.refuses (offset / 512) then answers.buffer offset
  else store.disk (sectorAt sector (offset / 512)) (offset % 512)

/-- `vfs_read_file` on a native file: the bytes it hands out, or its error. What `block_read`
returns is not looked at. -/
def readFile (store : FileStore) (node : Nat) (maxSize : Int) (answers : ReadAnswers) :
    Option (List UInt8) :=
  if maxSize ≤ 0 then none
  else
    let size := min (store.records node).size maxSize
    if size ≤ 0 then some []
    else
      match pcacheRead store node with
      | some bytes => some (bytes.take size.toNat)
      | none =>
        let sector := (store.records node).dataSector
        if sector ≤ 0 ∨ vfsDiskSectors ≤ sector then some []
        else
          let readable := min size ((vfsDiskSectors - sector) * 512)
          some ((List.range readable.toNat).map (diskByte store sector answers))

end MectovOS.Vfs
