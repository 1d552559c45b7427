/-
This file models the sector cache of src/sys/blkcache.c and the reads and writes of
src/drivers/ata.c around it, on several cores: a lookup, a transfer of one sector, a
commit and an invalidation are steps of their own, and what the drive refuses is an
input. The content of a sector is a parameter.
-/

import MectovOS.Lib.Transition

namespace MectovOS.Ata

open Transition Function

variable {Data : Type}

/-! ### The cache -/

/-- `BLKCACHE_ENTRIES`, `BLOCK_BATCH_MAX`, `RA_SECTORS`, `RA_SMALL_MAX`, `RA_MAX_STREAMS` and
`ATA_DRIVE_COUNT`. -/
def blkcacheEntries : Nat := 512
def blockBatchMax : Nat := 128
def raSectors : Nat := 64
def raSmallMax : Nat := 16
def raMaxStreams : Nat := 16
def ataDriveCount : Nat := 4

/-- An entry that is valid. -/
structure Slot (Data : Type) where
  drive : Nat
  lba : Nat
  stamp : Nat
  data : Data

/-- The entries, `blkcache_stamp` and `blkcache_gen`. -/
structure SectorCache (Data : Type) where
  slots : List (Option (Slot Data))
  stamp : Nat
  gen : Nat

/-- Is an entry that of a sector? -/
def isSlotOf (drive lba : Nat) (slot : Option (Slot Data)) : Bool :=
  slot.any fun slot => slot.drive == drive && slot.lba == lba

/-- What `blkcache_find_slot` finds. -/
def SectorCache.lookup (cache : SectorCache Data) (drive lba : Nat) : Option Data :=
  (cache.slots.find? (isSlotOf drive lba)).join.map Slot.data

/-- The sectors of a request. -/
def sectorsFrom (lba count : Nat) : List Nat :=
  (List.range count).map fun sector => (lba + sector) % 2 ^ 32

/-- A hit makes the entry the newest one. -/
def SectorCache.touch (drive : Nat) (cache : SectorCache Data) (lba : Nat) : SectorCache Data :=
  let stamp := (cache.stamp + 1) % 2 ^ 32
  { cache with
    slots := match cache.slots.findIdx? (isSlotOf drive lba) with
      | none => cache.slots
      | some index => cache.slots.modify index
          (Option.map fun (slot : Slot Data) => { slot with stamp := stamp })
    stamp := stamp }

/-- `blkcache_read`: the sectors, when all of them are there. -/
def SectorCache.blkcacheRead (cache : SectorCache Data) (drive lba count : Nat) :
    Option (List Data × SectorCache Data) :=
  ((sectorsFrom lba count).mapM (cache.lookup drive)).map fun sectors =>
    (sectors, (sectorsFrom lba count).foldl (SectorCache.touch drive) cache)

/-- The first entry with the oldest stamp. -/
def oldestSlot (slots : List (Option (Slot Data))) : Nat :=
  let stamp (index : Nat) := ((slots[index]?).join.map Slot.stamp).getD 0
  (List.range slots.length).foldl
    (fun oldest index => if stamp index < stamp oldest then index else oldest) 0

/-- The entry that takes a sector: its own, a free one, or the oldest. -/
def SectorCache.slotFor (cache : SectorCache Data) (drive lba : Nat) : Nat :=
  match cache.slots.findIdx? (isSlotOf drive lba) with
  | some index => index
  | none =>
    match cache.slots.findIdx? Option.isNone with
    | some index => index
    | none => oldestSlot cache.slots

/-- One sector of `blkcache_commit`. -/
def SectorCache.insert (drive : Nat) (cache : SectorCache Data) (sector : Nat × Data) :
    SectorCache Data :=
  let stamp := (cache.stamp + 1) % 2 ^ 32
  { cache with
    slots := cache.slots.set (cache.slotFor drive sector.1)
      (some ⟨drive, sector.1, stamp, sector.2⟩)
    stamp := stamp }

/-- `blkcache_commit`. -/
def SectorCache.blkcacheCommit (cache : SectorCache Data) (drive lba : Nat) (sectors : List Data)
    (gen : Nat) : SectorCache Data :=
  if gen ≠ cache.gen then cache
  else ((sectorsFrom lba sectors.length).zip sectors).foldl (SectorCache.insert drive) cache

/-- `blkcache_invalidate`. -/
def SectorCache.blkcacheInvalidate (cache : SectorCache Data) (drive lba count : Nat) :
    SectorCache Data :=
  { cache with
    gen := (cache.gen + 1) % 2 ^ 32
    slots := cache.slots.map fun slot =>
      if slot.any fun slot => slot.drive == drive && decide (lba ≤ slot.lba) &&
        decide (slot.lba < (lba + count) % 2 ^ 32) then none
      else slot }

/-! ### Reads and writes under way -/

/-- `block_batch_limit`. -/
def ataBatchLimit (lba count : Nat) : Nat :=
  max 1 (min (min count blockBatchMax) (blockBatchMax - lba % blockBatchMax))

/-- Where a read is: in front of `ata_ra_note`, of `blkcache_read`, among its transfers, in front of
the look at its stream, among the transfers of the readahead, or done. -/
inductive ReadStage where
  | note
  | look
  | transfer
  | check
  | ahead
  | returned
  deriving DecidableEq

/-- `ata_read_sector_drive` or `ata_read_sectors_drive`: its clamped range, the snapshot of the
generation and of the count of writes, the sectors that it has got and those of the readahead, and
the sectors to which there was a write since the read began. -/
structure Reader (Data : Type) where
  single : Bool
  drive : Nat
  lba : Nat
  count : Nat
  stage : ReadStage
  gen : Nat
  seen : Nat
  buf : Nat → Option Data
  raBuf : Nat → Option Data
  disturbed : Nat → Bool

/-- `ata_write_sector_drive` or `ata_write_sectors_drive`: its range as asked, the part of it that
the command takes, the sectors to write, and those that the drive has taken. -/
structure Writer (Data : Type) where
  drive : Nat
  lba : Nat
  asked : Nat
  count : Nat
  data : Nat → Data
  put : Nat → Bool
  returned : Bool

/-- Is a write to a sector under way? -/
def Writer.covers (writer : Writer Data) (drive lba : Nat) : Bool :=
  !writer.returned && writer.drive == drive && decide (writer.lba ≤ lba) &&
    decide (lba < writer.lba + writer.count)

/-- A stream of `ra_stream`. -/
structure Stream where
  prevEnd : Nat
  streak : Nat

/-- A sector that a read has returned, what the medium held then, and whether there was a write to
it since the read began. -/
structure Answer (Data : Type) where
  data : Option Data
  medium : Data
  disturbed : Bool

/-- The medium, the cache, the streams with the reader that holds `ra_lock`, the calls, and the
number of writes that have invalidated. -/
structure Disk (Data : Type) where
  medium : Nat → Nat → Data
  cache : SectorCache Data
  streams : Nat → Stream
  raHolder : Option Nat
  readers : List (Reader Data)
  writers : List (Writer Data)
  writes : Nat
  answers : List (Answer Data)

def Disk.writing (disk : Disk Data) (drive lba : Nat) : Bool :=
  disk.writers.any fun writer => writer.covers drive lba

/-- The sector that a command with a start of 28 bits addresses. -/
def sectorAt (lba index : Nat) : Nat := lba % 2 ^ 28 + index

def Disk.setReader (disk : Disk Data) (index : Nat) (reader : Reader Data) : Disk Data :=
  { disk with readers := disk.readers.set index reader }

def Disk.setWriter (disk : Disk Data) (index : Nat) (writer : Writer Data) : Disk Data :=
  { disk with writers := disk.writers.set index writer }

/-- A read returns its sectors. -/
def Disk.answer (disk : Disk Data) (index : Nat) (reader : Reader Data) : Disk Data :=
  { disk.setReader index { reader with stage := .returned } with
    answers := disk.answers ++ (List.range reader.count).map fun sector =>
      ⟨reader.buf sector, disk.medium reader.drive (reader.lba + sector),
        reader.disturbed sector⟩ }

/-! ### Steps -/

/-- A call begins; a read goes past `ata_ra_note`, past its lookup, past a transfer, past the commit
of its sectors, past the look at its stream, past a transfer and the commit of the readahead; a
write goes past a transfer and returns. A transfer that the drive refuses is a failure. -/
inductive DiskEvent (Data : Type) where
  | startRead (single : Bool) (drive lba count : Nat)
  | note (reader : Nat)
  | look (reader : Nat)
  | transfer (reader index : Nat)
  | readFails (reader : Nat)
  | commit (reader : Nat)
  | check (reader : Nat)
  | ahead (reader index : Nat)
  | aheadFails (reader : Nat)
  | aheadCommit (reader : Nat)
  | startWrite (single : Bool) (drive lba count : Nat) (data : Nat → Data)
  | put (writer index : Nat)
  | writeDone (writer : Nat)
  | writeFails (writer : Nat)

/-- A read that has just been called. -/
def newReader (writing : Nat → Nat → Bool) (single : Bool) (drive lba count : Nat) : Reader Data where
  single := single
  drive := drive
  lba := lba
  count := if single then 1 else ataBatchLimit lba count
  stage := if single then .look else .note
  gen := 0
  seen := 0
  buf _ := none
  raBuf _ := none
  disturbed sector := writing drive (lba + sector)

/-- `ata_ra_note`. -/
def Stream.raNote (stream : Stream) (lba count : Nat) : Stream :=
  ⟨(lba + count) % 2 ^ 32, if lba = stream.prevEnd then stream.streak + 1 else 1⟩

/-- The range of the readahead behind a read. -/
def Reader.raStart (reader : Reader Data) : Nat := reader.lba + reader.count
def Reader.raCount (reader : Reader Data) : Nat := ataBatchLimit reader.raStart raSectors

/-- The sectors of a buffer, when all of them are there. -/
def filled (buf : Nat → Option Data) (count : Nat) : Option (List Data) :=
  (List.range count).mapM buf

/-- What a read does next, for those of its steps that involve nobody else. -/
def Disk.onReader (disk : Disk Data) (index : Nat) (reader : Reader Data) :
    DiskEvent Data → Option (Disk Data)
  | .note _ =>
    if reader.stage = .note ∧ disk.raHolder = none then
      some { disk.setReader index { reader with stage := .look } with
        streams := if reader.drive < raMaxStreams then
            update disk.streams reader.drive
              ((disk.streams reader.drive).raNote reader.lba reader.count)
          else disk.streams }
    else none
  | .look _ =>
    if reader.stage = .look then
      match disk.cache.blkcacheRead reader.drive reader.lba reader.count with
      | some (sectors, cache) =>
        some ({ disk with cache := cache }.answer index
          { reader with buf := fun sector => sectors[sector]? })
      | none =>
        some (disk.setReader index
          { reader with stage := .transfer, gen := disk.cache.gen, seen := disk.writes })
    else none
  | .transfer _ sector =>
    if reader.stage = .transfer ∧ sector < reader.count then
      some (disk.setReader index { reader with
        buf := update reader.buf sector
          (some (disk.medium reader.drive (sectorAt reader.lba sector))) })
    else none
  | .readFails _ =>
    if reader.stage = .transfer then
      some (disk.setReader index { reader with stage := .returned })
    else none
  | .commit _ =>
    if reader.stage = .transfer then
      (filled reader.buf reader.count).map fun sectors =>
        let committed : Disk Data := { disk with
          cache := disk.cache.blkcacheCommit reader.drive reader.lba sectors reader.gen }
        if reader.single then committed.answer index reader
        else committed.setReader index { reader with stage := .check }
    else none
  | .check _ =>
    if reader.stage = .check ∧ disk.raHolder = none then
      if reader.drive < raMaxStreams ∧ reader.count ≤ raSmallMax ∧
          2 ≤ (disk.streams reader.drive).streak then
        some { disk.setReader index { reader with stage := .ahead } with raHolder := some index }
      else some (disk.answer index reader)
    else none
  | .ahead _ sector =>
    if reader.stage = .ahead ∧ sector < reader.raCount then
      some (disk.setReader index { reader with
        raBuf := update reader.raBuf sector
          (some (disk.medium reader.drive (sectorAt reader.raStart sector))) })
    else none
  | .aheadFails _ =>
    if reader.stage = .ahead then some { disk.answer index reader with raHolder := none } else none
  | .aheadCommit _ =>
    if reader.stage = .ahead then
      (filled reader.raBuf reader.raCount).map fun sectors =>
        let committed : Disk Data := { disk with
          cache := disk.cache.blkcacheCommit reader.drive reader.raStart sectors reader.gen
          raHolder := none }
        committed.answer index reader
    else none
  | _ => none

/-- What a write does next. -/
def Disk.onWriter (disk : Disk Data) (index : Nat) (writer : Writer Data) :
    DiskEvent Data → Option (Disk Data)
  | .put _ sector =>
    if writer.returned = false ∧ sector < writer.count then
      some { disk.setWriter index
          { writer with put := update writer.put sector true } with
        medium := update disk.medium writer.drive
          (update (disk.medium writer.drive) (sectorAt writer.lba sector)
            (writer.data sector)) }
    else none
  | .writeDone _ =>
    if writer.returned = false ∧ (List.range writer.count).all writer.put = true then
      some { disk.setWriter index { writer with returned := true } with
        cache := disk.cache.blkcacheInvalidate writer.drive writer.lba writer.asked
        writes := disk.writes + 1 }
    else none
  | .writeFails _ =>
    if writer.returned = false then
      some (disk.setWriter index { writer with returned := true })
    else none
  | _ => none

/-- A write that has just been called. -/
def newWriter (single : Bool) (drive lba count : Nat) (data : Nat → Data) : Writer Data where
  drive := drive
  lba := lba
  asked := if single then 1 else count
  count := if single then 1 else ataBatchLimit lba count
  data := data
  put _ := false
  returned := false

/-- A read takes note of a write that begins. -/
def Reader.disturb (writer : Writer Data) (reader : Reader Data) : Reader Data :=
  { reader with
    disturbed := fun sector =>
      reader.disturbed sector || writer.covers reader.drive (reader.lba + sector) }

/-- The call that goes on in an event. -/
def DiskEvent.reader : DiskEvent Data → Option Nat
  | .note index | .look index | .transfer index _ | .readFails index | .commit index
  | .check index | .ahead index _ | .aheadFails index | .aheadCommit index => some index
  | _ => none

def DiskEvent.writer : DiskEvent Data → Option Nat
  | .put index _ | .writeDone index | .writeFails index => some index
  | _ => none

/-- The step of an event. -/
def Disk.on (disk : Disk Data) (event : DiskEvent Data) : Option (Disk Data) :=
  match event with
  | .startRead single drive lba count =>
    if drive < ataDriveCount ∧ 1 ≤ count then
      some { disk with
        readers := disk.readers ++ [newReader disk.writing single drive lba count] }
    else none
  | .startWrite single drive lba count data =>
    if drive < ataDriveCount ∧ 1 ≤ count then
      let writer := newWriter single drive lba count data
      some { disk with
        readers := disk.readers.map (Reader.disturb writer)
        writers := disk.writers ++ [writer] }
    else none
  | event =>
    match event.reader, event.writer with
    | some index, _ => (disk.readers[index]?).bind fun reader => disk.onReader index reader event
    | none, some index =>
      (disk.writers[index]?).bind fun writer => disk.onWriter index writer event
    | none, none => none

/-- An empty cache in front of any medium. -/
def Disk.Initial (disk : Disk Data) : Prop :=
  (∀ slot ∈ disk.cache.slots, slot.isNone = true) ∧ disk.cache.slots.length = blkcacheEntries ∧
    disk.cache.gen = 0 ∧ disk.raHolder = none ∧ disk.readers = [] ∧ disk.writers = [] ∧
    disk.writes = 0 ∧ disk.answers = []

def diskSystem (Data : Type) : System (Disk Data) (DiskEvent Data) := .ofStep Disk.Initial Disk.on

/-! ### The law -/

/-- The cache holds what the medium holds, except where a write is under way; and a read returns
what the medium holds, except where there was a write since it began. -/
structure CoherentCache (disk : Disk Data) : Prop where
  slots : ∀ slot, some slot ∈ disk.cache.slots → disk.writing slot.drive slot.lba = false →
    slot.data = disk.medium slot.drive slot.lba
  answers : ∀ answer ∈ disk.answers, answer.disturbed = false → answer.data = some answer.medium

/-- The sectors of a request, and those of a readahead behind it, have addresses of 28 bits; a write
that fails has put no sector on the medium; and a read is not overtaken by 2^32 writes. -/
def sound (disk : Disk Data) : DiskEvent Data → Bool
  | .startRead _ _ lba count => decide (lba + count + raSectors ≤ 2 ^ 28)
  | .startWrite _ _ lba count _ => decide (lba + count ≤ 2 ^ 28)
  | .writeFails index =>
    (disk.writers[index]?).all fun writer => (List.range writer.count).all fun sector =>
      !writer.put sector
  | .commit index | .aheadCommit index =>
    (disk.readers[index]?).all fun reader => decide (disk.writes < reader.seen + 2 ^ 32)
  | _ => true

end MectovOS.Ata
