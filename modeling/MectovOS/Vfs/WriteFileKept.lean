/-
This file proves when a write to a native file that fails spares the file. The
node is given its new span before the first sector is written, so a refused call
is harmless only if the span is the one the file has; the failure of the save
comes when the record is changed already. Where the record stays, a later read
differs from an earlier one only in sectors that were written over, and in those
that the device refuses to it, which it takes for read.
-/

import MectovOS.Vfs.WriteFile

namespace MectovOS.Vfs

open Function

/-! ### What a write that failed must leave -/

/-- A later read: whether the entry of the file has left the page cache by then, how much is
asked for, and the sectors of the file that the device refuses. -/
structure LaterRead where
  evicted : Bool
  maxSize : Int
  refuses : Nat → Bool

/-- The store when the later read begins. -/
def FileStore.aged (store : FileStore) (node : Nat) (later : LaterRead) : FileStore :=
  if later.evicted then { store with cache := update store.cache node none } else store

/-- The sectors that a write changes. -/
def changedSectors (store : FileStore) (node : Nat) (data : List UInt8)
    (answers : WriteAnswers) : List Nat :=
  match startSector store.records node data with
  | none => []
  | some start => (writeCalls answers data start).2.map Prod.fst

/-- A later read gives the bytes of an earlier one, outside the changed sectors. -/
def SameContents (store after : FileStore) (node : Nat) (changed : List Nat)
    (later : LaterRead) : Prop :=
  ∀ (buffer : Nat → UInt8) (bytes old : List UInt8),
    readFile (after.aged node later) node later.maxSize ⟨later.refuses, buffer⟩ = some bytes →
    readFile (store.aged node later) node later.maxSize ⟨fun _ => false, buffer⟩ = some old →
    ∀ offset < bytes.length,
      sectorAt (store.records node).dataSector (offset / 512) ∉ changed →
      bytes[offset]? = old[offset]?

/-- No sector of the file is changed. -/
def Whole (record : FileRecord) (changed : List Nat) : Prop :=
  ∀ index : Nat, (index : Int) < record.sectors → sectorAt record.dataSector index ∉ changed

/-- The file is spared: its record is as before, a later read gives an error or the old bytes of
every sector that is not written over, and a file that had to move is whole. -/
structure Spared (store after : FileStore) (node : Nat) (data : List UInt8)
    (changed : List Nat) (later : LaterRead) : Prop where
  size : (after.records node).size = (store.records node).size
  dataSector : (after.records node).dataSector = (store.records node).dataSector
  contents : SameContents store after node changed later
  whole : 0 < (store.records node).dataSector → relocates (store.records node) data = true →
    Whole (store.records node) changed

/-! ### When it does -/

/-- The number of bytes that a read takes from the disk. -/
def readLength (record : FileRecord) (maxSize : Int) : Nat :=
  if record.dataSector ≤ 0 ∨ vfsDiskSectors ≤ record.dataSector then 0
  else (min (min record.size maxSize) ((vfsDiskSectors - record.dataSector) * 512)).toNat

/-- The later read finds the file in the cache, or the device serves every sector that it takes
from the disk and that is not written over. -/
def Served (store : FileStore) (node : Nat) (changed : List Nat) (later : LaterRead) : Prop :=
  pcacheRead (store.aged node later) node = none →
    ∀ offset < readLength (store.records node) later.maxSize,
      sectorAt (store.records node).dataSector (offset / 512) ∉ changed →
      later.refuses (offset / 512) = false

/-- The node table must be saved after the write, and the device refuses that. -/
def SaveFails (record : FileRecord) (data : List UInt8) (answers : WriteAnswers) (start : Int) :
    Prop :=
  answers.seeding = false ∧ ((data.length : Int) ≠ record.size ∨ start ≠ record.dataSector) ∧
    answers.saveRefused = true

/-- The write has no span to go to, or all of it goes through, or a call is refused while the
span starts where the file does, and if the file had to move none of it is written over. -/
def Harmless (store : FileStore) (node : Nat) (data : List UInt8) (answers : WriteAnswers)
    (later : LaterRead) : Prop :=
  match startSector store.records node data with
  | none => Served store node [] later
  | some start =>
    if (writeCalls answers data start).1 then ¬ SaveFails (store.records node) data answers start
    else
      start = (store.records node).dataSector ∧
        (0 < (store.records node).dataSector → relocates (store.records node) data = true →
          Whole (store.records node) ((writeCalls answers data start).2.map Prod.fst)) ∧
        Served store node ((writeCalls answers data start).2.map Prod.fst) later

/-! ### The disk after a write -/

/-- A sector that is not among the changed ones is as before. -/
theorem applySectors_other {disk : Nat → SectorBytes} {sectors : List (Nat × SectorBytes)}
    {sector : Nat} (apart : sector ∉ sectors.map Prod.fst) :
    applySectors disk sectors sector = disk sector := by
  unfold applySectors
  induction sectors generalizing disk with
  | nil => rfl
  | cons head rest inductionHypothesis =>
    rw [List.map_cons, List.mem_cons, not_or] at apart
    rw [List.foldl_cons, inductionHypothesis apart.2, update_of_ne apart.1]

/-! ### Reads -/

section

variable {store after : FileStore} {node : Nat} {later : LaterRead}

theorem aged_records (store : FileStore) (node : Nat) (later : LaterRead) :
    (store.aged node later).records = store.records := by
  unfold FileStore.aged
  split <;> rfl

theorem aged_disk (store : FileStore) (node : Nat) (later : LaterRead) :
    (store.aged node later).disk = store.disk := by
  unfold FileStore.aged
  split <;> rfl

theorem aged_cache (same : after.cache node = store.cache node) (later : LaterRead) :
    (after.aged node later).cache node = (store.aged node later).cache node := by
  unfold FileStore.aged
  split
  · dsimp only
    rw [update_self, update_self]
  · exact same

/-- A lookup in the cache depends on the entry and the record of the file. -/
theorem pcacheRead_congr (record : after.records node = store.records node)
    (cache : after.cache node = store.cache node) : pcacheRead after node = pcacheRead store node := by
  unfold pcacheRead
  rw [record, cache]

theorem readFile_hit {maxSize : Int} {answers : ReadAnswers} {bytes : List UInt8}
    (hit : pcacheRead store node = some bytes) (asked : 0 < maxSize) :
    readFile store node maxSize answers =
      some (bytes.take (min (store.records node).size maxSize).toNat) := by
  have filled : 0 < (store.records node).size := by
    unfold pcacheRead at hit
    split at hit
    · exact absurd hit (by simp)
    split at hit
    · rename_i fits
      exact fits.1
    · exact absurd hit (by simp)
  unfold readFile
  rw [if_neg (by omega)]
  dsimp only
  rw [if_neg (by omega), hit]

theorem readFile_miss {maxSize : Int} {answers : ReadAnswers}
    (miss : pcacheRead store node = none) (asked : 0 < maxSize) :
    readFile store node maxSize answers =
      some ((List.range (readLength (store.records node) maxSize)).map
        (diskByte store (store.records node).dataSector answers)) := by
  unfold readFile readLength
  rw [if_neg (by omega)]
  dsimp only
  split
  · rename_i empty
    split
    · rfl
    · rw [Int.toNat_of_nonpos (by omega)]
      rfl
  · rw [miss]
    dsimp only
    split
    · rfl
    · rfl

theorem readFile_refused {maxSize : Int} {answers : ReadAnswers} (none : maxSize ≤ 0) :
    readFile store node maxSize answers = .none := by
  unfold readFile
  rw [if_pos none]

/-- The byte that a read which is not refused takes from an unchanged sector. -/
theorem diskByte_same {changed : List Nat} {sector : Int} {first second : ReadAnswers}
    {offset : Nat} (disk : ∀ number ∉ changed, after.disk number = store.disk number)
    (apart : sectorAt sector (offset / 512) ∉ changed)
    (served : first.refuses (offset / 512) = false)
    (served' : second.refuses (offset / 512) = false) :
    diskByte after sector first offset = diskByte store sector second offset := by
  unfold diskByte
  rw [served, served', if_neg (by simp), if_neg (by simp), disk _ apart]

theorem succ_ne (byte : UInt8) : byte + 1 ≠ byte := by
  intro same
  have values := congrArg UInt8.toNat same
  have small := byte.toNat_lt
  rw [UInt8.toNat_add] at values
  have one : (1 : UInt8).toNat = 1 := rfl
  omega

/-- Where the record, the cache entry and all but the changed sectors are as before, a later read
gives the old bytes exactly if it is served. -/
theorem sameContents_iff {changed : List Nat} (record : after.records node = store.records node)
    (cache : after.cache node = store.cache node)
    (disk : ∀ number ∉ changed, after.disk number = store.disk number) :
    SameContents store after node changed later ↔ Served store node changed later := by
  have recordAged : (after.aged node later).records node = (store.aged node later).records node := by
    rw [aged_records, aged_records, record]
  have lookup := pcacheRead_congr recordAged (aged_cache cache later)
  have diskAged : ∀ number ∉ changed,
      (after.aged node later).disk number = (store.aged node later).disk number := by
    intro number apart
    rw [aged_disk, aged_disk, disk number apart]
  refine ⟨fun same miss offset inside apart => ?_, fun served buffer bytes old now before => ?_⟩
  · have asked : 0 < later.maxSize := by
      unfold readLength at inside
      split at inside <;> omega
    by_contra refused
    rw [Bool.not_eq_false] at refused
    -- a buffer that held other bytes tells the refused sector from the one that was read
    let buffer : Nat → UInt8 := fun offset =>
      store.disk (sectorAt (store.records node).dataSector (offset / 512)) (offset % 512) + 1
    have now := @readFile_miss _ node later.maxSize ⟨later.refuses, buffer⟩ (lookup.trans miss) asked
    have before := @readFile_miss _ node later.maxSize ⟨fun _ => false, buffer⟩ miss asked
    rw [recordAged, aged_records] at now
    rw [aged_records] at before
    have equal := same buffer _ _ now before offset
      (by rw [List.length_map, List.length_range]; exact inside) apart
    rw [List.getElem?_map, List.getElem?_map, List.getElem?_range inside] at equal
    have bytes := Option.some.inj equal
    unfold diskByte at bytes
    dsimp only at bytes
    rw [if_pos refused, if_neg (by simp), aged_disk] at bytes
    exact succ_ne _ bytes
  · intro offset inside apart
    rcases Int.lt_or_le 0 later.maxSize with asked | none
    · cases found : pcacheRead (store.aged node later) node with
      | some entry =>
        rw [readFile_hit (lookup.trans found) asked, recordAged] at now
        rw [readFile_hit found asked] at before
        rw [← Option.some.inj now, ← Option.some.inj before]
      | none =>
        rw [readFile_miss (lookup.trans found) asked, recordAged, aged_records] at now
        rw [readFile_miss found asked, aged_records] at before
        obtain rfl := Option.some.inj now
        obtain rfl := Option.some.inj before
        rw [List.length_map, List.length_range] at inside
        rw [List.getElem?_map, List.getElem?_map, List.getElem?_range inside]
        exact congrArg some (diskByte_same diskAged apart (served found offset inside apart) rfl)
    · rw [readFile_refused none] at now
      exact absurd now (by simp)

end

/-! ### The write -/

section

variable {store : FileStore} {node : Nat} {data : List UInt8} {answers : WriteAnswers}

theorem writeFile_none (full : startSector store.records node data = none) :
    writeFile store node data answers = (-3, store) := by
  unfold writeFile
  rw [full]

/-- What a refused call leaves behind. -/
theorem writeFile_refused {start : Int} (found : startSector store.records node data = some start)
    (refused : (writeCalls answers data start).1 = false) :
    (writeFile store node data answers).1 = -1 ∧
      (writeFile store node data answers).2.records node =
        { store.records node with dataSector := start } ∧
      (writeFile store node data answers).2.cache = store.cache ∧
      (writeFile store node data answers).2.disk =
        applySectors store.disk (writeCalls answers data start).2 := by
  unfold writeFile
  rw [found]
  dsimp only
  rw [if_pos refused]
  exact ⟨rfl, update_self _ _ _, rfl, rfl⟩

/-- A file is no alias of itself. -/
theorem syncAliases_self (store : FileStore) (node : Nat) :
    (syncAliases store node).records node = store.records node := by
  have self : isAlias store.records node node = false := by
    unfold isAlias
    simp
  unfold syncAliases
  dsimp only
  rw [self, if_neg (by simp)]

/-- The record when all calls are accepted. -/
theorem writeFile_accepted {start : Int} (found : startSector store.records node data = some start)
    (accepted : (writeCalls answers data start).1 = true) :
    (writeFile store node data answers).2.records node =
        { store.records node with dataSector := start, size := data.length } ∧
      ((writeFile store node data answers).1 < 0 ↔
        SaveFails (store.records node) data answers start) := by
  unfold writeFile SaveFails
  rw [found]
  dsimp only
  rw [accepted, if_neg (by simp)]
  split
  · rename_i saves
    split
    · rename_i refused
      exact ⟨(syncAliases_self _ node).trans (update_self _ _ _),
        fun _ => ⟨saves.1, saves.2, refused⟩, fun _ => show (-1 : Int) < 0 from by decide⟩
    · rename_i saved
      exact ⟨(syncAliases_self _ node).trans (update_self _ _ _),
        fun low => absurd low (by omega), fun fails => absurd fails.2.2 saved⟩
  · rename_i unsaved
    exact ⟨(syncAliases_self _ node).trans (update_self _ _ _),
      fun low => absurd low (by omega), fun fails => absurd ⟨fails.1, fails.2.1⟩ unsaved⟩

end

/-- A write that fails spares the file exactly if it is harmless. -/
theorem writeFile_spared_iff (store : FileStore) (node : Nat) (data : List UInt8)
    (answers : WriteAnswers) (later : LaterRead) :
    ((writeFile store node data answers).1 < 0 →
      Spared store (writeFile store node data answers).2 node data
        (changedSectors store node data answers) later) ↔
      Harmless store node data answers later := by
  unfold Harmless changedSectors
  cases found : startSector store.records node data with
  | none =>
    rw [writeFile_none found]
    have contents := @sameContents_iff store store node later [] rfl rfl fun _ _ => rfl
    refine ⟨fun spared => contents.mp (spared (show (-3 : Int) < 0 by decide)).contents, fun served _ =>
      ⟨rfl, rfl, contents.mpr served, fun _ _ index _ member => absurd member (by simp)⟩⟩
  | some start =>
    dsimp only
    cases accepted : (writeCalls answers data start).1 with
    | true =>
      obtain ⟨record, fails⟩ := writeFile_accepted found accepted
      rw [if_pos rfl, fails]
      refine ⟨fun spared failed => ?_, fun lasts failed => absurd failed lasts⟩
      have same := spared failed
      have size := same.size
      have dataSector := same.dataSector
      rw [record] at size dataSector
      rcases failed.2.1 with longer | moved
      · exact longer size
      · exact moved dataSector
    | false =>
      obtain ⟨result, record, cache, disk⟩ := writeFile_refused found accepted
      rw [if_neg (by simp), result]
      have contents : start = (store.records node).dataSector →
          (SameContents store (writeFile store node data answers).2 node
              ((writeCalls answers data start).2.map Prod.fst) later ↔
            Served store node ((writeCalls answers data start).2.map Prod.fst) later) := by
        rintro rfl
        refine sameContents_iff record (congrFun cache node) fun number apart => ?_
        rw [disk, applySectors_other apart]
      refine ⟨fun spared => ?_, fun ⟨same, whole, served⟩ _ => ⟨?_, ?_, ?_, whole⟩⟩
      · have kept := spared (by decide)
        have same := kept.dataSector
        rw [record] at same
        exact ⟨same, kept.whole, (contents same).mp kept.contents⟩
      · rw [record]
      · rw [record]
        exact same
      · exact (contents same).mpr served

/-! ### A file that has to move -/

/-- Two files of one sector each, side by side. -/
def neighbours : FileStore where
  records node :=
    if node = 1 then ⟨true, .file, 512, 2049⟩
    else if node = 2 then ⟨true, .file, 512, 2050⟩
    else ⟨false, .file, 0, 0⟩
  disk _ _ := 1
  cache _ := none

/-- A device that takes no data. -/
def refusing : WriteAnswers where
  buffered := true
  refuses _ := true
  torn _ := none
  seeding := false
  saveRefused := false
  saved _ _ := 0
  uncached := false
  evicted _ := false

theorem neighbours_taken : isTaken neighbours.records 1 2050 = true := by
  unfold isTaken
  rw [Bool.or_eq_true]
  exact .inr (List.any_eq_true.mpr ⟨2, List.mem_range.mpr (by decide), by decide⟩)

/-- The sectors behind the second file are free. -/
theorem neighbours_free {sector : Nat} (behind : 2051 ≤ sector) :
    isTaken neighbours.records 1 sector = false := by
  unfold isTaken
  rw [Bool.or_eq_false_iff]
  refine ⟨decide_eq_false (by unfold vfsDataStart; omega), List.any_eq_false.mpr fun node _ => ?_⟩
  unfold neighbours
  dsimp only
  split
  · rename_i first
    simp [first]
  split
  · rw [Bool.not_eq_true, Bool.and_eq_false_iff]
    refine .inr (decide_eq_false ?_)
    show ¬ (sector : Int) < 2050 + 1
    omega
  · simp

theorem neighbours_startSector :
    startSector neighbours.records 1 (List.replicate 513 0) = some 2051 := by
  have count : sectorCount (List.replicate 513 0) = 2 := by
    unfold sectorCount
    rw [List.length_replicate]
  unfold startSector relocates
  rw [count, if_pos (by decide)]
  unfold allocSectors
  rw [show vfsDiskSectors + 1 - max 1 2 - vfsDataStart = 6139 + 1 + 1 + 1 from rfl,
    List.range'_succ, List.range'_succ, List.range'_succ]
  have pair : ∀ start, ((List.range (max 1 2)).all fun index =>
      !isTaken neighbours.records 1 (start + index)) =
      (!isTaken neighbours.records 1 start && !isTaken neighbours.records 1 (start + 1)) := by
    intro start
    rw [show List.range (max 1 2) = [0, 1] from rfl]
    simp
  rw [List.find?_cons_of_neg, List.find?_cons_of_neg, List.find?_cons_of_pos]
  · rfl
  · rw [pair, neighbours_free (by decide), neighbours_free (by decide)]
    rfl
  · rw [pair, show vfsDataStart + 1 = 2050 from rfl, neighbours_taken]
    simp
  · rw [pair, show vfsDataStart + 1 = 2050 from rfl, neighbours_taken]
    simp

/-- A file that grows by a byte is given another span, and the device refuses the data: the node
stays at the new span, where nothing of the file was ever written. -/
theorem writeFile_spared_moved : ¬ ∀ (store : FileStore) (node : Nat) (data : List UInt8)
    (answers : WriteAnswers) (later : LaterRead),
    (writeFile store node data answers).1 < 0 →
      Spared store (writeFile store node data answers).2 node data
        (changedSectors store node data answers) later := by
  intro spared
  have refused : (writeCalls refusing (List.replicate 513 0) 2051).1 = false := by
    unfold writeCalls sectorCount
    rw [List.length_replicate]
    rfl
  obtain ⟨result, record, _, _⟩ := writeFile_refused neighbours_startSector refused
  have kept := (spared neighbours 1 (List.replicate 513 0) refusing ⟨true, 512, fun _ => false⟩
    (by rw [result]; decide)).dataSector
  rw [record] at kept
  exact absurd kept (by decide)

end MectovOS.Vfs
