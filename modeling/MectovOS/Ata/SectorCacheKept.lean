/-
This file proves that the sector cache holds what the medium holds in every run in
which a write that fails has changed nothing, and shows one that fails halfway.
-/

import MectovOS.Ata.SectorCache

namespace MectovOS.Ata

open Transition Function

variable {Data : Type} {disk next : Disk Data} {cache : SectorCache Data} {drive lba : Nat}

/-! ### Lists -/

/-- Another element of a list stays when one is replaced. -/
theorem mem_set_of_mem {Element : Type} {list : List Element} {index : Nat}
    {element old : Element} (new : Element) (at_ : list[index]? = some old)
    (member : element ∈ list) : element ∈ list.set index new ∨ element = old := by
  obtain ⟨other, is⟩ := List.mem_iff_getElem?.mp member
  by_cases same : other = index
  · rw [same, at_] at is
    exact Or.inr (Option.some.inj is).symm
  · refine Or.inl (List.mem_iff_getElem?.mpr ⟨other, ?_⟩)
    rw [List.getElem?_set_ne (Ne.symm same), is]

/-- All results of a list of lookups that succeed. -/
theorem mapM_some {Input Output : Type} {lookup : Input → Option Output} {list : List Input}
    {results : List Output} (all : list.mapM lookup = some results) :
    results.length = list.length ∧ ∀ (index : Nat) input, list[index]? = some input →
      ∃ output, lookup input = some output ∧ results[index]? = some output := by
  induction list generalizing results with
  | nil =>
    obtain rfl := Option.some.inj all
    exact ⟨rfl, fun index input is => absurd is (Option.some_ne_none input).symm⟩
  | cons first rest inductionHypothesis =>
    rw [List.mapM_cons] at all
    obtain ⟨output, one, others⟩ := Option.bind_eq_some_iff.mp all
    obtain ⟨outputs, looked, same⟩ := Option.bind_eq_some_iff.mp others
    obtain rfl := Option.some.inj same
    obtain ⟨length, each⟩ := inductionHypothesis looked
    refine ⟨congrArg (· + 1) length, fun index input is => ?_⟩
    cases index with
    | zero =>
      obtain rfl := Option.some.inj is
      exact ⟨output, one, rfl⟩
    | succ index => exact each index input is

/-! ### The cache -/

/-- Two entries for one sector with one content. -/
structure SameSector (old new : Slot Data) : Prop where
  drive : new.drive = old.drive
  lba : new.lba = old.lba
  data : new.data = old.data

theorem touch_slots (cache : SectorCache Data) (drive lba : Nat) {slot : Slot Data}
    (member : some slot ∈ (cache.touch drive lba).slots) :
    ∃ old, some old ∈ cache.slots ∧ SameSector old slot := by
  rw [SectorCache.touch] at member
  dsimp only at member
  split at member
  · exact ⟨slot, member, rfl, rfl, rfl⟩
  · next index found =>
    obtain ⟨other, is⟩ := List.mem_iff_getElem?.mp member
    rw [List.getElem?_modify] at is
    obtain ⟨old, found, is⟩ := Option.map_eq_some_iff.mp is
    split at is
    · obtain ⟨slot, rfl, rfl⟩ := Option.map_eq_some_iff.mp is
      exact ⟨slot, List.mem_iff_getElem?.mpr ⟨other, found⟩, rfl, rfl, rfl⟩
    · exact ⟨slot, List.mem_iff_getElem?.mpr ⟨other, is ▸ found⟩, rfl, rfl, rfl⟩

theorem lookup_slot {data : Data} (found : cache.lookup drive lba = some data) :
    ∃ slot, some slot ∈ cache.slots ∧ slot.drive = drive ∧ slot.lba = lba ∧ slot.data = data := by
  rw [SectorCache.lookup, Option.map_eq_some_iff] at found
  obtain ⟨slot, is, same⟩ := found
  rw [Option.join_eq_some_iff] at is
  have holds := List.find?_some is
  rw [isSlotOf, Option.any_some, Bool.and_eq_true, beq_iff_eq, beq_iff_eq] at holds
  exact ⟨slot, List.mem_of_find?_eq_some is, holds.1, holds.2, same⟩

theorem insert_slots (cache : SectorCache Data) (sector : Nat × Data) {slot : Slot Data}
    (member : some slot ∈ (cache.insert drive sector).slots) :
    some slot ∈ cache.slots ∨
      slot.drive = drive ∧ slot.lba = sector.1 ∧ slot.data = sector.2 := by
  rcases List.mem_or_eq_of_mem_set member with before | now
  · exact Or.inl before
  · obtain rfl := Option.some.inj now
    exact Or.inr ⟨rfl, rfl, rfl⟩

theorem inserts_slots (sectors : List (Nat × Data)) (cache : SectorCache Data) {slot : Slot Data}
    (member : some slot ∈ (sectors.foldl (SectorCache.insert drive) cache).slots) :
    some slot ∈ cache.slots ∨ slot.drive = drive ∧ (slot.lba, slot.data) ∈ sectors := by
  induction sectors generalizing cache with
  | nil => exact Or.inl member
  | cons sector rest inductionHypothesis =>
    rcases inductionHypothesis _ member with before | ⟨same, later⟩
    · rcases insert_slots cache sector before with old | ⟨same, lba, data⟩
      · exact Or.inl old
      · refine Or.inr ⟨same, ?_⟩
        rw [lba, data]
        exact List.mem_cons_self
    · exact Or.inr ⟨same, List.mem_cons_of_mem _ later⟩

theorem touches_slots (sectors : List Nat) (cache : SectorCache Data) {slot : Slot Data}
    (member : some slot ∈ (sectors.foldl (SectorCache.touch drive) cache).slots) :
    ∃ old, some old ∈ cache.slots ∧ SameSector old slot := by
  induction sectors generalizing cache with
  | nil => exact ⟨slot, member, rfl, rfl, rfl⟩
  | cons sector rest inductionHypothesis =>
    obtain ⟨middle, is, one⟩ := inductionHypothesis _ member
    obtain ⟨old, was, two⟩ := touch_slots cache drive sector is
    exact ⟨old, was, one.drive.trans two.drive, one.lba.trans two.lba, one.data.trans two.data⟩

theorem touches_gen (sectors : List Nat) (cache : SectorCache Data) :
    (sectors.foldl (SectorCache.touch drive) cache).gen = cache.gen := by
  induction sectors generalizing cache with
  | nil => rfl
  | cons sector rest inductionHypothesis => exact inductionHypothesis _

theorem inserts_gen (sectors : List (Nat × Data)) (cache : SectorCache Data) :
    (sectors.foldl (SectorCache.insert drive) cache).gen = cache.gen := by
  induction sectors generalizing cache with
  | nil => rfl
  | cons sector rest inductionHypothesis => exact inductionHypothesis _

/-- A lookup that hits hands out entries of the cache, and changes none. -/
theorem blkcacheRead_some {count : Nat} {sectors : List Data} {after : SectorCache Data}
    (hit : cache.blkcacheRead drive lba count = some (sectors, after)) :
    after.gen = cache.gen ∧
      (∀ slot, some slot ∈ after.slots → ∃ old, some old ∈ cache.slots ∧ SameSector old slot) ∧
      ∀ index < count, ∃ slot, some slot ∈ cache.slots ∧ slot.drive = drive ∧
        slot.lba = (lba + index) % 2 ^ 32 ∧ sectors[index]? = some slot.data := by
  rw [SectorCache.blkcacheRead, Option.map_eq_some_iff] at hit
  obtain ⟨found, looked, same⟩ := hit
  rw [Prod.mk.injEq] at same
  obtain ⟨rfl, rfl⟩ := same
  refine ⟨touches_gen _ _, fun slot => touches_slots _ _, fun index below => ?_⟩
  have number : (sectorsFrom lba count)[index]? = some ((lba + index) % 2 ^ 32) := by
    rw [sectorsFrom, List.getElem?_map, List.getElem?_range below, Option.map_some]
  obtain ⟨data, entry, is⟩ := (mapM_some looked).2 index _ number
  obtain ⟨slot, member, drives, address, rfl⟩ := lookup_slot entry
  exact ⟨slot, member, drives, address, is⟩

/-- A commit adds the sectors it is given, when the generation is that of its snapshot. -/
theorem blkcacheCommit_slots {sectors : List Data} {gen : Nat} {slot : Slot Data}
    (member : some slot ∈ (cache.blkcacheCommit drive lba sectors gen).slots) :
    some slot ∈ cache.slots ∨ gen = cache.gen ∧ slot.drive = drive ∧
      ∃ index < sectors.length, slot.lba = (lba + index) % 2 ^ 32 ∧
        sectors[index]? = some slot.data := by
  rw [SectorCache.blkcacheCommit] at member
  split at member
  · exact Or.inl member
  · next same =>
    rcases inserts_slots _ _ member with before | ⟨drives, pair⟩
    · exact Or.inl before
    · obtain ⟨index, is⟩ := List.mem_iff_getElem?.mp pair
      obtain ⟨number, data⟩ := List.getElem?_zip_eq_some.mp is
      have below : index < sectors.length := (List.getElem?_eq_some_iff.mp data).1
      rw [sectorsFrom, List.getElem?_map, List.getElem?_range below, Option.map_some,
        Option.some.injEq] at number
      exact Or.inr ⟨not_not.mp same, drives, index, below, number.symm, data⟩

theorem blkcacheCommit_gen (cache : SectorCache Data) (drive lba : Nat) (sectors : List Data)
    (gen : Nat) : (cache.blkcacheCommit drive lba sectors gen).gen = cache.gen := by
  rw [SectorCache.blkcacheCommit]
  split
  · rfl
  · exact inserts_gen _ _

/-- An invalidation leaves no entry of its range. -/
theorem blkcacheInvalidate_slots {count : Nat} (inside : lba + count ≤ 2 ^ 28) {slot : Slot Data}
    (member : some slot ∈ (cache.blkcacheInvalidate drive lba count).slots) :
    some slot ∈ cache.slots ∧ ¬ (slot.drive = drive ∧ lba ≤ slot.lba ∧ slot.lba < lba + count) := by
  obtain ⟨old, was, is⟩ := List.mem_map.mp member
  split at is
  · cases is
  · next outside =>
    obtain rfl := is
    refine ⟨was, fun ⟨drives, low, high⟩ => outside ?_⟩
    rw [Option.any_some, Bool.and_eq_true, Bool.and_eq_true, beq_iff_eq, decide_eq_true_iff,
      decide_eq_true_iff, Nat.mod_eq_of_lt (by omega)]
    exact ⟨⟨drives, low⟩, high⟩

/-! ### The calls under way -/

/-- Has a write that is under way put a sector on the medium? -/
def Writer.dirties (writer : Writer Data) (drive lba : Nat) : Prop :=
  writer.returned = false ∧ writer.drive = drive ∧
    ∃ sector < writer.count, writer.put sector = true ∧ writer.lba + sector = lba

def Disk.Dirty (disk : Disk Data) (drive lba : Nat) : Prop :=
  ∃ writer ∈ disk.writers, writer.dirties drive lba

theorem Writer.dirties.covers {writer : Writer Data} (dirties : writer.dirties drive lba) :
    writer.covers drive lba = true := by
  obtain ⟨running, drives, sector, below, -, is⟩ := dirties
  rw [Writer.covers, running, Bool.and_eq_true, Bool.and_eq_true, Bool.and_eq_true, beq_iff_eq,
    decide_eq_true_iff, decide_eq_true_iff]
  exact ⟨⟨⟨rfl, drives⟩, by omega⟩, by omega⟩

theorem Disk.writing_of_mem {writer : Writer Data} (member : writer ∈ disk.writers)
    (covers : writer.covers drive lba = true) : disk.writing drive lba = true :=
  List.any_eq_true.mpr ⟨writer, member, covers⟩

/-- Where no write is under way nothing is dirty. -/
theorem Disk.Dirty.writing (dirty : disk.Dirty drive lba) : disk.writing drive lba = true := by
  obtain ⟨writer, member, dirties⟩ := dirty
  exact Disk.writing_of_mem member dirties.covers

/-- The content of a sector that was seen at a count of writes. -/
def Fresh (disk : Disk Data) (seen drive lba : Nat) (data : Data) : Prop :=
  seen = disk.writes → ¬ disk.Dirty drive lba → data = disk.medium drive lba

/-- The sectors that a read has got, and those of its readahead, are fresh; and they are the medium's
where no write disturbed the read. -/
structure ReaderOk (disk : Disk Data) (reader : Reader Data) : Prop where
  inside : reader.lba + reader.count + raSectors ≤ 2 ^ 28
  seen : reader.seen ≤ disk.writes
  gen : reader.stage ≠ .note → reader.stage ≠ .look → reader.gen = reader.seen % 2 ^ 32
  empty : reader.stage = .note ∨ reader.stage = .look →
    (∀ sector, reader.buf sector = none) ∧ ∀ sector, reader.raBuf sector = none
  full : reader.stage = .check ∨ reader.stage = .ahead →
    ∀ sector < reader.count, (reader.buf sector).isSome = true
  buf : ∀ sector < reader.count, ∀ data, reader.buf sector = some data →
    Fresh disk reader.seen reader.drive (reader.lba + sector) data
  raBuf : ∀ sector < reader.raCount, ∀ data, reader.raBuf sector = some data →
    Fresh disk reader.seen reader.drive (reader.raStart + sector) data
  quiet : ∀ sector < reader.count, reader.disturbed sector = false →
    disk.writing reader.drive (reader.lba + sector) = false ∧
      ∀ data, reader.buf sector = some data →
        data = disk.medium reader.drive (reader.lba + sector)

/-- The invariant. -/
structure DiskInv (disk : Disk Data) : Prop where
  slots : ∀ slot, some slot ∈ disk.cache.slots → slot.lba < 2 ^ 28 ∧
    (¬ disk.Dirty slot.drive slot.lba → slot.data = disk.medium slot.drive slot.lba)
  gen : disk.cache.gen = disk.writes % 2 ^ 32
  readers : ∀ reader ∈ disk.readers, reader.stage ≠ .returned → ReaderOk disk reader
  writers : ∀ writer ∈ disk.writers, writer.lba + writer.asked ≤ 2 ^ 28 ∧
    writer.count ≤ writer.asked
  answers : ∀ answer ∈ disk.answers, answer.disturbed = false → answer.data = some answer.medium

/-- Nothing of the medium and of the writes has changed. -/
structure SameMedium (disk next : Disk Data) : Prop where
  medium : next.medium = disk.medium
  writers : next.writers = disk.writers
  writes : next.writes = disk.writes

theorem SameMedium.dirty (same : SameMedium disk next) (drive lba : Nat) :
    next.Dirty drive lba ↔ disk.Dirty drive lba := by
  rw [Disk.Dirty, Disk.Dirty, same.writers]

theorem SameMedium.writing (same : SameMedium disk next) (drive lba : Nat) :
    next.writing drive lba = disk.writing drive lba := by
  rw [Disk.writing, Disk.writing, same.writers]

theorem Fresh.same {seen : Nat} {data : Data} (fresh : Fresh disk seen drive lba data)
    (same : SameMedium disk next) : Fresh next seen drive lba data := by
  rw [Fresh, same.writes, same.dirty, same.medium]
  exact fresh

theorem ReaderOk.same {reader : Reader Data} (ok : ReaderOk disk reader)
    (same : SameMedium disk next) : ReaderOk next reader where
  inside := ok.inside
  seen := ok.seen.trans same.writes.ge
  gen := ok.gen
  empty := ok.empty
  full := ok.full
  buf sector below data is := (ok.buf sector below data is).same same
  raBuf sector below data is := (ok.raBuf sector below data is).same same
  quiet sector below clean := by
    rw [same.writing, same.medium]
    exact ok.quiet sector below clean

/-- A step of one read, which changes nothing of the medium, keeps the invariant. -/
theorem DiskInv.reading (inv : DiskInv disk) (same : SameMedium disk next) {index : Nat}
    {reader : Reader Data} (readers : next.readers = disk.readers.set index reader)
    (ok : reader.stage ≠ .returned → ReaderOk disk reader)
    (slots : ∀ slot, some slot ∈ next.cache.slots → slot.lba < 2 ^ 28 ∧
      (¬ disk.Dirty slot.drive slot.lba → slot.data = disk.medium slot.drive slot.lba))
    (gen : next.cache.gen = disk.cache.gen)
    (answers : ∀ answer ∈ next.answers, answer.disturbed = false →
      answer.data = some answer.medium) : DiskInv next where
  slots slot member := by
    rw [same.dirty, same.medium]
    exact slots slot member
  gen := by
    rw [gen, same.writes]
    exact inv.gen
  readers other member going := by
    rw [readers] at member
    rcases List.mem_or_eq_of_mem_set member with before | rfl
    · exact (inv.readers other before going).same same
    · exact (ok going).same same
  writers := by
    rw [same.writers]
    exact inv.writers
  answers := answers

/-- The sectors of a read are answered as they are, where nothing disturbed it. -/
theorem DiskInv.answered (inv : DiskInv disk) (reader : Reader Data) (index : Nat)
    (right : ∀ sector < reader.count, reader.disturbed sector = false →
      reader.buf sector = some (disk.medium reader.drive (reader.lba + sector))) :
    ∀ answer ∈ (disk.answer index reader).answers, answer.disturbed = false →
      answer.data = some answer.medium := by
  intro answer member clean
  rcases List.mem_append.mp member with before | now
  · exact inv.answers answer before clean
  · obtain ⟨sector, below, rfl⟩ := List.mem_map.mp now
    exact right sector (List.mem_range.mp below) clean

theorem filled_some {buf : Nat → Option Data} {count : Nat} {sectors : List Data}
    (full : filled buf count = some sectors) : sectors.length = count ∧
      ∀ sector < count, ∃ data, buf sector = some data ∧ sectors[sector]? = some data := by
  obtain ⟨length, each⟩ := mapM_some full
  rw [List.length_range] at length
  exact ⟨length, fun sector below => each sector sector (List.getElem?_range below)⟩

/-- A commit under the generation of its snapshot adds fresh sectors. -/
theorem DiskInv.committed (inv : DiskInv disk) {seen gen count : Nat} {buf : Nat → Option Data}
    {sectors : List Data} (inside : lba + count ≤ 2 ^ 28) (before : seen ≤ disk.writes)
    (recent : disk.writes < seen + 2 ^ 32) (snapshot : gen = seen % 2 ^ 32)
    (full : filled buf count = some sectors)
    (fresh : ∀ sector < count, ∀ data, buf sector = some data →
      Fresh disk seen drive (lba + sector) data) :
    ∀ slot, some slot ∈ (disk.cache.blkcacheCommit drive lba sectors gen).slots →
      slot.lba < 2 ^ 28 ∧
        (¬ disk.Dirty slot.drive slot.lba → slot.data = disk.medium slot.drive slot.lba) := by
  intro slot member
  obtain ⟨length, each⟩ := filled_some full
  rcases blkcacheCommit_slots member with old | ⟨same, drives, sector, below, is, data⟩
  · exact inv.slots slot old
  · rw [length] at below
    have none : seen = disk.writes := by
      rw [snapshot, inv.gen] at same
      omega
    obtain ⟨content, got, there⟩ := each sector below
    obtain rfl := Option.some.inj (there.symm.trans data)
    rw [Nat.mod_eq_of_lt (by omega)] at is
    rw [is, drives]
    exact ⟨by omega, fresh sector below _ got none⟩

theorem sectorAt_eq {index : Nat} (inside : lba < 2 ^ 28) : sectorAt lba index = lba + index := by
  rw [sectorAt, Nat.mod_eq_of_lt inside]

/-- A transfer into a buffer keeps it fresh. -/
theorem Fresh.update {buf : Nat → Option Data} {start count seen sector : Nat}
    (fresh : ∀ sector < count, ∀ data, buf sector = some data →
      Fresh disk seen drive (start + sector) data) :
    ∀ other < count, ∀ data, Function.update buf sector
        (some (disk.medium drive (start + sector))) other = some data →
      Fresh disk seen drive (start + other) data := by
  intro other below data is
  by_cases same : other = sector
  · rw [same, Function.update_self] at is
    obtain rfl := Option.some.inj is
    rw [same]
    exact fun _ _ => rfl
  · rw [Function.update_of_ne same] at is
    exact fresh other below data is

theorem neither {stage one other : ReadStage} {Claim : Prop} (first : stage ≠ one)
    (second : stage ≠ other) (is : stage = one ∨ stage = other) : Claim :=
  is.elim (fun is => absurd is first) fun is => absurd is second

/-- What a read that has got all its sectors returns. -/
theorem ReaderOk.answers {reader : Reader Data} (ok : ReaderOk disk reader)
    (full : ∀ sector < reader.count, (reader.buf sector).isSome = true) :
    ∀ sector < reader.count, reader.disturbed sector = false →
      reader.buf sector = some (disk.medium reader.drive (reader.lba + sector)) := by
  intro sector below clean
  obtain ⟨data, is⟩ := Option.isSome_iff_exists.mp (full sector below)
  rw [is, (ok.quiet sector below clean).2 data is]

theorem raCount_le (reader : Reader Data) : reader.raCount ≤ raSectors := by
  have entries : blockBatchMax = 128 := rfl
  have ahead : raSectors = 64 := rfl
  rw [Reader.raCount, ataBatchLimit]
  omega

/-- What a read does next keeps the invariant. -/
theorem DiskInv.onReader (inv : DiskInv disk) {index : Nat} {reader : Reader Data}
    {event : DiskEvent Data} (member : reader ∈ disk.readers)
    (recent : (∃ which, event = .commit which ∨ event = .aheadCommit which) →
      disk.writes < reader.seen + 2 ^ 32)
    (step : disk.onReader index reader event = some next) : DiskInv next := by
  have ok {stage : ReadStage} (is : reader.stage = stage) (going : stage ≠ .returned) :
      ReaderOk disk reader := inv.readers reader member (by rwa [is])
  have returns {Claim : Prop} (over_ : ReadStage.returned ≠ .returned) : Claim :=
    absurd rfl over_
  cases event with
  | startRead single drive lba count => cases step
  | startWrite single drive lba count data => cases step
  | put writer sector => cases step
  | writeDone writer => cases step
  | writeFails writer => cases step
  | note which =>
    obtain ⟨⟨stage, -⟩, step⟩ := Option.ite_none_right_eq_some.mp step
    obtain rfl := Option.some.inj step
    have ok := ok stage ReadStage.noConfusion
    refine inv.reading ⟨rfl, rfl, rfl⟩ rfl (fun _ => ?_) inv.slots rfl inv.answers
    exact ⟨ok.inside, ok.seen, fun _ look => absurd rfl look, fun _ => ok.empty (Or.inl stage),
      neither ReadStage.noConfusion ReadStage.noConfusion, ok.buf, ok.raBuf, ok.quiet⟩
  | look which =>
    obtain ⟨stage, step⟩ := Option.ite_none_right_eq_some.mp step
    have ok := ok stage ReadStage.noConfusion
    split at step
    · next sectors after hit =>
      obtain rfl := Option.some.inj step
      obtain ⟨gen, slots, each⟩ := blkcacheRead_some hit
      refine inv.reading ⟨rfl, rfl, rfl⟩ rfl returns (fun slot is => ?_) gen
        (inv.answered { reader with buf := fun sector => sectors[sector]? } index
          fun sector below clean => ?_)
      · obtain ⟨old, was, same⟩ := slots slot is
        rw [same.drive, same.lba, same.data]
        exact inv.slots old was
      · obtain ⟨slot, is, drives, address, data⟩ := each sector below
        have inside := ok.inside
        rw [Nat.mod_eq_of_lt (by
          have : sector < reader.count := below
          omega)] at address
        have quiet := (ok.quiet sector below clean).1
        have held := (inv.slots slot is).2
        rw [drives, address] at held
        refine data.trans (congrArg some (held fun dirty => ?_))
        exact absurd (quiet.symm.trans dirty.writing) Bool.false_ne_true
    · obtain rfl := Option.some.inj step
      obtain ⟨noBuf, noAhead⟩ := ok.empty (Or.inr stage)
      refine inv.reading ⟨rfl, rfl, rfl⟩ rfl (fun _ => ?_) inv.slots rfl inv.answers
      refine ⟨ok.inside, le_refl _, fun _ _ => inv.gen,
        neither ReadStage.noConfusion ReadStage.noConfusion,
        neither ReadStage.noConfusion ReadStage.noConfusion, fun sector _ data is => ?_,
        fun sector _ data is => ?_, ok.quiet⟩
      · exact absurd ((noBuf sector).symm.trans is) (Option.some_ne_none data).symm
      · exact absurd ((noAhead sector).symm.trans is) (Option.some_ne_none data).symm
  | transfer which sector =>
    obtain ⟨⟨stage, below⟩, step⟩ := Option.ite_none_right_eq_some.mp step
    obtain rfl := Option.some.inj step
    have ok := ok stage ReadStage.noConfusion
    have inside := ok.inside
    rw [sectorAt_eq (by omega)]
    refine inv.reading ⟨rfl, rfl, rfl⟩ rfl (fun _ => ?_) inv.slots rfl inv.answers
    refine ⟨inside, ok.seen, ok.gen, fun is => ?_, fun is => ?_, Fresh.update ok.buf, ok.raBuf,
      fun other less clean => ⟨(ok.quiet other less clean).1, fun data is => ?_⟩⟩
    · exact absurd is (by rw [stage]; decide)
    · exact absurd is (by rw [stage]; decide)
    · by_cases same : other = sector
      · dsimp only at is
        rw [same, update_self] at is
        rw [same]
        exact (Option.some.inj is).symm
      · dsimp only at is
        rw [update_of_ne same] at is
        exact (ok.quiet other less clean).2 data is
  | readFails which =>
    obtain ⟨stage, step⟩ := Option.ite_none_right_eq_some.mp step
    obtain rfl := Option.some.inj step
    exact inv.reading ⟨rfl, rfl, rfl⟩ rfl returns inv.slots rfl inv.answers
  | commit which =>
    obtain ⟨stage, step⟩ := Option.ite_none_right_eq_some.mp step
    obtain ⟨sectors, full, rfl⟩ := Option.map_eq_some_iff.mp step
    have ok := ok stage ReadStage.noConfusion
    have inside := ok.inside
    have snapshot := ok.gen (by rw [stage]; decide) (by rw [stage]; decide)
    have slots := inv.committed (by omega) ok.seen (recent ⟨which, Or.inl rfl⟩) snapshot full ok.buf
    have got : ∀ sector < reader.count, (reader.buf sector).isSome = true := by
      intro sector below
      obtain ⟨data, is, -⟩ := (filled_some full).2 sector below
      exact Option.isSome_iff_exists.mpr ⟨data, is⟩
    dsimp only
    split
    · exact inv.reading ⟨rfl, rfl, rfl⟩ rfl returns slots (blkcacheCommit_gen ..)
        (inv.answered _ index (ok.answers got))
    · refine inv.reading ⟨rfl, rfl, rfl⟩ rfl (fun _ => ?_) slots (blkcacheCommit_gen ..) inv.answers
      exact ⟨inside, ok.seen, fun _ _ => snapshot,
        neither ReadStage.noConfusion ReadStage.noConfusion, fun _ => got, ok.buf, ok.raBuf, ok.quiet⟩
  | check which =>
    obtain ⟨⟨stage, -⟩, step⟩ := Option.ite_none_right_eq_some.mp step
    have ok := ok stage ReadStage.noConfusion
    split at step
    · obtain rfl := Option.some.inj step
      refine inv.reading ⟨rfl, rfl, rfl⟩ rfl (fun _ => ?_) inv.slots rfl inv.answers
      exact ⟨ok.inside, ok.seen, fun _ _ => ok.gen (by rw [stage]; decide) (by rw [stage]; decide),
        neither ReadStage.noConfusion ReadStage.noConfusion, fun _ => ok.full (Or.inl stage), ok.buf,
        ok.raBuf, ok.quiet⟩
    · obtain rfl := Option.some.inj step
      exact inv.reading ⟨rfl, rfl, rfl⟩ rfl returns inv.slots rfl
        (inv.answered _ index (ok.answers (ok.full (Or.inl stage))))
  | ahead which sector =>
    obtain ⟨⟨stage, below⟩, step⟩ := Option.ite_none_right_eq_some.mp step
    obtain rfl := Option.some.inj step
    have ok := ok stage ReadStage.noConfusion
    have inside := ok.inside
    have ahead : raSectors = 64 := rfl
    rw [sectorAt_eq (by rw [Reader.raStart]; omega)]
    refine inv.reading ⟨rfl, rfl, rfl⟩ rfl (fun _ => ?_) inv.slots rfl inv.answers
    exact ⟨inside, ok.seen, ok.gen, fun is => absurd is (by rw [stage]; decide), ok.full, ok.buf,
      Fresh.update ok.raBuf, ok.quiet⟩
  | aheadFails which =>
    obtain ⟨stage, step⟩ := Option.ite_none_right_eq_some.mp step
    obtain rfl := Option.some.inj step
    have ok := ok stage ReadStage.noConfusion
    exact inv.reading ⟨rfl, rfl, rfl⟩ rfl returns inv.slots rfl
      (inv.answered _ index (ok.answers (ok.full (Or.inr stage))))
  | aheadCommit which =>
    obtain ⟨stage, step⟩ := Option.ite_none_right_eq_some.mp step
    obtain ⟨sectors, full, rfl⟩ := Option.map_eq_some_iff.mp step
    have ok := ok stage ReadStage.noConfusion
    have inside := ok.inside
    have ahead := raCount_le reader
    have snapshot := ok.gen (by rw [stage]; decide) (by rw [stage]; decide)
    have slots := inv.committed (by rw [Reader.raStart]; omega) ok.seen
      (recent ⟨which, Or.inr rfl⟩) snapshot full ok.raBuf
    exact inv.reading ⟨rfl, rfl, rfl⟩ rfl returns slots (blkcacheCommit_gen ..)
      (inv.answered _ index (ok.answers (ok.full (Or.inr stage))))

/-! ### Writes -/

/-- What is dirty behind a step of a write that has put no sector less. -/
theorem Disk.Dirty.step {index : Nat} {writer after : Writer Data}
    (at_ : disk.writers[index]? = some writer)
    (same : next.writers = disk.writers.set index after)
    (more : ∀ drive lba, writer.dirties drive lba → after.dirties drive lba)
    (dirty : disk.Dirty drive lba) : next.Dirty drive lba := by
  obtain ⟨other, member, dirties⟩ := dirty
  rw [Disk.Dirty, same]
  rcases mem_set_of_mem after at_ member with stays | rfl
  · exact ⟨other, stays, dirties⟩
  · obtain ⟨bound, is⟩ := List.getElem?_eq_some_iff.mp at_
    exact ⟨after, List.mem_set bound after, more _ _ dirties⟩

/-- Where a write is under way behind a step of one of them. -/
theorem writing_step {index : Nat} {writer after : Writer Data}
    (at_ : disk.writers[index]? = some writer)
    (same : next.writers = disk.writers.set index after)
    (less : ∀ drive lba, after.covers drive lba = true → writer.covers drive lba = true)
    (clean : disk.writing drive lba = false) : next.writing drive lba = false := by
  refine Bool.eq_false_of_not_eq_true fun covered => ?_
  obtain ⟨other, member, covers⟩ := List.any_eq_true.mp covered
  rw [same] at member
  have before : disk.writing drive lba = true := by
    rcases List.mem_or_eq_of_mem_set member with old | rfl
    · exact Disk.writing_of_mem old covers
    · exact Disk.writing_of_mem (List.mem_of_getElem? at_) (less _ _ covers)
  exact absurd (clean.symm.trans before) Bool.false_ne_true

/-- A step of one write, under which what is fresh stays so and clean sectors keep their content,
keeps the invariant. -/
theorem DiskInv.writes (inv : DiskInv disk) {index : Nat} {writer after : Writer Data}
    (at_ : disk.writers[index]? = some writer)
    (writers : next.writers = disk.writers.set index after) (readers : next.readers = disk.readers)
    (range : after.lba = writer.lba ∧ after.asked = writer.asked ∧ after.count = writer.count)
    (slots : ∀ slot, some slot ∈ next.cache.slots → slot.lba < 2 ^ 28 ∧
      (¬ next.Dirty slot.drive slot.lba → slot.data = next.medium slot.drive slot.lba))
    (gen : next.cache.gen = next.writes % 2 ^ 32) (later : disk.writes ≤ next.writes)
    (fresh : ∀ seen drive lba data, seen ≤ disk.writes → Fresh disk seen drive lba data →
      Fresh next seen drive lba data)
    (less : ∀ drive lba, after.covers drive lba = true → writer.covers drive lba = true)
    (kept : ∀ drive lba, disk.writing drive lba = false →
      next.medium drive lba = disk.medium drive lba)
    (answers : next.answers = disk.answers) : DiskInv next where
  slots := slots
  gen := gen
  readers reader member going := by
    rw [readers] at member
    have ok := inv.readers reader member going
    refine ⟨ok.inside, ok.seen.trans later, ok.gen, ok.empty, ok.full,
      fun sector below data is => fresh _ _ _ _ ok.seen (ok.buf sector below data is),
      fun sector below data is => fresh _ _ _ _ ok.seen (ok.raBuf sector below data is),
      fun sector below clean => ?_⟩
    obtain ⟨quiet, same⟩ := ok.quiet sector below clean
    rw [kept _ _ quiet]
    exact ⟨writing_step at_ writers less quiet, same⟩
  writers other member := by
    rw [writers] at member
    rcases List.mem_or_eq_of_mem_set member with before | rfl
    · exact inv.writers other before
    · rw [range.1, range.2.1, range.2.2]
      exact inv.writers writer (List.mem_of_getElem? at_)
  answers := by
    rw [answers]
    exact inv.answers

/-- What a write does next keeps the invariant. -/
theorem DiskInv.onWriter (inv : DiskInv disk) {index : Nat} {writer : Writer Data}
    {event : DiskEvent Data} (at_ : disk.writers[index]? = some writer)
    (nothing : (∃ which, event = .writeFails which) →
      ∀ sector < writer.count, writer.put sector = false)
    (step : disk.onWriter index writer event = some next) : DiskInv next := by
  obtain ⟨inside, clamped⟩ := inv.writers writer (List.mem_of_getElem? at_)
  cases event with
  | startRead single drive lba count => cases step
  | startWrite single drive lba count data => cases step
  | note which => cases step
  | look which => cases step
  | transfer which sector => cases step
  | readFails which => cases step
  | commit which => cases step
  | check which => cases step
  | ahead which sector => cases step
  | aheadFails which => cases step
  | aheadCommit which => cases step
  | put which sector =>
    obtain ⟨⟨running, below⟩, step⟩ := Option.ite_none_right_eq_some.mp step
    obtain rfl := Option.some.inj step
    rw [sectorAt_eq (by omega)]
    have more (drive lba : Nat) (dirties : writer.dirties drive lba) :
        Writer.dirties { writer with put := update writer.put sector true } drive lba := by
      obtain ⟨running, drives, other, less, put, is⟩ := dirties
      refine ⟨running, drives, other, less, ?_, is⟩
      by_cases same : other = sector
      · exact (congrArg _ same).trans (update_self ..)
      · exact (update_of_ne same ..).trans put
    have mine : Writer.dirties { writer with put := update writer.put sector true }
        writer.drive (writer.lba + sector) :=
      ⟨running, rfl, sector, below, update_self .., rfl⟩
    have elsewhere {drive lba : Nat} (other : ¬ (drive = writer.drive ∧ lba = writer.lba + sector)) :
        update disk.medium writer.drive (update (disk.medium writer.drive)
          (writer.lba + sector) (writer.data sector)) drive lba = disk.medium drive lba := by
      by_cases drives : drive = writer.drive
      · rw [drives, update_self,
          update_of_ne fun same => other ⟨drives, same⟩]
      · rw [update_of_ne drives]
    have stays {drive lba : Nat} (clean : ¬ Disk.Dirty { disk.setWriter index
        { writer with put := update writer.put sector true } with
          medium := update disk.medium writer.drive (update
            (disk.medium writer.drive) (writer.lba + sector) (writer.data sector)) } drive lba) :
        ¬ disk.Dirty drive lba ∧ ¬ (drive = writer.drive ∧ lba = writer.lba + sector) := by
      refine ⟨fun dirty => clean (dirty.step at_ rfl more), fun same => clean ?_⟩
      rw [same.1, same.2]
      exact ⟨_, List.mem_set (List.getElem?_eq_some_iff.mp at_).1 _, mine⟩
    refine inv.writes at_ rfl rfl ⟨rfl, rfl, rfl⟩ (fun slot is => ?_) inv.gen (le_refl _)
      (fun seen drive lba data _ fresh same clean => ?_) (fun _ _ => id) (fun drive lba quiet => ?_)
      rfl
    · obtain ⟨low, held⟩ := inv.slots slot is
      refine ⟨low, fun clean => ?_⟩
      obtain ⟨before, other⟩ := stays clean
      exact (held before).trans (elsewhere other).symm
    · obtain ⟨before, other⟩ := stays clean
      exact (fresh same before).trans (elsewhere other).symm
    · refine elsewhere fun same => absurd ?_ Bool.false_ne_true
      have dirties : (Writer.covers writer drive lba) = true := by
        rw [same.1, same.2]
        exact mine.covers
      rw [← quiet]
      exact Disk.writing_of_mem (List.mem_of_getElem? at_) dirties
  | writeDone which =>
    obtain ⟨⟨running, -⟩, step⟩ := Option.ite_none_right_eq_some.mp step
    obtain rfl := Option.some.inj step
    refine inv.writes at_ rfl rfl ⟨rfl, rfl, rfl⟩ (fun slot is => ?_) ?_ (Nat.le_succ _)
      (fun seen drive lba data before _ same _ => ?_) (fun drive lba covers => ?_)
      (fun _ _ _ => rfl) rfl
    · obtain ⟨old, outside⟩ := blkcacheInvalidate_slots inside is
      obtain ⟨low, held⟩ := inv.slots slot old
      refine ⟨low, fun clean => held fun dirty => ?_⟩
      obtain ⟨other, member, dirties⟩ := dirty
      rcases mem_set_of_mem { writer with returned := true } at_ member with stays | rfl
      · exact clean ⟨other, stays, dirties⟩
      · obtain ⟨-, drives, sector, less, -, address⟩ := dirties
        exact outside ⟨drives.symm, by omega, by omega⟩
    · show (disk.cache.gen + 1) % 2 ^ 32 = (disk.writes + 1) % 2 ^ 32
      rw [inv.gen]
      omega
    · have : seen = disk.writes + 1 := same
      omega
    · exact absurd covers Bool.false_ne_true
  | writeFails which =>
    obtain ⟨running, step⟩ := Option.ite_none_right_eq_some.mp step
    obtain rfl := Option.some.inj step
    have stays {drive lba : Nat}
        (clean : ¬ (disk.setWriter index { writer with returned := true }).Dirty drive lba) :
        ¬ disk.Dirty drive lba := by
      rintro ⟨other, member, dirties⟩
      rcases mem_set_of_mem { writer with returned := true } at_ member with stays | rfl
      · exact clean ⟨other, stays, dirties⟩
      · obtain ⟨-, -, sector, less, put, -⟩ := dirties
        exact absurd ((nothing ⟨which, rfl⟩ sector less).symm.trans put) Bool.false_ne_true
    refine inv.writes at_ rfl rfl ⟨rfl, rfl, rfl⟩ (fun slot is => ?_) inv.gen (le_refl _)
      (fun seen drive lba data _ fresh same clean => fresh same (stays clean))
      (fun drive lba covers => ?_) (fun _ _ _ => rfl) rfl
    · obtain ⟨low, held⟩ := inv.slots slot is
      exact ⟨low, fun clean => held (stays clean)⟩
    · exact absurd covers Bool.false_ne_true

/-! ### Calls -/

theorem ataBatchLimit_le {count : Nat} (some : 1 ≤ count) : ataBatchLimit lba count ≤ count := by
  rw [ataBatchLimit]
  omega

/-- A new read knows nothing but the writes under way. -/
theorem newReader_ok {single : Bool} {count : Nat} (some : 1 ≤ count)
    (inside : lba + count + raSectors ≤ 2 ^ 28) :
    ReaderOk disk (newReader disk.writing single drive lba count) := by
  have less : (if single then 1 else ataBatchLimit lba count) ≤ count := by
    split
    · exact some
    · exact ataBatchLimit_le some
  have fresh : (if single then ReadStage.look else ReadStage.note) = .note ∨
      (if single then ReadStage.look else ReadStage.note) = .look := by
    cases single
    · exact Or.inl rfl
    · exact Or.inr rfl
  refine ⟨?_, Nat.zero_le _, fun note look => ?_, fun _ => ⟨fun _ => rfl, fun _ => rfl⟩,
    fun is => ?_, fun _ _ data is => ?_, fun _ _ data is => ?_, fun sector _ clean => ?_⟩
  · exact (Nat.add_le_add_right (Nat.add_le_add_left less lba) raSectors).trans inside
  · exact (fresh.elim note look).elim
  · cases single
    · exact neither ReadStage.noConfusion ReadStage.noConfusion is
    · exact neither ReadStage.noConfusion ReadStage.noConfusion is
  · exact absurd is (Option.some_ne_none data).symm
  · exact absurd is (Option.some_ne_none data).symm
  · exact ⟨clean, fun data is => absurd is (Option.some_ne_none data).symm⟩

/-- A write that begins has put nothing on the medium, and the reads take note of it. -/
theorem DiskInv.startWrite (inv : DiskInv disk) {single : Bool} {count : Nat} (data : Nat → Data)
    (some : 1 ≤ count) (inside : lba + count ≤ 2 ^ 28) :
    DiskInv { disk with
      readers := disk.readers.map (Reader.disturb (newWriter single drive lba count data))
      writers := disk.writers ++ [newWriter single drive lba count data] } := by
  have stays {where_ address : Nat} (clean : ¬ Disk.Dirty { disk with
      readers := disk.readers.map (Reader.disturb (newWriter single drive lba count data))
      writers := disk.writers ++ [newWriter single drive lba count data] } where_ address) :
      ¬ disk.Dirty where_ address := by
    rintro ⟨writer, member, dirties⟩
    exact clean ⟨writer, List.mem_append_left _ member, dirties⟩
  have asked : (newWriter single drive lba count data).asked ≤ count := by
    cases single
    · exact le_refl _
    · exact some
  have clamped : (newWriter single drive lba count data).count ≤
      (newWriter single drive lba count data).asked := by
    cases single
    · exact ataBatchLimit_le some
    · exact le_refl _
  refine ⟨fun slot is => ?_, inv.gen, fun reader member going => ?_, fun writer member => ?_,
    inv.answers⟩
  · obtain ⟨low, held⟩ := inv.slots slot is
    exact ⟨low, fun clean => held (stays clean)⟩
  · obtain ⟨old, was, rfl⟩ := List.mem_map.mp member
    have ok := inv.readers old was going
    refine ⟨ok.inside, ok.seen, ok.gen, ok.empty, ok.full,
      fun sector below data is same clean => ok.buf sector below data is same (stays clean),
      fun sector below data is same clean => ok.raBuf sector below data is same (stays clean),
      fun sector below clean => ?_⟩
    obtain ⟨before, uncovered⟩ := Bool.or_eq_false_iff.mp clean
    obtain ⟨quiet, same⟩ := ok.quiet sector below before
    refine ⟨?_, same⟩
    show (disk.writers ++ [newWriter single drive lba count data]).any _ = false
    rw [List.any_append, Bool.or_eq_false_iff]
    refine ⟨quiet, ?_⟩
    show (Writer.covers _ _ _ || false) = false
    rw [Bool.or_false]
    exact uncovered
  · rcases List.mem_append.mp member with before | now
    · exact inv.writers writer before
    · obtain rfl := List.mem_singleton.mp now
      exact ⟨(Nat.add_le_add_left asked lba).trans inside, clamped⟩

/-- A sound step keeps the invariant. -/
theorem DiskInv.on (inv : DiskInv disk) {event : DiskEvent Data} (allowed : sound disk event = true)
    (step : disk.on event = some next) : DiskInv next := by
  have reads {index : Nat} (recent : (∃ which, event = .commit which ∨ event = .aheadCommit which) →
      (disk.readers[index]?).all (fun reader => decide (disk.writes < reader.seen + 2 ^ 32)) = true)
      (step : ((disk.readers[index]?).bind fun reader => disk.onReader index reader event) =
        some next) : DiskInv next := by
    obtain ⟨reader, at_, step⟩ := Option.bind_eq_some_iff.mp step
    refine inv.onReader (List.mem_of_getElem? at_) (fun commits => ?_) step
    have below := recent commits
    rw [at_, Option.all_some] at below
    exact of_decide_eq_true below
  have plain {index : Nat} (other : ¬ ∃ which, event = .commit which ∨ event = .aheadCommit which)
      (step : ((disk.readers[index]?).bind fun reader => disk.onReader index reader event) =
        some next) : DiskInv next := reads (fun commits => absurd commits other) step
  have writes {index : Nat} (nothing : (∃ which, event = .writeFails which) →
      (disk.writers[index]?).all (fun writer => (List.range writer.count).all fun sector =>
        !writer.put sector) = true)
      (step : ((disk.writers[index]?).bind fun writer => disk.onWriter index writer event) =
        some next) : DiskInv next := by
    obtain ⟨writer, at_, step⟩ := Option.bind_eq_some_iff.mp step
    refine inv.onWriter at_ (fun fails sector below => ?_) step
    have all := nothing fails
    rw [at_, Option.all_some] at all
    have put := List.all_eq_true.mp all sector (List.mem_range.mpr below)
    rw [Bool.not_eq_true'] at put
    exact put
  cases event with
  | startRead single drive lba count =>
    rw [sound] at allowed
    obtain ⟨⟨-, some⟩, step⟩ := Option.ite_none_right_eq_some.mp step
    obtain rfl := Option.some.inj step
    refine ⟨inv.slots, inv.gen, fun reader member going => ?_, inv.writers, inv.answers⟩
    rcases List.mem_append.mp member with before | now
    · exact (inv.readers reader before going).same ⟨rfl, rfl, rfl⟩
    · obtain rfl := List.mem_singleton.mp now
      exact (newReader_ok some (of_decide_eq_true allowed)).same ⟨rfl, rfl, rfl⟩
  | startWrite single drive lba count data =>
    rw [sound] at allowed
    obtain ⟨⟨-, some⟩, step⟩ := Option.ite_none_right_eq_some.mp step
    obtain rfl := Option.some.inj step
    exact inv.startWrite data some (of_decide_eq_true allowed)
  | note index => exact plain (fun ⟨_, is⟩ => by rcases is with is | is <;> cases is) step
  | look index => exact plain (fun ⟨_, is⟩ => by rcases is with is | is <;> cases is) step
  | transfer index sector =>
    exact plain (fun ⟨_, is⟩ => by rcases is with is | is <;> cases is) step
  | readFails index => exact plain (fun ⟨_, is⟩ => by rcases is with is | is <;> cases is) step
  | commit index =>
    rw [sound] at allowed
    exact reads (fun _ => allowed) step
  | check index => exact plain (fun ⟨_, is⟩ => by rcases is with is | is <;> cases is) step
  | ahead index sector => exact plain (fun ⟨_, is⟩ => by rcases is with is | is <;> cases is) step
  | aheadFails index => exact plain (fun ⟨_, is⟩ => by rcases is with is | is <;> cases is) step
  | aheadCommit index =>
    rw [sound] at allowed
    exact reads (fun _ => allowed) step
  | put index sector => exact writes (fun ⟨_, is⟩ => by cases is) step
  | writeDone index => exact writes (fun ⟨_, is⟩ => by cases is) step
  | writeFails index =>
    rw [sound] at allowed
    exact writes (fun _ => allowed) step

theorem DiskInv.initial (initial : disk.Initial) : DiskInv disk := by
  obtain ⟨empty, -, gen, -, readers, writers, writes, answers⟩ := initial
  refine ⟨fun slot member => ?_, by rw [gen, writes, Nat.zero_mod], fun reader member => ?_,
    fun writer member => ?_, fun answer member => ?_⟩
  · exact absurd (empty _ member) Bool.false_ne_true
  · exact absurd (readers ▸ member) List.not_mem_nil
  · exact absurd (writers ▸ member) List.not_mem_nil
  · exact absurd (answers ▸ member) List.not_mem_nil

/-! ### The law -/

/-- In every sound run the cache is coherent. -/
theorem cache_coherent
    (reachable : (diskSystem Data).Reachable (fun disk event => sound disk event) disk) :
    CoherentCache disk := by
  have inv : DiskInv disk := by
    refine reachable.invariant DiskInv (fun _ => DiskInv.initial) ?_
    exact fun state event next inv allowed step => inv.on allowed step
  refine ⟨fun slot member clean => (inv.slots slot member).2 fun dirty => ?_, inv.answers⟩
  exact absurd (clean.symm.trans dirty.writing) Bool.false_ne_true

/-! ### Two runs -/

/-- A medium of zeros behind an empty cache. -/
def zeroDisk : Disk Nat where
  medium _ _ := 0
  cache := ⟨List.replicate blkcacheEntries none, 0, 0⟩
  streams _ := ⟨0, 0⟩
  raHolder := none
  readers := []
  writers := []
  writes := 0
  answers := []

theorem zeroDisk_initial : zeroDisk.Initial :=
  ⟨fun _ member => List.eq_of_mem_replicate member ▸ rfl, List.length_replicate, rfl, rfl, rfl, rfl,
    rfl, rfl⟩

/-- A read that misses, of one sector. -/
def readOne (reader lba : Nat) : List (DiskEvent Nat) :=
  [.startRead true 0 lba 1, .look reader, .transfer reader 0, .commit reader]

/-- A sector is read, written and read again, and once more out of the cache. -/
def rewritten : List (DiskEvent Nat) :=
  readOne 0 5 ++ [.startWrite true 0 5 1 fun _ => 7, .put 0 0, .writeDone 0] ++ readOne 1 5 ++
    [.startRead true 0 5 1, .look 2]

theorem rewritten_answers :
    (executeGuarded sound Disk.on zeroDisk rewritten).map
        (fun disk => disk.answers.map fun answer => (answer.data, answer.disturbed)) =
      some [(some 0, false), (some 7, false), (some 7, false)] := by decide +kernel

theorem cache_coherent_rewritten : ∃ disk : Disk Nat,
    disk.answers.map (fun answer => (answer.data, answer.disturbed)) =
      [(some 0, false), (some 7, false), (some 7, false)] ∧ CoherentCache disk := by
  obtain ⟨disk, ran, answers⟩ := Option.map_eq_some_iff.mp rewritten_answers
  exact ⟨disk, answers, cache_coherent (reachable_executeGuarded (.init zeroDisk_initial) ran)⟩

/-- Two sectors are read; a write to both puts the first one and fails. -/
def halfWritten : List (DiskEvent Nat) :=
  readOne 0 5 ++ readOne 1 6 ++ [.startWrite false 0 5 2 fun _ => 7, .put 0 0, .writeFails 0]

theorem halfWritten_stale :
    (execute Disk.on zeroDisk halfWritten).map
        (fun disk => (disk.cache.lookup 0 5, disk.medium 0 5, disk.writing 0 5)) =
      some (some 0, 7, false) := by decide +kernel

/-- The cache holds a sector that the medium no longer holds. -/
theorem halfWritten_incoherent :
    ¬ ∀ disk, (diskSystem Nat).Reachable anyStep disk → CoherentCache disk := by
  intro coherent
  obtain ⟨disk, ran, is⟩ := Option.map_eq_some_iff.mp halfWritten_stale
  rw [Prod.mk.injEq, Prod.mk.injEq] at is
  obtain ⟨cached, medium, quiet⟩ := is
  obtain ⟨slot, member, drives, address, data⟩ := lookup_slot cached
  have same := (coherent disk (reachable_execute (.init zeroDisk_initial) ran)).slots slot member
  rw [drives, address] at same
  exact absurd (data.symm.trans ((same quiet).trans medium)) (by decide)

end MectovOS.Ata
