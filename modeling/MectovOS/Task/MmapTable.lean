/-
This file is about the region table of a task: whatever the history, the regions
in use lie page-aligned in the mmap window and apart from each other. The search
for a gap finds one that keeps this, and everything else that writes a table
copies it, clears slots of it, or leaves it alone.
-/

import MectovOS.Lib.Spans
import MectovOS.Task.Mmap

namespace MectovOS.Sched

open Spans (Span Apart)

/-! ### Regular tables -/

/-- The addresses of a region. -/
def MmapRegion.span (region : MmapRegion) : Span := ⟨region.base, region.size⟩

/-- A region the search for a gap may have placed. -/
structure Placed (base size : Nat) : Prop where
  low : mmapBase ≤ base
  high : base < mmapEnd
  base_aligned : base % 4096 = 0
  size_pos : 0 < size
  size_aligned : size % 4096 = 0
  size_le : size ≤ mmapEnd - mmapBase

/-- The regions in use are placed, and apart from each other. -/
structure Regular (regions : List MmapRegion) : Prop where
  length : regions.length = mmapMaxRegions
  placed : ∀ region ∈ regions, region.base ≠ 0 → Placed region.base region.size
  apart : ∀ {first second : Nat} {left right : MmapRegion}, first ≠ second →
    regions[first]? = some left → regions[second]? = some right →
    left.base ≠ 0 → right.base ≠ 0 → Apart left.span right.span

theorem regular_empty : Regular (List.replicate mmapMaxRegions MmapRegion.empty) where
  length := List.length_replicate
  placed region member used := absurd (by rw [List.eq_of_mem_replicate member]; rfl) used
  apart _ found _ used := absurd
    (by rw [List.eq_of_mem_replicate (List.mem_of_getElem? found)]; rfl) used

/-- A table whose regions in use are regions of a regular table, slot by slot, is regular. -/
theorem Regular.narrow {before after : List MmapRegion} (regular : Regular before)
    (length : after.length = before.length)
    (kept : ∀ {slot : Nat} {region : MmapRegion}, after[slot]? = some region → region.base ≠ 0 →
      ∃ old, before[slot]? = some old ∧ old.base = region.base ∧ old.size = region.size) :
    Regular after where
  length := length.trans regular.length
  placed region member used := by
    obtain ⟨slot, found⟩ := List.getElem?_of_mem member
    obtain ⟨old, there, base, size⟩ := kept found used
    rw [← base, ← size]
    exact regular.placed old (List.mem_of_getElem? there) (by rwa [base])
  apart := by
    intro first second left right differ foundLeft foundRight usedLeft usedRight
    obtain ⟨oldLeft, thereLeft, baseLeft, sizeLeft⟩ := kept foundLeft usedLeft
    obtain ⟨oldRight, thereRight, baseRight, sizeRight⟩ := kept foundRight usedRight
    have clear := regular.apart differ thereLeft thereRight (by rwa [baseLeft])
      (by rwa [baseRight])
    unfold MmapRegion.span at clear ⊢
    rwa [baseLeft, sizeLeft, baseRight, sizeRight] at clear

theorem Regular.map {regions : List MmapRegion} (regular : Regular regions)
    {change : MmapRegion → MmapRegion}
    (narrow : ∀ region, (change region).base = 0 ∨
      (change region).base = region.base ∧ (change region).size = region.size) :
    Regular (regions.map change) := by
  refine regular.narrow (List.length_map _) fun {slot region} found used => ?_
  rw [List.getElem?_map, Option.map_eq_some_iff] at found
  obtain ⟨old, there, rfl⟩ := found
  rcases narrow old with cleared | ⟨base, size⟩
  · exact absurd cleared used
  · exact ⟨old, there, base.symm, size.symm⟩

theorem Regular.mmapFreeDirtyBitmaps {regions : List MmapRegion} (regular : Regular regions) :
    Regular (mmapFreeDirtyBitmaps regions) :=
  regular.map fun _ => Or.inr ⟨rfl, rfl⟩

theorem Regular.clearBases {regions : List MmapRegion} (regular : Regular regions) :
    Regular (clearBases regions) :=
  regular.map fun _ => Or.inl rfl

theorem regular_lasting {task : Task} :
    Regular task.lasting.mmapRegions ↔ Regular task.mmapRegions := by
  refine ⟨fun regular => ?_, Regular.mmapFreeDirtyBitmaps⟩
  refine regular.narrow (List.length_map _).symm fun {slot region} found _ => ?_
  refine ⟨{ region with dirty := 0 }, ?_, rfl, rfl⟩
  show (task.mmapRegions.map _)[slot]? = _
  rw [List.getElem?_map, found]
  rfl

theorem Regular.fork {regions : List MmapRegion} (regular : Regular regions) (args : ForkArgs) :
    Regular (regions.mapIdx (forkRegion args)) := by
  refine regular.narrow List.length_mapIdx fun {slot region} found used => ?_
  rw [List.getElem?_mapIdx, Option.map_eq_some_iff] at found
  obtain ⟨old, there, rfl⟩ := found
  unfold forkRegion at used ⊢
  split_ifs at used ⊢
  · exact ⟨old, there, rfl, rfl⟩
  · exact absurd rfl used
  · exact ⟨old, there, rfl, rfl⟩

theorem Regular.discard {regions : List MmapRegion} (regular : Regular regions) (slot : Nat) :
    Regular (regions.set slot MmapRegion.empty) := by
  refine regular.narrow List.length_set fun {other region} found used => ?_
  rw [List.getElem?_set] at found
  split_ifs at found
  · exact absurd (by rw [← Option.some.inj found]; rfl) used
  · exact ⟨region, found, rfl, rfl⟩

/-! ### The search for a gap -/

theorem pageAlign_aligned (size : Nat) : pageAlign size % 4096 = 0 := Nat.mul_mod_left _ _

theorem reservationSize_spec (size : Nat) :
    0 < reservationSize size ∧ reservationSize size % 4096 = 0 := by
  unfold reservationSize
  split_ifs with zero
  · exact ⟨by omega, by omega⟩
  · exact ⟨Nat.pos_of_ne_zero zero, pageAlign_aligned size⟩

/-- A range that fits is apart from every placed region. -/
theorem apart_of_fitsAt {regions : List MmapRegion} {cursor size : Nat}
    (placed : Placed cursor size) (fits : fitsAt regions cursor size = true)
    {region : MmapRegion} (member : region ∈ regions) (used : region.base ≠ 0)
    (there : Placed region.base region.size) : Apart ⟨cursor, size⟩ region.span := by
  have checked := List.all_eq_true.mp fits region member
  have high := placed.high
  have long := placed.size_le
  have highThere := there.high
  have longThere := there.size_le
  simp only [mmapEnd, mmapBase] at high long highThere longThere
  unfold add32 at checked
  rw [Nat.mod_eq_of_lt (by omega), Nat.mod_eq_of_lt (by omega)] at checked
  simp only [used, decide_false, Bool.false_or, Bool.not_eq_true', Bool.and_eq_false_iff,
    decide_eq_false_iff_not, not_lt] at checked
  unfold Apart MmapRegion.span
  rcases checked with after | before
  · exact Or.inr after
  · exact Or.inl before

/-- The next cursor of the search: past the range just tried and a guard page. -/
theorem nextCursor_spec {cursor size : Nat} (aligned : cursor % 4096 = 0)
    (high : cursor < mmapEnd) (sizeAligned : size % 4096 = 0) (long : size ≤ mmapEnd - mmapBase) :
    add32 (pageAlign (add32 cursor size)) 4096 = cursor + size + 4096 := by
  simp only [mmapEnd, mmapBase] at high long
  unfold pageAlign add32
  omega

/-- What the search returns is placed and fits. -/
theorem mmapCursor_spec {regions : List MmapRegion} {size steps cursor base : Nat}
    (placed : Placed cursor size) (found : mmapCursor regions size steps cursor = some base) :
    Placed base size ∧ fitsAt regions base size = true := by
  induction steps generalizing cursor with
  | zero => exact absurd found (by simp [mmapCursor])
  | succ steps inductionHypothesis =>
    unfold mmapCursor at found
    dsimp only at found
    rw [nextCursor_spec placed.base_aligned placed.high placed.size_aligned placed.size_le] at found
    split_ifs at found with fits past
    · rw [← Option.some.inj found]
      exact ⟨placed, fits⟩
    · have low := placed.low
      have aligned := placed.base_aligned
      have sizeAligned := placed.size_aligned
      exact inductionHypothesis
        { placed with
          low := by omega
          high := by omega
          base_aligned := by omega } found

/-- What `mmap_region_alloc` returns: a free slot, and a base whose range is placed and apart
from every region in use. -/
theorem mmapRegionAlloc_spec {regions : List MmapRegion} {size slot base : Nat}
    (regular : Regular regions) (positive : 0 < size) (aligned : size % 4096 = 0)
    (long : size ≤ mmapEnd - mmapBase) (found : mmapRegionAlloc regions size = some (slot, base)) :
    (∃ old, regions[slot]? = some old ∧ old.base = 0) ∧ Placed base size ∧
      ∀ region ∈ regions, region.base ≠ 0 → Apart ⟨base, size⟩ region.span := by
  unfold mmapRegionAlloc at found
  obtain ⟨free, first, searched⟩ := Option.bind_eq_some_iff.mp found
  obtain ⟨cursor, reached, same⟩ := Option.map_eq_some_iff.mp searched
  cases same
  have start : Placed mmapBase size :=
    ⟨le_rfl, by decide, by decide, positive, aligned, long⟩
  obtain ⟨placed, fits⟩ := mmapCursor_spec start reached
  obtain ⟨inside, open', _⟩ := List.findIdx?_eq_some_iff_getElem.mp first
  exact ⟨⟨_, List.getElem?_eq_getElem inside, of_decide_eq_true open'⟩, placed,
    fun region member used =>
      apart_of_fitsAt placed fits member used (regular.placed region member used)⟩

/-- A region put into a free slot, at a gap, keeps a table regular. -/
theorem Regular.insert {regions : List MmapRegion} (regular : Regular regions) {slot : Nat}
    {region : MmapRegion} (placed : Placed region.base region.size)
    (clear : ∀ other ∈ regions, other.base ≠ 0 → Apart region.span other.span) :
    Regular (regions.set slot region) where
  length := List.length_set.trans regular.length
  placed other member used := by
    rcases List.mem_or_eq_of_mem_set member with old | rfl
    · exact regular.placed other old used
    · exact placed
  apart := by
    intro first second left right differ foundLeft foundRight usedLeft usedRight
    rw [List.getElem?_set] at foundLeft foundRight
    split_ifs at foundLeft foundRight
    · omega
    · rw [← Option.some.inj foundLeft]
      exact clear right (List.mem_of_getElem? foundRight) usedRight
    · rw [← Option.some.inj foundRight]
      exact (clear left (List.mem_of_getElem? foundLeft) usedLeft).symm
    · exact regular.apart differ foundLeft foundRight usedLeft usedRight

/-! ### The calls that hand out addresses -/

/-- Every task has a regular region table. -/
def RegularTables (kernel : Kernel) : Prop := ∀ tid, Regular (kernel.tasks tid).mmapRegions

theorem RegularTables.setTask {kernel : Kernel} (tables : RegularTables kernel) {tid : Nat}
    {change : Task → Task} (regular : Regular (change (kernel.tasks tid)).mmapRegions) :
    RegularTables (kernel.setTask tid change) :=
  @forall_setTask (fun task => Regular task.mmapRegions) _ tables _ _ regular

/-- What a reservation claims: a free slot and a gap for the size. -/
theorem mmapClaim_spec {kernel : Kernel} (tables : RegularTables kernel) {cid tid slot base : Nat}
    (size : Nat) (claimed : mmapClaim kernel cid tid (reservationSize size) = some (slot, base)) :
    (∃ old, (kernel.tasks tid).mmapRegions[slot]? = some old ∧ old.base = 0) ∧
      Placed base (reservationSize size) ∧
      taskRlimitAsAllows kernel cid (reservationSize size) = true ∧
      ∀ region ∈ (kernel.tasks tid).mmapRegions, region.base ≠ 0 →
        Apart ⟨base, reservationSize size⟩ region.span := by
  unfold mmapClaim at claimed
  split_ifs at claimed with refused
  obtain ⟨short, allowed⟩ := not_or.mp refused
  obtain ⟨positive, aligned⟩ := reservationSize_spec size
  obtain ⟨free, placed, clear⟩ := mmapRegionAlloc_spec (tables tid) positive aligned
    (Nat.le_of_not_lt short) claimed
  exact ⟨free, placed, eq_true_of_ne_false allowed, clear⟩

/-- A region put where a claim says keeps every table regular. -/
theorem RegularTables.claim {kernel : Kernel} (tables : RegularTables kernel)
    {cid tid slot base size : Nat}
    (claimed : mmapClaim kernel cid tid (reservationSize size) = some (slot, base))
    {region : MmapRegion} (based : region.base = base) (sized : region.size = reservationSize size) :
    RegularTables (setRegion kernel tid slot region) := by
  obtain ⟨_, placed, _, clear⟩ := mmapClaim_spec tables size claimed
  refine tables.setTask ((tables tid).insert (by rw [based, sized]; exact placed) ?_)
  unfold MmapRegion.span at clear ⊢
  rw [based, sized]
  exact clear

theorem RegularTables.mmap {kernel : Kernel} (tables : RegularTables kernel) (cid size : Nat) :
    RegularTables (taskMmapReserve kernel cid size).1 := by
  unfold taskMmapReserve
  split
  · exact tables
  · split_ifs
    · exact tables
    · split
      · exact tables
      · rename_i claimed
        exact tables.claim claimed rfl rfl

theorem RegularTables.mmapFile {kernel : Kernel} (tables : RegularTables kernel) (cid : Nat)
    (args : MmapFileArgs) : RegularTables (taskMmapFile kernel cid args).1 := by
  unfold taskMmapFile
  split
  · split_ifs
    · exact tables
    · split <;> exact tables
    · split
      · exact tables
      · rename_i claimed
        exact tables.claim claimed rfl rfl
  · exact tables

theorem RegularTables.munmap {kernel : Kernel} (tables : RegularTables kernel) (cid addr : Nat) :
    RegularTables (munmapTable kernel cid addr) := by
  unfold munmapTable
  split
  · exact tables
  · split
    · exact tables
    · exact tables.setTask ((tables _).discard _)

theorem RegularTables.malloc {kernel : Kernel} (tables : RegularTables kernel)
    (cid size block : Nat) : RegularTables (sysMalloc kernel cid size block).1 := by
  unfold sysMalloc
  dsimp only
  split_ifs
  · exact tables
  · split
    · exact tables
    · split_ifs
      · exact tables
      · exact tables
      · dsimp only
        exact tables.setTask (by exact tables _)

theorem RegularTables.setrlimit {kernel : Kernel} (tables : RegularTables kernel)
    (cid resource : Nat) (want : Rlimit) :
    RegularTables (taskSetrlimit kernel cid resource want) := by
  unfold taskSetrlimit
  dsimp only
  split_ifs
  · exact tables
  · exact tables.setTask (by exact tables _)

/-! ### The task layer -/

theorem RegularTables.writtenOver {before after : Kernel} (tables : RegularTables before)
    {write : Option (Nat × Task)} (same : viewOf Task.lasting after = writtenOver before write)
    (fresh : ∀ {tid task}, write = some (tid, task) → Regular task.mmapRegions) :
    RegularTables after :=
  @forall_writtenOver (fun task => Regular task.mmapRegions) (fun _ => regular_lasting) _ _ _
    same tables fresh

/-- A record written as a whole has a regular table. -/
theorem regular_written {kernel : Kernel} (tables : RegularTables kernel) {label : Label}
    (plain : label.plain = true) {tid : Nat} {task : Task}
    (write : written kernel label = some (tid, task)) : Regular task.mmapRegions := by
  cases label with
  | createTask cid =>
    obtain ⟨slot, _, same⟩ := Option.map_eq_some_iff.mp write
    cases same
    exact tables _
  | spawn cid args =>
    obtain ⟨slot, _, same⟩ := Option.map_eq_some_iff.mp write
    cases same
    exact (tables _).mmapFreeDirtyBitmaps.clearBases
  | threadCreate cid args =>
    obtain ⟨slot, _, same⟩ := Option.map_eq_some_iff.mp write
    cases same
    exact (tables _).mmapFreeDirtyBitmaps.clearBases
  | fork cid args =>
    obtain ⟨parent, _, forked⟩ := Option.bind_eq_some_iff.mp write
    obtain ⟨slot, _, same⟩ := Option.map_eq_some_iff.mp forked
    cases same
    exact (tables parent).fork args
  | forkExec cid args =>
    obtain ⟨creator, _, forked⟩ := Option.bind_eq_some_iff.mp write
    obtain ⟨slot, _, same⟩ := Option.map_eq_some_iff.mp forked
    cases same
    exact (tables _).mmapFreeDirtyBitmaps.clearBases
  | execRewire cid args =>
    simp only [written] at write
    split at write
    · cases write
      unfold taskExecRewire
      rw [setTask_same]
      exact (tables _).mmapFreeDirtyBitmaps.clearBases
    · exact absurd write (by simp)
  | set cid slot value =>
    rw [(written_set (plain_set plain).1 (plain_set plain).2 write).1]
    exact tables tid
  | _ => exact absurd write (by simp [written])

theorem RegularTables.step {kernel next : Kernel} (tables : RegularTables kernel) {label : Label}
    (plain : label.plain = true)
    (taken : step kernel label = some next) : RegularTables next :=
  tables.writtenOver (lasting_step taken) (regular_written tables plain)

theorem regularTables_initTasking (machine : Machine) : RegularTables (initTasking machine) :=
  @forall_initTasking (fun task => Regular task.mmapRegions) (fun _ => regular_lasting) machine
    regular_empty regular_empty fun _ _ _ regular => regular.clearBases

/-! ### Runs -/

theorem RegularTables.userStep {userland next : Userland}
    (tables : RegularTables userland.kernel) {label : UserLabel}
    (taken : userStep userland label = some next) : RegularTables next.kernel := by
  cases label with
  | task label =>
    simp only [Sched.userStep, Option.ite_none_right_eq_some, Option.map_eq_some_iff] at taken
    obtain ⟨⟨plain, _⟩, kernel, stepped, rfl⟩ := taken
    exact tables.step plain stepped
  | spawn cid args heapStart =>
    simp only [Sched.userStep, Option.ite_none_right_eq_some, Option.map_eq_some_iff] at taken
    obtain ⟨_, kernel, stepped, rfl⟩ := taken
    exact tables.step rfl stepped
  | heapStart cid tid start =>
    simp only [Sched.userStep, Option.ite_none_right_eq_some, Option.some.injEq] at taken
    obtain ⟨_, rfl⟩ := taken
    unfold setAttribute
    split_ifs
    · exact tables
    · dsimp only
      exact tables.setTask (by exact tables _)
  | malloc cid size block =>
    obtain ⟨_, _, rfl⟩ := Option.map_eq_some_iff.mp taken
    exact tables.malloc cid size block
  | mmap cid size =>
    obtain ⟨_, _, rfl⟩ := Option.map_eq_some_iff.mp taken
    exact tables.mmap cid size
  | mmapFile cid args =>
    obtain ⟨_, _, rfl⟩ := Option.map_eq_some_iff.mp taken
    exact tables.mmapFile cid args
  | munmap cid addr =>
    obtain ⟨_, _, rfl⟩ := Option.map_eq_some_iff.mp taken
    exact tables.munmap cid addr
  | setrlimit cid resource want =>
    obtain ⟨_, _, rfl⟩ := Option.map_eq_some_iff.mp taken
    exact tables.setrlimit cid resource want

/-- In every reachable state every region table is regular. -/
theorem regularTables_reachable {guard : Userland → UserLabel → Prop} {userland : Userland}
    (reachable : userSystem.Reachable guard userland) : RegularTables userland.kernel := by
  refine reachable.invariant (fun userland => RegularTables userland.kernel) ?_ ?_
  · rintro _ ⟨machine, rfl⟩
    exact regularTables_initTasking machine
  · intro state label next tables _ taken
    exact tables.userStep taken

end MectovOS.Sched
