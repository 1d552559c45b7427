/-
This file is about RLIMIT_AS. The usage of a task is its heap above 0x08000000
plus the size fields of all its region slots, also of free ones. Exec and thread
creation free slots without clearing their sizes, and SYS_MALLOC asks the limit
about the bytes requested while it commits whole pages. Between steps that meet
neither, the usage is what the task really holds, and a successful allocation
stays within the limit.
-/

import MectovOS.Task.MmapTable

namespace MectovOS.Sched

open Spans (Span Apart)

/-! ### What a task holds -/

/-- The bytes of heap above the heap base. -/
def heapBytes (task : Task) : Nat :=
  if userHeapBase < task.heapPtr then task.heapPtr - userHeapBase else 0

/-- The bytes of the live regions. -/
def liveBytes (regions : List MmapRegion) : Nat :=
  ((regions.filter fun region => region.base ≠ 0).map MmapRegion.size).sum

/-- The soft limit of a task. -/
def softLimit (task : Task) : Nat := (task.rlimits.getD rlimitAs ⟨0, 0⟩).cur

/-! ### Accounted tasks -/

/-- No free slot has a size. -/
def NoStaleSize (regions : List MmapRegion) : Prop :=
  ∀ region ∈ regions, region.base = 0 → region.size = 0

/-- No slot has a size. -/
def SizesClear (regions : List MmapRegion) : Prop := ∀ region ∈ regions, region.size = 0

instance (regions : List MmapRegion) : Decidable (SizesClear regions) :=
  inferInstanceAs (Decidable (∀ region ∈ regions, region.size = 0))

/-- The heap pointer is page-aligned and below the mmap window. -/
structure Accounted (task : Task) : Prop where
  regular : Regular task.mmapRegions
  sizes : NoStaleSize task.mmapRegions
  heap_aligned : task.heapPtr % 4096 = 0
  heap_le : task.heapPtr ≤ 0x1F000000

theorem noStaleSize_map {regions : List MmapRegion} (sizes : NoStaleSize regions)
    {change : MmapRegion → MmapRegion} (base : ∀ region, (change region).base = region.base)
    (size : ∀ region, (change region).size = region.size) : NoStaleSize (regions.map change) := by
  intro region member free
  obtain ⟨old, there, rfl⟩ := List.mem_map.mp member
  rw [size]
  exact sizes old there (by rwa [base] at free)

theorem accounted_lasting (task : Task) : Accounted task.lasting ↔ Accounted task := by
  constructor
  · rintro ⟨regular, sizes, aligned, low⟩
    refine ⟨regular_lasting.mp regular, fun region member free => ?_, aligned, low⟩
    exact sizes { region with dirty := 0 } (List.mem_map_of_mem member) free
  · rintro ⟨regular, sizes, aligned, low⟩
    exact ⟨regular_lasting.mpr regular, noStaleSize_map sizes (fun _ => rfl) (fun _ => rfl), aligned,
      low⟩

theorem SizesClear.cleared {regions : List MmapRegion} (clear : SizesClear regions) :
    NoStaleSize (clearBases (mmapFreeDirtyBitmaps regions)) := by
  intro region member _
  obtain ⟨freed, inner, rfl⟩ := List.mem_map.mp member
  obtain ⟨old, there, rfl⟩ := List.mem_map.mp inner
  exact clear old there

/-- Free slots of a table without stale sizes add nothing. -/
theorem reservedBytes_eq {regions : List MmapRegion} (sizes : NoStaleSize regions) :
    reservedBytes regions = liveBytes regions := by
  induction regions with
  | nil => rfl
  | cons region rest inductionHypothesis =>
    have others := inductionHypothesis fun other member free =>
      sizes other (List.mem_cons_of_mem _ member) free
    unfold reservedBytes liveBytes at others ⊢
    rw [List.map_cons, List.sum_cons, List.filter_cons, others]
    split_ifs with live
    · rw [List.map_cons, List.sum_cons]
    · rw [sizes region List.mem_cons_self (by simpa using live), Nat.zero_add]

/-- The live regions of a regular table are no longer than the addresses they can take. -/
theorem liveBytes_le {regions : List MmapRegion} (regular : Regular regions) :
    liveBytes regions ≤ 0x80000000 := by
  have apart : ((regions.filter fun region => region.base ≠ 0).map MmapRegion.span).Pairwise
      Apart := by
    rw [List.pairwise_map, List.pairwise_filter]
    refine List.pairwise_iff_getElem.mpr fun first second low high before usedLeft usedRight => ?_
    exact regular.apart (Nat.ne_of_lt before) (List.getElem?_eq_getElem low)
      (List.getElem?_eq_getElem high) (by simpa using usedLeft) (by simpa using usedRight)
  have bound := @Spans.sum_length_le _ 0x40000000 0xC0000000 apart ?_
  · rw [List.map_map] at bound
    exact bound
  · intro span member
    obtain ⟨region, live, rfl⟩ := List.mem_map.mp member
    obtain ⟨there, used⟩ := List.mem_filter.mp live
    have placed := regular.placed region there (by simpa using used)
    have low := placed.low
    have high := placed.high
    have long := placed.size_le
    simp only [mmapEnd, mmapBase] at low high long
    unfold MmapRegion.span
    dsimp only
    omega

/-- The usage of an accounted task is what it holds. -/
theorem Accounted.usage {task : Task} (accounted : Accounted task) :
    rlimitAsUsed task = heapBytes task + liveBytes task.mmapRegions := by
  have bound := liveBytes_le accounted.regular
  have low := accounted.heap_le
  unfold rlimitAsUsed
  rw [reservedBytes_eq accounted.sizes]
  unfold heapBytes
  refine Nat.mod_eq_of_lt ?_
  unfold userHeapBase
  split_ifs <;> omega

/-! ### The calls that hand out addresses -/

/-- A limit that admits more bytes, for a task that is not root. -/
theorem allows_le {kernel : Kernel} {cid tid additional : Nat}
    (current : kernel.currentTask cid = some tid) (plain : (kernel.tasks tid).uid ≠ rootUid)
    (allowed : taskRlimitAsAllows kernel cid additional = true) :
    rlimitAsUsed (kernel.tasks tid) + additional ≤ softLimit (kernel.tasks tid) := by
  unfold taskRlimitAsAllows at allowed
  rw [current] at allowed
  simp only [plain, decide_false, Bool.false_or, Bool.and_eq_true, decide_eq_true_eq] at allowed
  exact allowed.2

theorem reservedBytes_set {regions : List MmapRegion} {slot : Nat} {old region : MmapRegion}
    (there : regions[slot]? = some old) (empty : old.size = 0) :
    reservedBytes (regions.set slot region) = reservedBytes regions + region.size := by
  induction regions generalizing slot with
  | nil => exact absurd there (by simp)
  | cons head rest inductionHypothesis =>
    unfold reservedBytes at inductionHypothesis ⊢
    cases slot with
    | zero =>
      rw [List.getElem?_cons_zero, Option.some.injEq] at there
      rw [List.set_cons_zero, List.map_cons, List.sum_cons, List.map_cons, List.sum_cons, there,
        empty]
      omega
    | succ slot =>
      rw [List.getElem?_cons_succ] at there
      rw [List.set_cons_succ, List.map_cons, List.sum_cons, inductionHypothesis there,
        List.map_cons, List.sum_cons, Nat.add_assoc]

/-- Placing a region keeps a task accounted and adds its size to the usage. -/
theorem Accounted.claim {kernel : Kernel} (every : ∀ tid, Accounted (kernel.tasks tid))
    {cid tid slot base size : Nat}
    (claimed : mmapClaim kernel cid tid (reservationSize size) = some (slot, base))
    {region : MmapRegion} (based : region.base = base) (sized : region.size = reservationSize size) :
    (∀ other, Accounted ((setRegion kernel tid slot region).tasks other)) ∧
      rlimitAsUsed ((setRegion kernel tid slot region).tasks tid) ≤
        rlimitAsUsed (kernel.tasks tid) + reservationSize size := by
  have tables : RegularTables kernel := fun other => (every other).regular
  obtain ⟨⟨old, there, free⟩, placed, _, _⟩ := mmapClaim_spec tables size claimed
  have before := every tid
  have empty := before.sizes old (List.mem_of_getElem? there) free
  constructor
  · refine forall_setTask every ⟨?_, fun other member unused => ?_, before.heap_aligned,
      before.heap_le⟩
    · have kept := tables.claim claimed based sized tid
      unfold setRegion at kept
      rwa [setTask_same] at kept
    · rcases List.mem_or_eq_of_mem_set member with kept | rfl
      · exact before.sizes other kept unused
      · have low := placed.low
        rw [based] at unused
        rw [unused] at low
        exact absurd low (by decide)
  · unfold setRegion
    rw [setTask_same]
    unfold rlimitAsUsed
    dsimp only
    rw [reservedBytes_set there empty, sized, ← Nat.add_assoc, Nat.add_mod]
    exact (Nat.mod_le _ _).trans (Nat.add_le_add_left (Nat.mod_le _ _) _)

theorem mallocEnd_spec {start size : Nat} (aligned : start % 4096 = 0)
    (low : start ≤ 0x1F000000) (positive : 0 < size) (short : size ≤ mallocMax) :
    mallocEnd start size = start + pageAlign size ∧ 0 < pageAlign size := by
  unfold mallocEnd pageAlign add32
  unfold mallocMax at short
  constructor
  · split_ifs <;> omega
  · omega

/-- Moving the heap pointer keeps a task accounted and adds the committed pages to the usage. -/
theorem Accounted.heap {task : Task} (accounted : Accounted task) {size : Nat}
    (positive : 0 < size) (short : size ≤ mallocMax)
    (fits : mallocEnd task.heapPtr size ≤ heapLimit) :
    Accounted { task with heapPtr := mallocEnd task.heapPtr size } ∧
      rlimitAsUsed { task with heapPtr := mallocEnd task.heapPtr size } ≤
        rlimitAsUsed task + pageAlign size := by
  obtain ⟨ending, _⟩ := mallocEnd_spec accounted.heap_aligned accounted.heap_le positive short
  have aligned := accounted.heap_aligned
  have wide := pageAlign_aligned size
  have moved : Accounted { task with heapPtr := mallocEnd task.heapPtr size } :=
    ⟨accounted.regular, accounted.sizes, by dsimp only; omega, by
      unfold heapLimit at fits
      dsimp only
      omega⟩
  refine ⟨moved, ?_⟩
  rw [moved.usage, accounted.usage]
  unfold heapBytes
  dsimp only
  rw [ending]
  split_ifs <;> omega

/-! ### Metered steps -/

/-- The slot a step empties without looking at sizes holds no size. -/
def slotMetered (kernel : Kernel) (label : Label) : Bool :=
  match label with
  | .fork _ _ => true
  | .set _ _ _ => true
  | label =>
    match written kernel label with
    | none => true
    | some (tid, _) => decide (SizesClear (kernel.tasks tid).mmapRegions)

/-- The limit admits the request rounded up to pages whenever it admits the request; a kernel
task, which asks no limit, is within its own. -/
def mallocMetered (kernel : Kernel) (cid size : Nat) : Bool :=
  match kernel.currentTask cid with
  | none => true
  | some tid =>
    if (kernel.tasks tid).pageDir = 0 then taskRlimitAsAllows kernel cid 0
    else !taskRlimitAsAllows kernel cid size || taskRlimitAsAllows kernel cid (pageAlign size)

/-- The steps on which the accounting is right: the slot of a created task or of a task that
execs has no sizes left in it, and the limit admits an allocation rounded up to pages. -/
def metered (userland : Userland) : UserLabel → Bool
  | .task label => slotMetered userland.kernel label
  | .spawn cid args _ => slotMetered userland.kernel (.spawn cid args)
  | .malloc cid size _ => mallocMetered userland.kernel cid size
  | _ => true

theorem slotMetered_clear {kernel : Kernel} {label : Label}
    (meets : slotMetered kernel label = true) (fork : ∀ cid args, label ≠ .fork cid args)
    (set : ∀ cid tid value, label ≠ .set cid tid value) {tid : Nat} {task : Task}
    (write : written kernel label = some (tid, task)) :
    SizesClear (kernel.tasks tid).mmapRegions := by
  unfold slotMetered at meets
  split at meets
  · exact absurd rfl (fork _ _)
  · exact absurd rfl (set _ _ _)
  · rw [write] at meets
    exact of_decide_eq_true meets

/-! ### Metered steps keep every task accounted -/

theorem NoStaleSize.fork {regions : List MmapRegion} (sizes : NoStaleSize regions)
    (args : ForkArgs) : NoStaleSize (regions.mapIdx (forkRegion args)) := by
  intro region member free
  obtain ⟨slot, found⟩ := List.getElem?_of_mem member
  rw [List.getElem?_mapIdx, Option.map_eq_some_iff] at found
  obtain ⟨old, there, rfl⟩ := found
  unfold forkRegion at free ⊢
  split_ifs at free ⊢ with used given
  · exact absurd free used.1
  · rfl
  · exact sizes old (List.mem_of_getElem? there) free

theorem userHeapBase_loadable : userHeapBase % 4096 = 0 ∧ userHeapBase ≤ 0x1F000000 := by
  unfold userHeapBase
  omega

/-- A record a metered step writes is accounted. -/
theorem accounted_written {kernel : Kernel} (every : ∀ tid, Accounted (kernel.tasks tid))
    {label : Label} (plain : label.plain = true)
    (loaded : label.loadable = true ∨ ∃ core args, label = .spawn core args)
    (meets : slotMetered kernel label = true) {tid : Nat} {task : Task}
    (write : written kernel label = some (tid, task)) : Accounted task := by
  have regular := regular_written (fun other => (every other).regular) plain write
  cases label with
  | createTask cid =>
    obtain ⟨slot, _, same⟩ := Option.map_eq_some_iff.mp write
    cases same
    exact ⟨regular, (every _).sizes, (every _).heap_aligned, (every _).heap_le⟩
  | spawn cid args =>
    have clear := slotMetered_clear meets (by simp) (by simp) write
    obtain ⟨slot, _, same⟩ := Option.map_eq_some_iff.mp write
    cases same
    exact ⟨regular, clear.cleared, userHeapBase_loadable.1, userHeapBase_loadable.2⟩
  | threadCreate cid args =>
    have clear := slotMetered_clear meets (by simp) (by simp) write
    obtain ⟨slot, _, same⟩ := Option.map_eq_some_iff.mp write
    cases same
    exact ⟨regular, clear.cleared, userHeapBase_loadable.1, userHeapBase_loadable.2⟩
  | fork cid args =>
    obtain ⟨parent, _, forked⟩ := Option.bind_eq_some_iff.mp write
    obtain ⟨slot, _, same⟩ := Option.map_eq_some_iff.mp forked
    cases same
    exact ⟨regular, (every parent).sizes.fork args, (every parent).heap_aligned,
      (every parent).heap_le⟩
  | forkExec cid args =>
    have clear := slotMetered_clear meets (by simp) (by simp) write
    have start : loadable args.heapStart = true := by
      rcases loaded with loaded | ⟨_, _, same⟩
      · exact loaded
      · cases same
    obtain ⟨creator, _, forked⟩ := Option.bind_eq_some_iff.mp write
    obtain ⟨slot, _, same⟩ := Option.map_eq_some_iff.mp forked
    cases same
    exact ⟨regular, clear.cleared, (loadable_spec start).1, (loadable_spec start).2⟩
  | execRewire cid args =>
    have clear := slotMetered_clear meets (by simp) (by simp) write
    have start : loadable args.heapStart = true := by
      rcases loaded with loaded | ⟨_, _, same⟩
      · exact loaded
      · cases same
    simp only [written] at write
    split at write
    · cases write
      unfold taskExecRewire at regular ⊢
      rw [setTask_same] at regular ⊢
      exact ⟨regular, clear.cleared, (loadable_spec start).1, (loadable_spec start).2⟩
    · exact absurd write (by simp)
  | set cid slot value =>
    obtain ⟨regions, heap⟩ := written_set (plain_set plain).1 (plain_set plain).2 write
    refine ⟨regular, ?_, ?_, ?_⟩
    · rw [regions]
      exact (every tid).sizes
    · rw [heap]
      exact (every tid).heap_aligned
    · rw [heap]
      exact (every tid).heap_le
  | _ => exact absurd write (by simp [written])

/-- Every task is accounted, and the loaders will set heap pointers that keep this. -/
structure Ledger (userland : Userland) : Prop where
  every : ∀ tid, Accounted (userland.kernel.tasks tid)
  loads : ∀ pair ∈ userland.loads, loadable pair.2 = true

theorem Ledger.step {kernel next : Kernel} (every : ∀ tid, Accounted (kernel.tasks tid))
    {label : Label} (plain : label.plain = true)
    (loaded : label.loadable = true ∨ ∃ core args, label = .spawn core args)
    (meets : slotMetered kernel label = true) (taken : step kernel label = some next) :
    ∀ tid, Accounted (next.tasks tid) :=
  forall_writtenOver accounted_lasting (lasting_step taken) every
    (accounted_written every plain loaded meets)

theorem Ledger.mmap {kernel : Kernel} (every : ∀ tid, Accounted (kernel.tasks tid))
    (cid size : Nat) : ∀ tid, Accounted ((taskMmapReserve kernel cid size).1.tasks tid) := by
  unfold taskMmapReserve
  split
  · exact every
  · split_ifs
    · exact every
    · split
      · exact every
      · rename_i claimed
        exact (Accounted.claim every claimed rfl rfl).1

theorem Ledger.mmapFile {kernel : Kernel} (every : ∀ tid, Accounted (kernel.tasks tid))
    (cid : Nat) (args : MmapFileArgs) :
    ∀ tid, Accounted ((taskMmapFile kernel cid args).1.tasks tid) := by
  unfold taskMmapFile
  split
  · split_ifs
    · exact every
    · split <;> exact every
    · split
      · exact every
      · rename_i claimed
        exact (Accounted.claim every claimed rfl rfl).1
  · exact every

theorem Ledger.munmap {kernel : Kernel} (every : ∀ tid, Accounted (kernel.tasks tid))
    (cid addr : Nat) : ∀ tid, Accounted ((munmapTable kernel cid addr).tasks tid) := by
  unfold munmapTable
  split
  · exact every
  · rename_i tid _
    split
    · exact every
    · refine forall_setTask every ⟨(every tid).regular.discard _, fun region member free => ?_,
        (every tid).heap_aligned, (every tid).heap_le⟩
      rcases List.mem_or_eq_of_mem_set member with kept | rfl
      · exact (every tid).sizes region kept free
      · rfl

/-- SYS_MALLOC keeps every task accounted; a success adds the committed pages to the usage. -/
theorem Ledger.malloc {kernel : Kernel} (every : ∀ tid, Accounted (kernel.tasks tid))
    (cid size block : Nat) : ∀ tid, Accounted ((sysMalloc kernel cid size block).1.tasks tid) := by
  unfold sysMalloc
  dsimp only
  split_ifs with refused
  · exact every
  · split
    · exact every
    · rename_i tid _
      split_ifs with _ denied
      · exact every
      · exact every
      · obtain ⟨positive, short⟩ := not_or.mp refused
        dsimp only
        refine forall_setTask every ?_
        exact ((every tid).heap (Nat.pos_of_ne_zero positive) (Nat.le_of_not_lt short)
          (Nat.le_of_not_lt (not_or.mp (not_or.mp denied).2).1)).1

theorem Ledger.userStep {userland next : Userland} (ledger : Ledger userland)
    {label : UserLabel} (meets : metered userland label = true)
    (taken : userStep userland label = some next) : Ledger next := by
  cases label with
  | task label =>
    simp only [Sched.userStep, Option.ite_none_right_eq_some, Option.map_eq_some_iff] at taken
    obtain ⟨⟨plain, loaded⟩, kernel, stepped, rfl⟩ := taken
    exact ⟨Ledger.step ledger.every plain (Or.inl loaded) meets stepped, ledger.loads⟩
  | spawn cid args heapStart =>
    simp only [Sched.userStep, Option.ite_none_right_eq_some, Option.map_eq_some_iff] at taken
    obtain ⟨loaded, kernel, stepped, rfl⟩ := taken
    refine ⟨Ledger.step ledger.every rfl (Or.inr ⟨cid, args, rfl⟩) meets stepped,
      fun pair member => ?_⟩
    rcases List.mem_append.mp member with new | old
    · obtain ⟨tid, _, rfl⟩ := Option.map_eq_some_iff.mp (Option.mem_toList.mp new)
      exact loaded
    · exact ledger.loads pair old
  | heapStart cid tid start =>
    simp only [Sched.userStep, Option.ite_none_right_eq_some, Option.some.injEq] at taken
    obtain ⟨⟨_, pending⟩, rfl⟩ := taken
    have start := loadable_spec (ledger.loads _ pending)
    refine ⟨?_, fun pair member => ledger.loads pair (List.mem_of_mem_erase member)⟩
    unfold setAttribute
    split_ifs
    · exact ledger.every
    · dsimp only
      exact forall_setTask ledger.every ⟨(ledger.every tid).regular, (ledger.every tid).sizes,
        start.1, start.2⟩
  | malloc cid size block =>
    obtain ⟨_, _, rfl⟩ := Option.map_eq_some_iff.mp taken
    exact ⟨Ledger.malloc ledger.every cid size block, ledger.loads⟩
  | mmap cid size =>
    obtain ⟨_, _, rfl⟩ := Option.map_eq_some_iff.mp taken
    exact ⟨Ledger.mmap ledger.every cid size, ledger.loads⟩
  | mmapFile cid args =>
    obtain ⟨_, _, rfl⟩ := Option.map_eq_some_iff.mp taken
    exact ⟨Ledger.mmapFile ledger.every cid args, ledger.loads⟩
  | munmap cid addr =>
    obtain ⟨_, _, rfl⟩ := Option.map_eq_some_iff.mp taken
    exact ⟨Ledger.munmap ledger.every cid addr, ledger.loads⟩
  | setrlimit cid resource want =>
    obtain ⟨_, _, rfl⟩ := Option.map_eq_some_iff.mp taken
    refine ⟨?_, ledger.loads⟩
    unfold taskSetrlimit
    dsimp only
    split_ifs
    · exact ledger.every
    · exact forall_setTask ledger.every ⟨(ledger.every _).regular, (ledger.every _).sizes,
        (ledger.every _).heap_aligned, (ledger.every _).heap_le⟩

theorem ledger_boot (machine : Machine) : Ledger ⟨initTasking machine, []⟩ := by
  refine ⟨fun tid => ?_, fun pair member => absurd member List.not_mem_nil⟩
  have holds : SizesClear ((initTasking machine).tasks tid).mmapRegions ∧
      ((initTasking machine).tasks tid).heapPtr = userHeapBase := by
    have empty : SizesClear (List.replicate mmapMaxRegions MmapRegion.empty) :=
      fun region member => by rw [List.eq_of_mem_replicate member]; rfl
    refine @forall_initTasking
      (fun task => SizesClear task.mmapRegions ∧ task.heapPtr = userHeapBase) (fun task => ?_)
      machine ⟨empty, rfl⟩ ⟨empty, rfl⟩ (fun _ _ task holds => ⟨?_, holds.2⟩) tid
    · refine and_congr_left' ⟨fun clear region member => ?_, fun clear region member => ?_⟩
      · exact clear { region with dirty := 0 } (List.mem_map_of_mem member)
      · obtain ⟨old, there, rfl⟩ := List.mem_map.mp member
        exact clear old there
    · intro region member
      obtain ⟨old, there, rfl⟩ := List.mem_map.mp member
      exact holds.1 old there
  exact ⟨regularTables_initTasking machine tid, fun region member _ => holds.1 region member,
    by rw [holds.2]; exact userHeapBase_loadable.1, by rw [holds.2]; exact userHeapBase_loadable.2⟩

/-! ### Metered runs -/

theorem ledger_reachable {userland : Userland}
    (reachable : userSystem.Reachable (fun userland label => metered userland label) userland) :
    Ledger userland := by
  refine reachable.invariant Ledger ?_ ?_
  · rintro _ ⟨machine, rfl⟩
    exact ledger_boot machine
  · intro userland label next ledger meets taken
    exact ledger.userStep meets taken

/-- The usage of every task is its heap and its live regions. -/
def UsageExact (kernel : Kernel) : Prop :=
  ∀ tid, rlimitAsUsed (kernel.tasks tid) =
    heapBytes (kernel.tasks tid) + liveBytes (kernel.tasks tid).mmapRegions

/-- A successful call of a task that is not root leaves it within its soft limit. -/
def WithinLimit (kernel : Kernel) (cid : Nat) (result : Kernel × Nat) : Prop :=
  result.2 ≠ 0 → ∀ tid, kernel.currentTask cid = some tid → (kernel.tasks tid).uid ≠ rootUid →
    rlimitAsUsed (result.1.tasks tid) ≤ softLimit (result.1.tasks tid)

theorem withinLimit_claim {kernel : Kernel} (every : ∀ tid, Accounted (kernel.tasks tid))
    {cid tid slot base size : Nat} (current : kernel.currentTask cid = some tid)
    (claimed : mmapClaim kernel cid tid (reservationSize size) = some (slot, base))
    {region : MmapRegion} (based : region.base = base) (sized : region.size = reservationSize size)
    (plain : (kernel.tasks tid).uid ≠ rootUid) :
    rlimitAsUsed ((setRegion kernel tid slot region).tasks tid) ≤
      softLimit ((setRegion kernel tid slot region).tasks tid) := by
  have allowed : taskRlimitAsAllows kernel cid (reservationSize size) = true := by
    unfold mmapClaim at claimed
    obtain ⟨fits, _⟩ := Option.ite_none_left_eq_some.mp claimed
    exact Bool.eq_true_of_not_eq_false (not_or.mp fits).2
  have limit : softLimit ((setRegion kernel tid slot region).tasks tid) =
      softLimit (kernel.tasks tid) := by
    unfold setRegion
    rw [setTask_same]
    rfl
  rw [limit]
  exact (Accounted.claim every claimed based sized).2.trans (allows_le current plain allowed)

theorem withinLimit_mmap {kernel : Kernel} (every : ∀ tid, Accounted (kernel.tasks tid))
    (cid size : Nat) : WithinLimit kernel cid (taskMmapReserve kernel cid size) := by
  intro success tid current plain
  unfold taskMmapReserve at success ⊢
  rw [current] at success ⊢
  dsimp only at success ⊢
  split at success
  · exact absurd rfl success
  · rename_i positive
    rw [if_neg positive]
    split at success
    · exact absurd rfl success
    · rename_i slot base claimed
      exact withinLimit_claim every current claimed rfl rfl plain

theorem withinLimit_mmapFile {kernel : Kernel} (every : ∀ tid, Accounted (kernel.tasks tid))
    (cid : Nat) (args : MmapFileArgs) : WithinLimit kernel cid (taskMmapFile kernel cid args) := by
  intro success tid current plain
  unfold taskMmapFile at success ⊢
  rw [current] at success ⊢
  split at success
  · rename_i user node fileSize same source
    cases same
    split at success
    · exact absurd rfl success
    · rename_i shared
      rw [if_neg shared]
      split at success
      · exact absurd rfl success
      · rename_i slot base claimed
        split at success
        · exact absurd rfl success
        · rename_i bitmap
          rw [if_neg bitmap]
          exact withinLimit_claim every current claimed rfl rfl plain
  · exact absurd rfl success

theorem withinLimit_malloc {kernel : Kernel} (every : ∀ tid, Accounted (kernel.tasks tid))
    {cid size : Nat} (block : Nat) (meets : mallocMetered kernel cid size = true) :
    WithinLimit kernel cid (sysMalloc kernel cid size block) := by
  intro success tid current plain
  unfold sysMalloc at success ⊢
  unfold mallocMetered at meets
  rw [current] at success meets ⊢
  dsimp only at success meets ⊢
  split at success
  · exact absurd rfl success
  · rename_i refused
    rw [if_neg refused]
    split at success
    · rename_i kernelTask
      rw [if_pos kernelTask] at meets ⊢
      exact allows_le current plain meets
    · rename_i userTask
      rw [if_neg userTask] at meets ⊢
      split at success
      · exact absurd rfl success
      · rename_i denied
        obtain ⟨positive, short⟩ := not_or.mp refused
        obtain ⟨fits, allowed⟩ := not_or.mp (not_or.mp denied).2
        rw [if_neg denied]
        have rounded : taskRlimitAsAllows kernel cid (pageAlign size) = true := by
          rw [Bool.eq_true_of_not_eq_false allowed] at meets
          exact meets
        have grown := ((every tid).heap (Nat.pos_of_ne_zero positive) (Nat.le_of_not_lt short)
          (Nat.le_of_not_lt fits)).2
        dsimp only
        rw [setTask_same]
        exact grown.trans (allows_le current plain rounded)

/-- On metered runs the usage of a task is always what it holds, and a metered allocation that
succeeds leaves a task that is not root within its soft limit. -/
theorem rlimit_as_metered {userland : Userland}
    (reachable : userSystem.Reachable (fun userland label => metered userland label) userland) :
    UsageExact userland.kernel ∧
      (∀ cid size block, metered userland (.malloc cid size block) = true →
        WithinLimit userland.kernel cid (sysMalloc userland.kernel cid size block)) ∧
      (∀ cid size, WithinLimit userland.kernel cid (taskMmapReserve userland.kernel cid size)) ∧
      ∀ cid args, WithinLimit userland.kernel cid (taskMmapFile userland.kernel cid args) := by
  have every := (ledger_reachable reachable).every
  refine ⟨fun tid => (every tid).usage, fun cid size block meets => ?_, ?_, ?_⟩
  · exact withinLimit_malloc every block meets
  · exact withinLimit_mmap every
  · exact withinLimit_mmapFile every

/-! ### A metered run, and one that is not -/

/-- A program that allocates from both windows, unmaps its region and execs another image. -/
def meteredHistory : List UserLabel :=
  startProgram 0x300000 0x08001000 ++
    [.malloc 0 4096 0, .mmap 0 8192, .munmap 0 0x40000000, .task (.execSwitch 0 0x500000),
      .task (.execRewire 0 ⟨0x08002000, [], false⟩)]

def meteredUserland : Userland :=
  (Transition.executeGuarded metered userStep ⟨initTasking oneCore, []⟩ meteredHistory).getD
    ⟨initTasking oneCore, []⟩

theorem meteredUserland_reachable :
    userSystem.Reachable (fun userland label => metered userland label) meteredUserland := by
  have completes : (Transition.executeGuarded metered userStep ⟨initTasking oneCore, []⟩
      meteredHistory).isSome = true := by decide +kernel
  obtain ⟨final, run⟩ := Option.isSome_iff_exists.mp completes
  unfold meteredUserland
  rw [run]
  exact Transition.reachable_executeGuarded (.init ⟨oneCore, rfl⟩) run

theorem rlimit_as_metered_exec :
    UsageExact meteredUserland.kernel ∧
      (∀ cid size block, metered meteredUserland (.malloc cid size block) = true →
        WithinLimit meteredUserland.kernel cid
          (sysMalloc meteredUserland.kernel cid size block)) ∧
      (∀ cid size, WithinLimit meteredUserland.kernel cid
        (taskMmapReserve meteredUserland.kernel cid size)) ∧
      ∀ cid args, WithinLimit meteredUserland.kernel cid
        (taskMmapFile meteredUserland.kernel cid args) :=
  rlimit_as_metered meteredUserland_reachable

/-- After an exec the discarded region still counts. -/
theorem rlimit_as_stale :
    ¬∀ userland : Userland, userSystem.Reachable Transition.anyStep userland →
      UsageExact userland.kernel ∧
        (∀ cid size block,
          WithinLimit userland.kernel cid (sysMalloc userland.kernel cid size block)) ∧
        (∀ cid size, WithinLimit userland.kernel cid (taskMmapReserve userland.kernel cid size)) ∧
        ∀ cid args, WithinLimit userland.kernel cid (taskMmapFile userland.kernel cid args) := by
  intro claimed
  have reachable : userSystem.Reachable Transition.anyStep
      (userRun oneCore (startProgram 0x300000 0x08001000 ++
        [.mmap 0 8192, .task (.execSwitch 0 0x500000),
          .task (.execRewire 0 ⟨0x08001000, [], false⟩)])) := userRun_reachable (by decide +kernel)
  have exact := (claimed _ reachable).1 1
  exact absurd exact (by decide +kernel)

end MectovOS.Sched
