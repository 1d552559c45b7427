/-
This file is about the marks of shared file mappings: every page of a file
mapping that its task may write to is marked. The mark is set when the page
becomes writable, and a flush that writes pages back takes PAGE_RW off again.
Faults keep the rule, and so does a flush that meets no mark past the end of
its file.
-/

import MectovOS.Task.DirtyPages

namespace MectovOS.Sched

open MectovOS.Vmm Function
open Spans (Span Apart)

/-! ### The invariant -/

/-- A slot of a task holds a file mapping. -/
structure FileSlot (kernel : Kernel) (tid slot : Nat) (region : MmapRegion) : Prop where
  tid_lt : tid < maxTasks
  listed : (kernel.tasks tid).mmapRegions[slot]? = some region
  file : region.isFile = true

theorem isFile_iff {region : MmapRegion} :
    region.isFile = true ↔ region.base ≠ 0 ∧ region.mapFlags = mmapFileShared := by
  unfold MmapRegion.isFile
  rw [Bool.and_eq_true, decide_eq_true_eq, decide_eq_true_eq]

/-- A page of a file mapping is shared with the file, and marked when it is writable. -/
structure TrackedPage (memory : Memory) (pageDir : Nat) (region : MmapRegion) (vaddr : Nat) :
    Prop where
  private_copy : ((memory.spaces pageDir).entry vaddr).cow = false
  shared : ((memory.spaces pageDir).entry vaddr).shared = true
  marked : ((memory.spaces pageDir).entry vaddr).rw = true →
    memory.dirty region.dirty ((vaddr - region.base) / pageSize) = true

/-- The address lies in a live region of a task of its own space. -/
def Covered (kernel : Kernel) (tid vaddr : Nat) : Prop :=
  taskInKernelSpace kernel tid = false ∧
    ∃ region ∈ (kernel.tasks tid).mmapRegions, region.base ≠ 0 ∧ InRegion region vaddr

/-- What holds of the tasks: region tables are in order, and tasks that are not in the kernel's
space have a space of their own. -/
structure OwnSpaces (kernel : Kernel) : Prop where
  tables : RegularTables kernel
  sizes : ∀ tid, NoStaleSize (kernel.tasks tid).mmapRegions
  alone : ∀ tid other, tid ≠ other → other < maxTasks → taskInKernelSpace kernel tid = false →
    (kernel.tasks other).pageDir ≠ (kernel.tasks tid).pageDir
  seated : ∀ cid tid, kernel.currentTask cid = some tid → tid < maxTasks
  bitmaps : ∀ {tid other slot place : Nat} {region second : MmapRegion},
    FileSlot kernel tid slot region → FileSlot kernel other place second →
    region.dirty = second.dirty → tid = other ∧ slot = place

/-- Every user page of the window belongs to a region, and the pages of file mappings are
tracked. -/
structure Tracked (kernel : Kernel) (memory : Memory) : Prop extends OwnSpaces kernel where
  covered : ∀ tid < maxTasks, ∀ vaddr, mmapBase ≤ vaddr →
    userMapped (memory.spaces (kernel.tasks tid).pageDir) vaddr = true → Covered kernel tid vaddr
  pages : ∀ {tid slot : Nat} {region : MmapRegion}, FileSlot kernel tid slot region →
    ∀ vaddr, InRegion region vaddr →
    userMapped (memory.spaces (kernel.tasks tid).pageDir) vaddr = true →
    TrackedPage memory (kernel.tasks tid).pageDir region vaddr

/-! ### Regions -/

theorem RegularTables.placedSlot {kernel : Kernel} (tables : RegularTables kernel)
    {tid slot : Nat} {region : MmapRegion} (slotted : FileSlot kernel tid slot region) :
    Placed region.base region.size :=
  (tables tid).placed region (List.mem_of_getElem? slotted.listed) (isFile_iff.mp slotted.file).1

/-- Two live regions of a table that share an address are one. -/
theorem Regular.unique {regions : List MmapRegion} (regular : Regular regions)
    {first second : Nat} {left right : MmapRegion} (foundLeft : regions[first]? = some left)
    (foundRight : regions[second]? = some right) (usedLeft : left.base ≠ 0)
    (usedRight : right.base ≠ 0) {vaddr : Nat} (inLeft : InRegion left vaddr)
    (inRight : InRegion right vaddr) : first = second := by
  by_contra differ
  have clear := regular.apart differ foundLeft foundRight usedLeft usedRight
  unfold Apart MmapRegion.span at clear
  unfold InRegion at inLeft inRight
  dsimp only at clear
  omega

/-- A page lies in a region as a whole. -/
theorem inRegion_samePage {region : MmapRegion} (placed : Placed region.base region.size)
    {first second : Nat} (same : SamePage first second) (inside : InRegion region first) :
    InRegion region second ∧
      (first - region.base) / pageSize = (second - region.base) / pageSize := by
  have aligned := placed.base_aligned
  have whole := placed.size_aligned
  unfold InRegion at inside ⊢
  unfold SamePage pageSize at same
  unfold pageSize
  omega

/-- The region a fault address lies in. -/
theorem faultRegion_spec {kernel : Kernel} (tables : RegularTables kernel) {tid addr : Nat}
    {region : MmapRegion}
    (found : faultRegion (kernel.tasks tid).mmapRegions addr = some region) :
    ∃ slot : Nat, (kernel.tasks tid).mmapRegions[slot]? = some region ∧ region.base ≠ 0 ∧
      Placed region.base region.size ∧ InRegion region addr := by
  have accepted := List.find?_some found
  have member := List.mem_of_find?_eq_some found
  simp only [Bool.and_eq_true, decide_eq_true_eq] at accepted
  obtain ⟨⟨used, low⟩, high⟩ := accepted
  have placed := (tables tid).placed region member used
  have below := placed.high
  have long := placed.size_le
  obtain ⟨slot, listed⟩ := List.getElem?_of_mem member
  refine ⟨slot, listed, used, placed, low, ?_⟩
  simp only [mmapEnd, mmapBase] at below long
  unfold add32 at high
  omega

/-! ### Changes of memory -/

/-- A step that changes memory only: what is mapped was mapped or lies in a region. -/
theorem Tracked.remember {kernel : Kernel} {before after : Memory}
    (tracked : Tracked kernel before)
    (covered : ∀ tid < maxTasks, ∀ vaddr, mmapBase ≤ vaddr →
      userMapped (after.spaces (kernel.tasks tid).pageDir) vaddr = true →
      userMapped (before.spaces (kernel.tasks tid).pageDir) vaddr = true ∨
        Covered kernel tid vaddr)
    (pages : ∀ {tid slot : Nat} {region : MmapRegion}, FileSlot kernel tid slot region →
      ∀ vaddr, InRegion region vaddr →
      userMapped (after.spaces (kernel.tasks tid).pageDir) vaddr = true →
      (userMapped (before.spaces (kernel.tasks tid).pageDir) vaddr = true →
        TrackedPage before (kernel.tasks tid).pageDir region vaddr) →
      TrackedPage after (kernel.tasks tid).pageDir region vaddr) : Tracked kernel after where
  toOwnSpaces := tracked.toOwnSpaces
  covered tid tid_lt vaddr low mapped := by
    rcases covered tid tid_lt vaddr low mapped with old | new
    · exact tracked.covered tid tid_lt vaddr low old
    · exact new
  pages slotted vaddr inside mapped :=
    pages slotted vaddr inside mapped fun old => tracked.pages slotted vaddr inside old

/-- Spaces and marks as they were. -/
theorem Tracked.same {kernel : Kernel} {before after : Memory} (tracked : Tracked kernel before)
    (spaces : after.spaces = before.spaces) (dirty : after.dirty = before.dirty) :
    Tracked kernel after := by
  refine tracked.remember (fun tid _ vaddr _ mapped => Or.inl ?_)
    fun slotted vaddr _ mapped old => ?_
  · rwa [spaces] at mapped
  · rw [spaces] at mapped
    obtain ⟨private_copy, shared, marked⟩ := old mapped
    refine ⟨?_, ?_, ?_⟩ <;> rw [spaces]
    · exact private_copy
    · exact shared
    · rw [dirty]
      exact marked

/-! ### A flush -/

/-- A pass over page numbers leaves none of their pages writable. -/
theorem lowered_foldl_makeRo {pageDir : Nat} {region : MmapRegion} (used : pageDir ≠ 0)
    {pages : List Nat} {page vaddr : Nat} (member : page ∈ pages)
    (same : SamePage vaddr (region.base + page * 4096)) (space : AddressSpace)
    (present : (space.entry vaddr).present = true) :
    ((pages.foldl (mmapPageMakeRo pageDir region) space).entry vaddr).rw = false := by
  induction pages generalizing space with
  | nil => exact absurd member List.not_mem_nil
  | cons first rest inductionHypothesis =>
    rw [List.foldl_cons]
    rcases List.mem_cons.mp member with rfl | later
    · have lowered : ((mmapPageMakeRo pageDir region space page).entry vaddr).rw = false := by
        unfold mmapPageMakeRo
        rw [if_neg used, entry_protect,
          if_pos ⟨same, by rw [← entry_samePage space same]; exact present⟩]
      rcases @entry_foldl_makeRo pageDir region rest (mmapPageMakeRo pageDir region space page)
        vaddr with kept | ⟨_, _, again⟩
      · rw [kept]
        exact lowered
      · rw [again]
    · refine inductionHypothesis later _ ?_
      rcases @entry_mmapPageMakeRo pageDir region space first vaddr with kept | ⟨_, _, lowered⟩
      · rw [kept]
        exact present
      · rw [lowered]
        exact present

/-- What a flush does to marks: none appear, only those of its region go away, and when they do
the marked pages below the end of the file are no longer writable. -/
structure FlushedMarks (pageDir : Nat) (region : MmapRegion) (before after : Memory) : Prop where
  others : ∀ address, address ≠ region.dirty → after.dirty address = before.dirty address
  fewer : ∀ address page, after.dirty address page = true → before.dirty address page = true
  sizes : ∀ node, nodeSize after node = nodeSize before node
  dropped : after.dirty = before.dirty ∨ ∀ page ∈ region.pages,
    before.dirty region.dirty page = true → page * 4096 < nodeSize before region.vfsNode →
    pageDir ≠ 0 → ∀ vaddr, SamePage vaddr (region.base + page * 4096) →
    ((before.spaces pageDir).entry vaddr).present = true →
    ((after.spaces pageDir).entry vaddr).rw = false

theorem clearDirty_dirty (memory : Memory) (region : MmapRegion) :
    (∀ address, address ≠ region.dirty →
      (clearDirty memory region).dirty address = memory.dirty address) ∧
    ∀ address page, (clearDirty memory region).dirty address page = true →
      memory.dirty address page = true := by
  unfold clearDirty
  refine ⟨fun address apart => update_of_ne apart _ _, fun address page set => ?_⟩
  dsimp only at set
  by_cases same : address = region.dirty
  · rw [same, update_self] at set
    rw [same]
    split_ifs at set
    exact set
  · rwa [update_of_ne same] at set

theorem nodeSize_setData (memory : Memory) (place : Nat) (data : Nat → UInt8) (node : Int) :
    nodeSize (memory.setData place data) node = nodeSize memory node := by
  have kept : ((memory.setData place data).nodes node.toNat).inUse =
        (memory.nodes node.toNat).inUse ∧
      ((memory.setData place data).nodes node.toNat).size = (memory.nodes node.toNat).size := by
    unfold Memory.setData
    dsimp only
    by_cases same : node.toNat = place
    · rw [same, update_self]
      exact ⟨rfl, rfl⟩
    · rw [update_of_ne same]
      exact ⟨rfl, rfl⟩
  unfold nodeSize
  simp only [kept.1, kept.2]

theorem flushedMarks_mmapFlushFile (memory : Memory) (pageDir : Nat) (region : MmapRegion)
    (io : FlushIo) :
    FlushedMarks pageDir region memory (mmapFlushFile memory pageDir region io).1 := by
  have refl : FlushedMarks pageDir region memory memory :=
    ⟨fun _ _ => rfl, fun _ _ set => set, fun _ => rfl, Or.inl rfl⟩
  unfold mmapFlushFile
  dsimp only
  split
  · exact refl
  · split
    · rename_i empty
      obtain ⟨others, fewer⟩ := clearDirty_dirty memory region
      refine ⟨others, fewer, fun _ => rfl, Or.inr fun page _ _ below => ?_⟩
      rw [empty] at below
      exact absurd below (Nat.not_lt_zero _)
    · split
      · exact refl
      · split
        · exact refl
        · split
          · exact ⟨fun _ _ => rfl, fun _ _ set => set, nodeSize_setData _ _ _, Or.inl rfl⟩
          · refine ⟨fun address apart => ?_, fun address page set => ?_, fun node => ?_,
              Or.inr fun page member marked below used vaddr same present => ?_⟩
            · rw [(clearDirty_dirty _ region).1 address apart]
              rfl
            · exact (clearDirty_dirty _ region).2 address page set
            · exact nodeSize_setData _ _ _ node
            · simp only [clearDirty, Memory.setSpace, update_self]
              refine lowered_foldl_makeRo used ?_ same _ present
              refine List.mem_filter.mpr ⟨member, ?_⟩
              rw [marked, Bool.true_and, decide_eq_true_eq]
              exact below

theorem user_present {space : AddressSpace} {vaddr : Nat}
    (mapped : userMapped space vaddr = true) : (space.entry vaddr).present = true := by
  rw [userMapped_eq] at mapped
  exact (Bool.and_eq_true_iff.mp mapped).1

theorem Flushed.userMapped {pageDir : Nat} {region : MmapRegion} {before after : Memory}
    (flushed : Flushed pageDir region before after) (other vaddr : Nat) :
    userMapped (after.spaces other) vaddr = userMapped (before.spaces other) vaddr := by
  by_cases same : other = pageDir
  · rw [same, userMapped_eq, userMapped_eq]
    rcases flushed.entries vaddr with kept | ⟨_, _, lowered⟩
    · rw [kept]
    · rw [lowered]
  · rw [flushed.spaces other same]

/-- A flush that meets no mark past the end of the file keeps the pages tracked. -/
theorem Tracked.flush {kernel : Kernel} {memory : Memory} (tracked : Tracked kernel memory)
    {tid slot : Nat} {region : MmapRegion} (slotted : FileSlot kernel tid slot region)
    (meets : keepsMarks memory region = true) (io : FlushIo) :
    Tracked kernel (mmapFlushFile memory (kernel.tasks tid).pageDir region io).1 := by
  have placed := tracked.tables.placedSlot slotted
  have flushed := flushed_mmapFlushFile placed memory (kernel.tasks tid).pageDir io
  have marks := flushedMarks_mmapFlushFile memory (kernel.tasks tid).pageDir region io
  refine tracked.remember (fun other _ vaddr _ mapped => Or.inl ?_) ?_
  · rwa [flushed.userMapped] at mapped
  · intro other place second otherSlot vaddr inside mapped old
    rw [flushed.userMapped] at mapped
    obtain ⟨private_copy, shared, marked⟩ := old mapped
    have entry : ((mmapFlushFile memory (kernel.tasks tid).pageDir region io).1.spaces
          (kernel.tasks other).pageDir).entry vaddr =
          (memory.spaces (kernel.tasks other).pageDir).entry vaddr ∨
        ((mmapFlushFile memory (kernel.tasks tid).pageDir region io).1.spaces
          (kernel.tasks other).pageDir).entry vaddr =
          { (memory.spaces (kernel.tasks other).pageDir).entry vaddr with rw := false } := by
      by_cases same : (kernel.tasks other).pageDir = (kernel.tasks tid).pageDir
      · rw [same]
        exact (flushed.entries vaddr).imp_right fun lowered => lowered.2.2
      · rw [flushed.spaces _ same]
        exact Or.inl rfl
    refine ⟨?_, ?_, fun writable => ?_⟩
    · rcases entry with kept | lowered
      · rw [kept]
        exact private_copy
      · rw [lowered]
        exact private_copy
    · rcases entry with kept | lowered
      · rw [kept]
        exact shared
      · rw [lowered]
        exact shared
    · have before : memory.dirty second.dirty ((vaddr - second.base) / pageSize) = true := by
        rcases entry with kept | lowered
        · rw [kept] at writable
          exact marked writable
        · rw [lowered] at writable
          exact absurd writable Bool.false_ne_true
      by_cases apart : second.dirty = region.dirty
      · obtain ⟨rfl, rfl⟩ := tracked.bitmaps otherSlot slotted apart
        have one : second = region :=
          Option.some.inj (otherSlot.listed.symm.trans slotted.listed)
        subst one
        rcases marks.dropped with kept | lowered
        · rw [kept]
          exact before
        · have member : (vaddr - second.base) / pageSize ∈ second.pages := by
            unfold InRegion at inside
            have whole := placed.size_aligned
            unfold MmapRegion.pages pageSize
            rw [List.mem_range]
            omega
          have below := List.all_eq_true.mp meets _ member
          rw [before, Bool.not_true, Bool.false_or, decide_eq_true_eq] at below
          have used : (kernel.tasks other).pageDir ≠ 0 := by
            intro none'
            have own := (tracked.covered other otherSlot.tid_lt vaddr
              (placed.low.trans inside.1) mapped).1
            unfold taskInKernelSpace at own
            rw [if_neg (Nat.not_le_of_lt otherSlot.tid_lt), none'] at own
            exact absurd own (by simp)
          have page : SamePage vaddr
              (second.base + (vaddr - second.base) / pageSize * 4096) := by
            have aligned := placed.base_aligned
            unfold InRegion at inside
            unfold SamePage pageSize
            omega
          have protected' := lowered _ member before below used vaddr page (user_present mapped)
          exact absurd (protected'.symm.trans writable) Bool.false_ne_true
      · rw [marks.others _ apart]
        exact before

theorem keepsMarks_mmapFlushFile {memory : Memory} {other : MmapRegion}
    (meets : keepsMarks memory other = true) (pageDir : Nat) (region : MmapRegion) (io : FlushIo) :
    keepsMarks (mmapFlushFile memory pageDir region io).1 other = true := by
  have marks := flushedMarks_mmapFlushFile memory pageDir region io
  refine List.all_eq_true.mpr fun page member => ?_
  have before := List.all_eq_true.mp meets page member
  rw [marks.sizes]
  cases set : (mmapFlushFile memory pageDir region io).1.dirty other.dirty page with
  | false => rfl
  | true => rwa [marks.fewer _ _ set] at before

/-! ### sync -/

/-- What a sync flushes are file mappings. -/
theorem mem_syncTargets {kernel : Kernel} {cid : Nat} {node : Option Int}
    {target : Nat × MmapRegion} (member : target ∈ syncTargets kernel cid node) :
    ∃ tid slot, FileSlot kernel tid slot target.2 ∧ target.1 = (kernel.tasks tid).pageDir := by
  obtain ⟨tid, inside, listed⟩ := List.mem_flatMap.mp member
  obtain ⟨region, chosen, rfl⟩ := List.mem_map.mp listed
  unfold syncRegions at chosen
  dsimp only at chosen
  split_ifs at chosen
  · exact absurd chosen List.not_mem_nil
  · obtain ⟨there, passes⟩ := List.mem_filter.mp chosen
    obtain ⟨slot, found⟩ := List.getElem?_of_mem there
    rw [Bool.and_assoc, Bool.and_eq_true] at passes
    exact ⟨tid, slot, ⟨List.mem_range.mp inside, found, passes.1⟩, rfl⟩

theorem Tracked.flushAll {kernel : Kernel} {memory : Memory} (tracked : Tracked kernel memory)
    (io : Nat → MmapRegion → FlushIo) {targets : List (Nat × MmapRegion)}
    (files : ∀ target ∈ targets, ∃ tid slot, FileSlot kernel tid slot target.2 ∧
      target.1 = (kernel.tasks tid).pageDir)
    (meets : ∀ target ∈ targets, keepsMarks memory target.2 = true) :
    Tracked kernel (targets.foldl (fun memory target =>
      (mmapFlushFile memory target.1 target.2 (io target.1 target.2)).1) memory) := by
  induction targets generalizing memory with
  | nil => exact tracked
  | cons target rest inductionHypothesis =>
    rw [List.foldl_cons]
    obtain ⟨tid, slot, slotted, same⟩ := files target List.mem_cons_self
    have flushed := tracked.flush slotted (meets target List.mem_cons_self)
      (io target.1 target.2)
    rw [← same] at flushed
    refine inductionHypothesis flushed (fun other member => files other (List.mem_cons_of_mem _ member))
      fun other member => ?_
    exact keepsMarks_mmapFlushFile (meets other (List.mem_cons_of_mem _ member)) _ _ _

/-! ### Faults -/

/-- A step at one page of a task: its entry may change and marks may be set. -/
theorem Tracked.onePage {kernel : Kernel} {before after : Memory} (tracked : Tracked kernel before)
    {tid addr : Nat} (own : taskInKernelSpace kernel tid = false)
    (spaces : ∀ other, other ≠ (kernel.tasks tid).pageDir →
      after.spaces other = before.spaces other)
    (entries : ∀ vaddr, ¬SamePage vaddr addr →
      (after.spaces (kernel.tasks tid).pageDir).entry vaddr =
        (before.spaces (kernel.tasks tid).pageDir).entry vaddr)
    (grown : ∀ address page, before.dirty address page = true → after.dirty address page = true)
    (covered : userMapped (after.spaces (kernel.tasks tid).pageDir) addr = true →
      userMapped (before.spaces (kernel.tasks tid).pageDir) addr = true ∨ Covered kernel tid addr)
    (page : ∀ {slot : Nat} {region : MmapRegion}, FileSlot kernel tid slot region →
      InRegion region addr → userMapped (after.spaces (kernel.tasks tid).pageDir) addr = true →
      (userMapped (before.spaces (kernel.tasks tid).pageDir) addr = true →
        TrackedPage before (kernel.tasks tid).pageDir region addr) →
      TrackedPage after (kernel.tasks tid).pageDir region addr) : Tracked kernel after := by
  have elsewhere : ∀ other < maxTasks, ∀ vaddr, ¬(other = tid ∧ SamePage vaddr addr) →
      (after.spaces (kernel.tasks other).pageDir).entry vaddr =
        (before.spaces (kernel.tasks other).pageDir).entry vaddr := by
    intro other other_lt vaddr apart
    by_cases same : other = tid
    · rw [same]
      exact entries vaddr fun there => apart ⟨same, there⟩
    · rw [spaces _ (tracked.alone tid other (Ne.symm same) other_lt own)]
  refine tracked.remember (fun other other_lt vaddr low mapped => ?_) ?_
  · by_cases here : other = tid ∧ SamePage vaddr addr
    · obtain ⟨rfl, same⟩ := here
      rw [userMapped_samePage _ same] at mapped ⊢
      rcases covered mapped with old | ⟨_, region, member, used, inside⟩
      · exact Or.inl old
      · exact Or.inr ⟨own, region, member, used,
          (inRegion_samePage ((tracked.tables other).placed region member used) same.symm inside).1⟩
    · rw [userMapped_eq, elsewhere other other_lt vaddr here, ← userMapped_eq] at mapped
      exact Or.inl mapped
  · intro other slot region slotted vaddr inside mapped old
    by_cases here : other = tid ∧ SamePage vaddr addr
    · obtain ⟨rfl, same⟩ := here
      obtain ⟨there, offset⟩ := inRegion_samePage (tracked.tables.placedSlot slotted) same inside
      rw [userMapped_samePage _ same] at mapped old
      have moved : ∀ memory : Memory,
          TrackedPage memory (kernel.tasks other).pageDir region vaddr ↔
            TrackedPage memory (kernel.tasks other).pageDir region addr := by
        intro memory
        constructor
        · rintro ⟨private_copy, shared, marked⟩
          rw [entry_samePage _ same] at private_copy shared marked
          exact ⟨private_copy, shared, by rw [← offset]; exact marked⟩
        · rintro ⟨private_copy, shared, marked⟩
          rw [← entry_samePage _ same] at private_copy shared marked
          exact ⟨private_copy, shared, by rw [offset]; exact marked⟩
      exact (moved after).mpr (page slotted there mapped fun there => (moved before).mp (old there))
    · have same := elsewhere other slotted.tid_lt vaddr here
      rw [userMapped_eq, same, ← userMapped_eq] at mapped
      obtain ⟨private_copy, shared, marked⟩ := old mapped
      refine ⟨?_, ?_, fun writable => grown _ _ (marked ?_)⟩
      · rw [same]
        exact private_copy
      · rw [same]
        exact shared
      · rwa [same] at writable

theorem markDirty_grown (memory : Memory) (region : MmapRegion) (page : Nat) :
    (∀ address other, memory.dirty address other = true →
      (markDirty memory region page).dirty address other = true) ∧
    (markDirty memory region page).dirty region.dirty page = true := by
  unfold markDirty
  refine ⟨fun address other set => ?_, ?_⟩
  · dsimp only
    by_cases same : address = region.dirty
    · rw [same, update_self]
      rw [same] at set
      by_cases here : other = page
      · rw [here, update_self]
      · rwa [update_of_ne here]
    · rwa [update_of_ne same]
  · dsimp only
    rw [update_self, update_self]

/-- Copy-on-write never meets a page of a file mapping. -/
theorem Tracked.cowFault {kernel : Kernel} {memory : Memory} (tracked : Tracked kernel memory)
    {tid addr : Nat} (own : taskInKernelSpace kernel tid = false)
    (cow : ((memory.spaces (kernel.tasks tid).pageDir).entry addr).cow = true)
    (newFrame : Option Nat) :
    Tracked kernel (Sched.cowFault memory (kernel.tasks tid).pageDir addr newFrame).1 := by
  have step : ∀ (after : Memory) (change : Pte → Pte)
      (narrow : ∀ pte, (change pte).user = true → pte.user = true),
      (∀ pte, (change pte).present = pte.present ∧ (change pte).user = pte.user) →
      after.spaces = update memory.spaces (kernel.tasks tid).pageDir
        ((memory.spaces (kernel.tasks tid).pageDir).modify addr change narrow) →
      after.dirty = memory.dirty → Tracked kernel after := by
    intro after change narrow flags spaces dirty
    have kept : userMapped (after.spaces (kernel.tasks tid).pageDir) addr = true →
        userMapped (memory.spaces (kernel.tasks tid).pageDir) addr = true := by
      intro mapped
      rw [spaces, update_self, userMapped_eq, entry_modify] at mapped
      split_ifs at mapped
      · rwa [(flags _).1, (flags _).2, ← userMapped_eq] at mapped
      · rwa [← userMapped_eq] at mapped
    refine tracked.onePage own (fun other apart => ?_) (fun vaddr apart => ?_)
      (fun address page set => by rwa [dirty]) (fun mapped => Or.inl (kept mapped)) ?_
    · rw [spaces, update_of_ne apart]
    · rw [spaces, update_self, entry_modify, if_neg fun both => apart both.1]
    · intro slot region _ _ mapped old
      exact absurd ((old (kept mapped)).private_copy.symm.trans cow) Bool.false_ne_true
  unfold Sched.cowFault
  dsimp only
  split_ifs
  · exact step _ (fun pte => { pte with cow := false, rw := true }) (fun _ user => user)
      (fun _ => ⟨rfl, rfl⟩) rfl rfl
  · cases newFrame with
    | none => exact tracked
    | some frame =>
      exact step _ (fun pte => { pte with cow := false, rw := true, frame := frame })
        (fun _ user => user) (fun _ => ⟨rfl, rfl⟩) rfl rfl

/-- The file mapping at a fault address is the region the fault finds. -/
theorem faultRegion_unique {kernel : Kernel} (tables : RegularTables kernel) {tid addr : Nat}
    {region : MmapRegion} (found : faultRegion (kernel.tasks tid).mmapRegions addr = some region)
    {place : Nat} {other : MmapRegion} (slotted : FileSlot kernel tid place other)
    (there : InRegion other addr) : other = region ∧ region.mapFlags = mmapFileShared := by
  obtain ⟨slot, listed, used, _, inside⟩ := faultRegion_spec tables found
  obtain ⟨live, shared⟩ := isFile_iff.mp slotted.file
  have same := (tables tid).unique slotted.listed listed live used there inside
  have one := Option.some.inj ((same ▸ slotted.listed).symm.trans listed)
  exact ⟨one, one ▸ shared⟩

/-- Mapping the page of a fault: in a file mapping a writable page is marked. -/
theorem Tracked.mapPage {kernel : Kernel} {memory after : Memory} (tracked : Tracked kernel memory)
    {tid addr : Nat} (own : taskInKernelSpace kernel tid = false) {region : MmapRegion}
    (found : faultRegion (kernel.tasks tid).mmapRegions addr = some region) {tables : TableFrames}
    {pte : Pte}
    (spaces : after.spaces = update memory.spaces (kernel.tasks tid).pageDir
      (vmmMapPage (memory.spaces (kernel.tasks tid).pageDir) tables
        (addr / pageSize * pageSize) pte).1)
    (grown : ∀ address page, memory.dirty address page = true → after.dirty address page = true)
    (filed : region.mapFlags = mmapFileShared → pte.cow = false ∧ pte.shared = true ∧
      (pte.rw = true → after.dirty region.dirty ((addr - region.base) / pageSize) = true)) :
    Tracked kernel after := by
  obtain ⟨slot, listed, used, placed, inside⟩ := faultRegion_spec tracked.tables found
  have page : SamePage addr (addr / pageSize * pageSize) := samePage_base addr
  cases mapped : (vmmMapPage (memory.spaces (kernel.tasks tid).pageDir) tables
      (addr / pageSize * pageSize) pte).2 with
  | false =>
    have entries : ∀ vaddr, (after.spaces (kernel.tasks tid).pageDir).entry vaddr =
        (memory.spaces (kernel.tasks tid).pageDir).entry vaddr := by
      intro vaddr
      rw [spaces, update_self, entry_vmmMapPage_failed mapped]
    refine @Tracked.onePage _ _ _ tracked tid addr own (fun other apart => ?_)
      (fun vaddr _ => entries vaddr) grown (fun there => Or.inl ?_) ?_
    · rw [spaces, update_of_ne apart]
    · rwa [userMapped_eq, entries, ← userMapped_eq] at there
    · intro place other slotted _ there old
      rw [userMapped_eq, entries, ← userMapped_eq] at there
      obtain ⟨private_copy, shared, marked⟩ := old there
      refine ⟨?_, ?_, fun writable => grown _ _ (marked ?_)⟩
      · rwa [entries]
      · rwa [entries]
      · rwa [entries] at writable
  | true =>
    have entries : ∀ vaddr, (after.spaces (kernel.tasks tid).pageDir).entry vaddr =
        if SamePage vaddr addr then pte
        else (memory.spaces (kernel.tasks tid).pageDir).entry vaddr := by
      intro vaddr
      rw [spaces, update_self, entry_vmmMapPage mapped]
      exact if_congr ⟨fun same => same.trans page.symm, fun same => same.trans page⟩ rfl rfl
    refine @Tracked.onePage _ _ _ tracked tid addr own (fun other apart => ?_)
      (fun vaddr apart => ?_) grown
      (fun _ => Or.inr ⟨own, region, List.mem_of_getElem? listed, used, inside⟩) ?_
    · rw [spaces, update_of_ne apart]
    · rw [entries, if_neg apart]
    · intro place other slotted there _ _
      obtain ⟨rfl, file⟩ := faultRegion_unique tracked.tables found slotted there
      obtain ⟨private_copy, shared, marked⟩ := filed file
      have shown := entries addr
      rw [if_pos (show SamePage addr addr from rfl)] at shown
      exact ⟨by rw [shown]; exact private_copy, by rw [shown]; exact shared,
        by rw [shown]; exact marked⟩

/-- Making the page of a fault writable: in a file mapping it is marked. -/
theorem Tracked.makeWritable {kernel : Kernel} {memory after : Memory}
    (tracked : Tracked kernel memory) {tid addr : Nat}
    (own : taskInKernelSpace kernel tid = false) {region : MmapRegion}
    (found : faultRegion (kernel.tasks tid).mmapRegions addr = some region)
    (present : ((memory.spaces (kernel.tasks tid).pageDir).entry addr).present = true)
    (spaces : after.spaces = update memory.spaces (kernel.tasks tid).pageDir
      (Sched.makeWritable (memory.spaces (kernel.tasks tid).pageDir)
        (addr / pageSize * pageSize)))
    (grown : ∀ address page, memory.dirty address page = true → after.dirty address page = true)
    (filed : region.mapFlags = mmapFileShared →
      after.dirty region.dirty ((addr - region.base) / pageSize) = true) :
    Tracked kernel after := by
  have page : SamePage addr (addr / pageSize * pageSize) := samePage_base addr
  have entries : ∀ vaddr, (after.spaces (kernel.tasks tid).pageDir).entry vaddr =
      if SamePage vaddr addr then
        { (memory.spaces (kernel.tasks tid).pageDir).entry addr with rw := true }
      else (memory.spaces (kernel.tasks tid).pageDir).entry vaddr := by
    intro vaddr
    rw [spaces, update_self]
    unfold Sched.makeWritable
    rw [entry_modify, ← entry_samePage _ page]
    exact if_congr ⟨fun both => both.1.trans page.symm, fun same => ⟨same.trans page, present⟩⟩
      rfl rfl
  have kept : userMapped (after.spaces (kernel.tasks tid).pageDir) addr = true →
      userMapped (memory.spaces (kernel.tasks tid).pageDir) addr = true := by
    intro mapped
    rwa [userMapped_eq, entries, if_pos (show SamePage addr addr from rfl),
      ← userMapped_eq] at mapped
  refine tracked.onePage own (fun other apart => ?_) (fun vaddr apart => ?_) grown
    (fun mapped => Or.inl (kept mapped)) ?_
  · rw [spaces, update_of_ne apart]
  · rw [entries, if_neg apart]
  · intro place other slotted there mapped old
    obtain ⟨rfl, file⟩ := faultRegion_unique tracked.tables found slotted there
    obtain ⟨private_copy, shared, _⟩ := old (kept mapped)
    have shown := entries addr
    rw [if_pos (show SamePage addr addr from rfl)] at shown
    exact ⟨by rw [shown]; exact private_copy, by rw [shown]; exact shared, fun _ => filed file⟩

/-- A fault inside a region: what it makes writable it marks. -/
theorem Tracked.handleFault {kernel : Kernel} {memory : Memory} (tracked : Tracked kernel memory)
    {cid tid addr : Nat} (current : kernel.currentTask cid = some tid)
    (own : taskInKernelSpace kernel tid = false) (write nx : Bool) (io : FaultIo) :
    Tracked kernel (taskMmapHandleFault kernel memory cid addr (kernel.tasks tid).pageDir write nx
      io).1 := by
  unfold taskMmapHandleFault
  rw [current]
  dsimp only
  cases found : faultRegion (kernel.tasks tid).mmapRegions addr with
  | none => exact tracked
  | some region =>
    obtain ⟨slot, _, _, placed, inside⟩ := faultRegion_spec tracked.tables found
    have page : SamePage addr (addr / pageSize * pageSize) := samePage_base addr
    have offset : (addr / pageSize * pageSize - region.base) / pageSize =
        (addr - region.base) / pageSize := (inRegion_samePage placed page inside).2.symm
    dsimp only
    rw [← entry_samePage (memory.spaces (kernel.tasks tid).pageDir) page, offset]
    split
    · rename_i present
      split
      · refine tracked.makeWritable own found present ?_ (fun address other set => ?_)
          fun file => ?_
        · split_ifs <;> rfl
        · split_ifs
          · exact (markDirty_grown memory region _).1 _ _ set
          · exact set
        · rw [if_pos file]
          exact (markDirty_grown memory region _).2
      · exact tracked
    · cases io.frame with
      | none => exact tracked
      | some frame =>
        dsimp only
        split
        · split
          · exact tracked.same rfl rfl
          · refine @Tracked.mapPage _ _ _ tracked _ _ own _ found io.tables
              ⟨true, write, true, false, true, false, nx, frame⟩ ?_
              (fun address other set => ?_) fun _ => ⟨rfl, rfl, fun written => ?_⟩
            · split_ifs <;> rfl
            · split_ifs
              · exact (markDirty_grown (fillFrame memory frame _) _ _).1 _ _ set
              · exact set
            · dsimp only at written
              rw [if_pos written]
              exact (markDirty_grown (fillFrame memory frame _) _ _).2
        · rename_i anonymous
          exact @Tracked.mapPage _ _ _ tracked _ _ own _ found io.tables _ rfl
            (fun _ _ set => set) fun file => absurd file anonymous

theorem Tracked.pageFault {kernel : Kernel} {memory : Memory} (tracked : Tracked kernel memory)
    {cid tid addr : Nat} (current : kernel.currentTask cid = some tid)
    (own : taskInKernelSpace kernel tid = false) (write nx : Bool) (io : FaultIo) :
    Tracked kernel (Sched.pageFault kernel memory cid addr (kernel.tasks tid).pageDir write nx
      io) := by
  unfold Sched.pageFault
  dsimp only
  have resolved : Tracked kernel (if ((memory.spaces (kernel.tasks tid).pageDir).entry addr).present &&
      ((memory.spaces (kernel.tasks tid).pageDir).entry addr).cow then
      Sched.cowFault memory (kernel.tasks tid).pageDir addr io.frame else (memory, false)).1 := by
    split
    · rename_i cow
      exact tracked.cowFault own (Bool.and_eq_true_iff.mp cow).2 io.frame
    · exact tracked
  generalize (if ((memory.spaces (kernel.tasks tid).pageDir).entry addr).present &&
      ((memory.spaces (kernel.tasks tid).pageDir).entry addr).cow then
      Sched.cowFault memory (kernel.tasks tid).pageDir addr io.frame else (memory, false)) = copied
    at resolved ⊢
  split_ifs
  · exact resolved
  · exact tracked.handleFault current own write nx io

end MectovOS.Sched
