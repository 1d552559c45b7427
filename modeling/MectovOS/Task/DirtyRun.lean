/-
This file says when dirty tracking of shared file mappings works. A flush of an
empty file, and of the pages past the end of a file, drops marks and leaves the
pages writable: when the file grows, stores to them are no longer noticed. A
fork that has no memory for the bitmap of a mapping drops the region of the
child and may leave its pages. In runs without either, every writable page of a
file mapping is marked.
-/

import MectovOS.Task.DirtyMarks
import MectovOS.Task.Fixed
import MectovOS.Vmm.CloneExact

namespace MectovOS.Sched

open MectovOS.Vmm Function
open Spans (Span Apart)

/-! ### Changes of one region slot -/

theorem setRegion_same (kernel : Kernel) (tid slot : Nat) (region : MmapRegion) :
    ((setRegion kernel tid slot region).tasks tid).mmapRegions =
      (kernel.tasks tid).mmapRegions.set slot region := by
  unfold setRegion
  rw [setTask_same]

theorem setRegion_pageDir (kernel : Kernel) (tid slot : Nat) (region : MmapRegion) (other : Nat) :
    ((setRegion kernel tid slot region).tasks other).pageDir = (kernel.tasks other).pageDir := by
  unfold setRegion
  by_cases same : other = tid
  · rw [same, setTask_same]
  · rw [setTask_other _ _ same]

theorem setRegion_kernelSpace (kernel : Kernel) (tid slot : Nat) (region : MmapRegion)
    (other : Nat) :
    taskInKernelSpace (setRegion kernel tid slot region) other = taskInKernelSpace kernel other := by
  unfold taskInKernelSpace
  rw [setRegion_pageDir, setRegion_pageDir]

/-- A slot of the table after one slot was written is that slot, or an old one. -/
theorem setRegion_slot {kernel : Kernel} {tid slot other place : Nat} {region second : MmapRegion}
    (listed : ((setRegion kernel tid slot region).tasks other).mmapRegions[place]? = some second) :
    (other = tid ∧ place = slot ∧ second = region) ∨
      (kernel.tasks other).mmapRegions[place]? = some second ∧ ¬(other = tid ∧ place = slot) := by
  by_cases same : other = tid
  · subst same
    rw [setRegion_same, List.getElem?_set] at listed
    split_ifs at listed with here
    · exact Or.inl ⟨rfl, here.symm, (Option.some.inj listed).symm⟩
    · exact Or.inr ⟨listed, fun both => here both.2.symm⟩
  · unfold setRegion at listed
    rw [setTask_other _ _ same] at listed
    exact Or.inr ⟨listed, fun both => same both.1⟩

/-- An old slot other than the one that was written is still there. -/
theorem setRegion_kept {kernel : Kernel} {tid slot other place : Nat} {region second : MmapRegion}
    (listed : (kernel.tasks other).mmapRegions[place]? = some second)
    (apart : ¬(other = tid ∧ place = slot)) :
    ((setRegion kernel tid slot region).tasks other).mmapRegions[place]? = some second := by
  by_cases same : other = tid
  · subst same
    rw [setRegion_same, List.getElem?_set_ne fun here => apart ⟨rfl, here.symm⟩]
    exact listed
  · unfold setRegion
    rw [setTask_other _ _ same]
    exact listed

/-- Writing a slot keeps pages tracked when no page of its old region stays mapped, no page of
its new region is mapped, and the bitmap of the new region is not in use. -/
theorem Tracked.setRegion {kernel : Kernel} {before after : Memory}
    (tracked : Tracked kernel before) {tid slot : Nat} {old new : MmapRegion}
    (tables : RegularTables (Sched.setRegion kernel tid slot new))
    (sized : new.base = 0 → new.size = 0)
    (listed : (kernel.tasks tid).mmapRegions[slot]? = some old)
    (kept : ∀ other < maxTasks, ∀ vaddr,
      userMapped (after.spaces (kernel.tasks other).pageDir) vaddr = true →
      (after.spaces (kernel.tasks other).pageDir).entry vaddr =
        (before.spaces (kernel.tasks other).pageDir).entry vaddr)
    (cleared : ∀ vaddr, userMapped (after.spaces (kernel.tasks tid).pageDir) vaddr = true →
      ¬(old.base ≠ 0 ∧ InRegion old vaddr))
    (unmapped : ∀ vaddr, InRegion new vaddr → new.isFile = true →
      userMapped (before.spaces (kernel.tasks tid).pageDir) vaddr = false)
    (fresh : ∀ {other place : Nat} {second : MmapRegion}, new.isFile = true →
      FileSlot kernel other place second → second.dirty ≠ new.dirty)
    (dirty : ∀ {other place : Nat} {second : MmapRegion}, FileSlot kernel other place second →
      ¬(other = tid ∧ place = slot) →
      after.dirty second.dirty = before.dirty second.dirty) :
    Tracked (Sched.setRegion kernel tid slot new) after where
  tables := tables
  sizes other region member free := by
    obtain ⟨place, found⟩ := List.getElem?_of_mem member
    rcases setRegion_slot found with ⟨_, _, rfl⟩ | ⟨there, _⟩
    · exact sized free
    · exact tracked.sizes other region (List.mem_of_getElem? there) free
  alone first second differ second_lt own := by
    rw [setRegion_kernelSpace] at own
    rw [setRegion_pageDir, setRegion_pageDir]
    exact tracked.alone first second differ second_lt own
  seated := tracked.seated
  bitmaps := by
    intro first second place where' region other left right same
    rcases setRegion_slot left.listed with ⟨rfl, rfl, rfl⟩ | ⟨thereLeft, apartLeft⟩
    · rcases setRegion_slot right.listed with ⟨rfl, rfl, rfl⟩ | ⟨thereRight, _⟩
      · exact ⟨rfl, rfl⟩
      · exact absurd same.symm (fresh left.file ⟨right.tid_lt, thereRight, right.file⟩)
    · rcases setRegion_slot right.listed with ⟨rfl, rfl, rfl⟩ | ⟨thereRight, _⟩
      · exact absurd same (fresh right.file ⟨left.tid_lt, thereLeft, left.file⟩)
      · exact tracked.bitmaps ⟨left.tid_lt, thereLeft, left.file⟩
          ⟨right.tid_lt, thereRight, right.file⟩ same
  covered other other_lt vaddr low mapped := by
    rw [setRegion_pageDir] at mapped
    have before' := mapped
    rw [userMapped_eq, kept other other_lt vaddr mapped, ← userMapped_eq] at before'
    obtain ⟨own, region, member, used, inside⟩ := tracked.covered other other_lt vaddr low before'
    obtain ⟨place, found⟩ := List.getElem?_of_mem member
    refine ⟨by rw [setRegion_kernelSpace]; exact own, region, ?_, used, inside⟩
    refine List.mem_of_getElem? (setRegion_kept found ?_)
    rintro ⟨rfl, rfl⟩
    rw [listed, Option.some.injEq] at found
    subst found
    exact cleared vaddr mapped ⟨used, inside⟩
  pages := by
    intro other place region slotted vaddr inside mapped
    rw [setRegion_pageDir] at mapped ⊢
    have same := kept other slotted.tid_lt vaddr mapped
    have before' := mapped
    rw [userMapped_eq, same, ← userMapped_eq] at before'
    rcases setRegion_slot slotted.listed with ⟨rfl, rfl, rfl⟩ | ⟨there, apart⟩
    · exact absurd ((unmapped vaddr inside slotted.file).symm.trans before') Bool.false_ne_true
    · have oldSlot : FileSlot kernel other place region := ⟨slotted.tid_lt, there, slotted.file⟩
      obtain ⟨private_copy, shared, marked⟩ := tracked.pages oldSlot vaddr inside before'
      refine ⟨by rw [same]; exact private_copy, by rw [same]; exact shared, fun writable => ?_⟩
      rw [same] at writable
      rw [dirty oldSlot apart]
      exact marked writable

/-! ### mmap and munmap -/

/-- No page of a gap is mapped. -/
theorem Tracked.gapUnmapped {kernel : Kernel} {memory : Memory} (tracked : Tracked kernel memory)
    {cid tid slot base size : Nat} (current : kernel.currentTask cid = some tid)
    (claimed : mmapClaim kernel cid tid (reservationSize size) = some (slot, base))
    {region : MmapRegion} (based : region.base = base) (sized : region.size = reservationSize size)
    {vaddr : Nat} (inside : InRegion region vaddr) :
    userMapped (memory.spaces (kernel.tasks tid).pageDir) vaddr = false := by
  obtain ⟨_, placed, _, clear⟩ := mmapClaim_spec tracked.tables size claimed
  refine Bool.eq_false_of_not_eq_true fun mapped => ?_
  have low : mmapBase ≤ vaddr := placed.low.trans (based ▸ inside.1)
  obtain ⟨_, other, member, used, there⟩ :=
    tracked.covered tid (tracked.seated cid tid current) vaddr low mapped
  have apart := clear other member used
  unfold Apart MmapRegion.span at apart
  unfold InRegion at inside there
  rw [based, sized] at inside
  dsimp only at apart
  omega

theorem Tracked.mmap {kernel : Kernel} {memory : Memory} (tracked : Tracked kernel memory)
    (cid size : Nat) : Tracked (taskMmapReserve kernel cid size).1 memory := by
  unfold taskMmapReserve
  split
  · exact tracked
  · rename_i tid current
    split_ifs
    · exact tracked
    · split
      · exact tracked
      · rename_i slot base claimed
        obtain ⟨⟨old, listed, free⟩, placed, _, _⟩ := mmapClaim_spec tracked.tables size claimed
        refine tracked.setRegion (tracked.tables.claim claimed rfl rfl) (fun none' => ?_) listed
          (fun _ _ _ _ => rfl) (fun _ _ both => both.1 free)
          (fun vaddr inside _ => tracked.gapUnmapped current claimed rfl rfl inside)
          (fun file _ => absurd (isFile_iff.mp file).2 (by simp [mmapFileShared])) fun _ _ => rfl
        have low := placed.low
        dsimp only at none'
        rw [none'] at low
        exact absurd low (by decide)

/-- `task_mmap_file` returns 0 and changes nothing, or places a region with the new bitmap. -/
theorem taskMmapFile_cases (kernel : Kernel) (cid : Nat) (args : MmapFileArgs) :
    taskMmapFile kernel cid args = (kernel, 0) ∨
      ∃ tid node fileSize slot base, kernel.currentTask cid = some tid ∧
        mmapClaim kernel cid tid (reservationSize fileSize) = some (slot, base) ∧
        taskMmapFile kernel cid args =
          (Sched.setRegion kernel tid slot ⟨base, reservationSize fileSize, fileSize, node,
            mmapFileShared, args.bitmap⟩, base) := by
  unfold taskMmapFile
  split
  · rename_i tid node fileSize current _
    split_ifs
    · exact Or.inl rfl
    · split
      · exact Or.inl rfl
      · exact Or.inl rfl
    · split
      · exact Or.inl rfl
      · rename_i slot base claimed
        exact Or.inr ⟨tid, node, fileSize, slot, base, current, claimed, rfl⟩
  · exact Or.inl rfl

theorem bitmapFree_spec {kernel : Kernel} {address : Nat} (free : bitmapFree kernel address = true)
    {tid slot : Nat} {region : MmapRegion} (slotted : FileSlot kernel tid slot region) :
    region.dirty ≠ address := by
  have checked := List.all_eq_true.mp (List.all_eq_true.mp free tid
    (List.mem_range.mpr slotted.tid_lt)) region (List.mem_of_getElem? slotted.listed)
  rw [slotted.file, Bool.not_true, Bool.false_or, decide_eq_true_eq] at checked
  exact checked

theorem Tracked.mmapFile {kernel : Kernel} {memory : Memory} (tracked : Tracked kernel memory)
    {cid : Nat} {args : MmapFileArgs} (free : bitmapFree kernel args.bitmap = true) :
    Tracked (taskMmapFile kernel cid args).1
      (if (taskMmapFile kernel cid args).2 = 0 then memory else
        { memory with dirty := update memory.dirty args.bitmap fun _ => false }) := by
  rcases taskMmapFile_cases kernel cid args with failed | found
  · rw [failed]
    exact tracked
  · obtain ⟨tid, node, fileSize, slot, base, current, claimed, result⟩ := found
    obtain ⟨⟨old, listed, unused⟩, placed, _, _⟩ := mmapClaim_spec tracked.tables fileSize claimed
    have low := placed.low
    have positive : base ≠ 0 := by
      rintro rfl
      exact absurd low (by decide)
    rw [result]
    dsimp only
    rw [if_neg positive]
    refine tracked.setRegion (tracked.tables.claim claimed rfl rfl)
      (fun none' => absurd none' positive) listed (fun _ _ _ _ => rfl)
      (fun _ _ both => both.1 unused)
      (fun vaddr inside _ => tracked.gapUnmapped current claimed rfl rfl inside)
      (fun _ slotted => bitmapFree_spec free slotted) fun slotted _ => ?_
    exact update_of_ne (bitmapFree_spec free slotted) _ _

/-- The marks after a munmap: those of other regions are as they were. -/
theorem taskMunmap_dirty {kernel : Kernel} (memory : Memory) {cid tid addr slot : Nat}
    (io : FlushIo) {region : MmapRegion} (current : kernel.currentTask cid = some tid)
    (found : regionSlot (kernel.tasks tid).mmapRegions addr = some slot)
    (listed : (kernel.tasks tid).mmapRegions[slot]? = some region) (address : Nat)
    (apart : region.isFile = true → address ≠ region.dirty)
    (live : region.base ≠ 0) :
    (taskMunmap kernel memory cid addr io).2.1.dirty address = memory.dirty address := by
  have shown : (kernel.tasks tid).mmapRegions.getD slot MmapRegion.empty = region := by
    rw [List.getD_eq_getElem?_getD, listed, Option.getD_some]
  unfold taskMunmap
  rw [current]
  dsimp only
  rw [found]
  dsimp only
  rw [shown]
  unfold Memory.setSpace
  dsimp only
  split_ifs with file
  · exact (flushedMarks_mmapFlushFile memory _ region io).others address
      (apart (isFile_iff.mpr ⟨live, file⟩))
  · rfl

/-- A munmap at the slot of an empty region changes no page and no mark. -/
theorem taskMunmap_empty {kernel : Kernel} (memory : Memory) {cid tid slot : Nat} (io : FlushIo)
    {region : MmapRegion} (current : kernel.currentTask cid = some tid)
    (found : regionSlot (kernel.tasks tid).mmapRegions 0 = some slot)
    (listed : (kernel.tasks tid).mmapRegions[slot]? = some region) (empty : region.size = 0) :
    taskMunmap kernel memory cid 0 io =
      (Sched.setRegion kernel tid slot MmapRegion.empty, memory, 1) := by
  have shown : (kernel.tasks tid).mmapRegions.getD slot MmapRegion.empty = region := by
    rw [List.getD_eq_getElem?_getD, listed, Option.getD_some]
  have flushed : (mmapFlushFile memory (kernel.tasks tid).pageDir region io).1 = memory := by
    unfold mmapFlushFile MmapRegion.pages
    rw [empty]
    rfl
  have pages : regionPages 0 region.size = [] := by
    rw [empty]
    rfl
  unfold taskMunmap
  rw [current]
  dsimp only
  rw [found]
  dsimp only
  rw [shown, flushed, pages, ite_self]
  unfold Memory.setSpace
  dsimp only [List.foldl_nil]
  rw [update_eq_self]

theorem Tracked.munmap {kernel : Kernel} {memory : Memory} (tracked : Tracked kernel memory)
    (cid addr : Nat) (io : FlushIo) :
    Tracked (taskMunmap kernel memory cid addr io).1
      (taskMunmap kernel memory cid addr io).2.1 := by
  cases current : kernel.currentTask cid with
  | none =>
    unfold taskMunmap
    rw [current]
    exact tracked
  | some tid =>
    cases found : regionSlot (kernel.tasks tid).mmapRegions addr with
    | none =>
      unfold taskMunmap
      rw [current]
      dsimp only
      rw [found]
      exact tracked
    | some slot =>
      obtain ⟨region, listed, based⟩ := regionSlot_spec found
      have member := List.mem_of_getElem? listed
      have tables : RegularTables (Sched.setRegion kernel tid slot MmapRegion.empty) :=
        tracked.tables.setTask ((tracked.tables tid).discard slot)
      have none' : MmapRegion.empty.isFile = false := rfl
      by_cases live : addr = 0
      · subst live
        rw [taskMunmap_empty memory io current found listed (tracked.sizes tid region member based)]
        exact tracked.setRegion tables (fun _ => rfl) listed (fun _ _ _ _ => rfl)
          (fun _ _ both => both.1 based) (fun _ _ file => absurd (none'.symm.trans file)
            Bool.false_ne_true)
          (fun file _ => absurd (none'.symm.trans file) Bool.false_ne_true) fun _ _ => rfl
      · have used : region.base ≠ 0 := by
          rw [based]
          exact live
        have released := released_taskMunmap tracked.tables memory io current found
          ⟨listed, based, live⟩
        have inside : ∀ vaddr, userMapped ((taskMunmap kernel memory cid addr io).2.1.spaces
            (kernel.tasks tid).pageDir) vaddr = true →
            ¬(InRegion region vaddr ∧
              ((memory.spaces (kernel.tasks tid).pageDir).entry vaddr).present = true) := by
          intro vaddr mapped both
          rw [userMapped_eq, (released.entries vaddr).1 both] at mapped
          exact absurd mapped Bool.false_ne_true
        have kept : ∀ other < maxTasks, ∀ vaddr,
            userMapped ((taskMunmap kernel memory cid addr io).2.1.spaces
              (kernel.tasks other).pageDir) vaddr = true →
            ((taskMunmap kernel memory cid addr io).2.1.spaces
                (kernel.tasks other).pageDir).entry vaddr =
              (memory.spaces (kernel.tasks other).pageDir).entry vaddr := by
          intro other _ vaddr mapped
          by_cases same : (kernel.tasks other).pageDir = (kernel.tasks tid).pageDir
          · rw [same] at mapped ⊢
            exact (released.entries vaddr).2 (inside vaddr mapped)
          · rw [released.spaces _ same]
        rw [released.table]
        refine tracked.setRegion tables (fun _ => rfl) listed kept (fun vaddr mapped both => ?_)
          (fun _ _ file => absurd (none'.symm.trans file) Bool.false_ne_true)
          (fun file _ => absurd (none'.symm.trans file) Bool.false_ne_true)
          fun slotted apart => ?_
        · refine inside vaddr mapped ⟨both.2, ?_⟩
          rw [← (released.entries vaddr).2 (inside vaddr mapped)]
          exact user_present mapped
        · refine taskMunmap_dirty memory io current found listed _ (fun file same => ?_) used
          have here : FileSlot kernel tid slot region :=
            ⟨tracked.seated cid tid current, listed, file⟩
          exact apart (tracked.bitmaps slotted here same)

/-! ### fork -/

/-- What a fork that makes a child does to the tasks. -/
structure Forked (kernel next : Kernel) (parent tid : Nat) (args : ForkArgs) : Prop where
  tid_lt : tid < maxTasks
  tid_pos : tid ≠ 0
  currentTask : next.currentTask = kernel.currentTask
  regions : (next.tasks tid).mmapRegions = (kernel.tasks parent).mmapRegions.mapIdx (forkRegion args)
  pageDir : (next.tasks tid).pageDir = args.clone
  others : ∀ other, other ≠ tid → (next.tasks other).mmapRegions = (kernel.tasks other).mmapRegions ∧
    (next.tasks other).pageDir = (kernel.tasks other).pageDir

theorem forkCommon_spec {kernel next : Kernel} {cid parent tid : Nat} {args : ForkArgs}
    (current : kernel.currentTask cid = some parent)
    (result : forkCommon kernel cid args = (next, some tid)) :
    Forked kernel next parent tid args := by
  unfold forkCommon at result
  rw [current] at result
  dsimp only at result
  split_ifs at result
  · exact absurd (congrArg Prod.snd result) (by simp)
  · split at result
    · exact absurd (congrArg Prod.snd result) (by simp)
    · rename_i slot claimed
      obtain ⟨slot_lt, positive, _, _⟩ := claimSlot_spec claimed
      have same := congrArg Prod.snd result
      dsimp only at same
      rw [Option.some.injEq] at same
      subst same
      have nextIs := (congrArg Prod.fst result).symm
      dsimp only at nextIs
      have shown := @viewOf_publish _ (fun task : Task => (task.mmapRegions, task.pageDir))
        (fun _ _ => rfl) (fun _ _ => rfl) (allocPageDir kernel args.clone)
        (rqLeastLoaded (allocPageDir kernel args.clone)) slot
        (forkFill (allocPageDir kernel args.clone) parent args slot
          ((allocPageDir kernel args.clone).tasks slot))
      rw [← nextIs] at shown
      have here := congrFun shown slot
      rw [update_self] at here
      refine ⟨slot_lt, by omega, ?_, congrArg Prod.fst here, congrArg Prod.snd here,
        fun other apart => ?_⟩
      · rw [nextIs]
        exact (fixed_iff.mp (fixed_rqEnqueue _ _ _)).1
      · have there := congrFun shown other
        rw [update_of_ne apart] at there
        exact ⟨congrArg Prod.fst there, congrArg Prod.snd there⟩

/-- A user page of a new space lies below the mmap window. -/
theorem created_below {boot : BootTables} {io : CreateIo} {own : AddressSpace}
    (created : vmmCreateAddressSpace boot io = some own) {vaddr : Nat} (low : mmapBase ≤ vaddr) :
    userMapped own vaddr = false := by
  have kernelOnly : userMapped boot.space vaddr = false := by
    rw [userMapped_eq]
    cases present : (boot.space.entry vaddr).present with
    | false => rfl
    | true => rw [boot.kernelOnly vaddr present, Bool.and_false]
  unfold vmmCreateAddressSpace at created
  split_ifs at created
  split at created
  · rwa [← Option.some.inj created]
  · rename_i frame _
    rw [← Option.some.inj created]
    cases mapped : (vmmMapPage boot.space io.tables Vmm.sigTrampolineVa
        ⟨true, false, true, false, false, false, false, frame⟩).2 with
    | false => rwa [userMapped_eq, entry_vmmMapPage_failed mapped, ← userMapped_eq]
    | true =>
      have apart : ¬SamePage vaddr Vmm.sigTrampolineVa := by
        unfold SamePage pageSize Vmm.sigTrampolineVa
        unfold mmapBase at low
        omega
      rwa [userMapped_eq, entry_vmmMapPage mapped, if_neg apart, ← userMapped_eq]

/-- A page of the window in a cloned space is a page of the source; a shared one is the same. -/
theorem cloned_entry {boot : BootTables} {source child : AddressSpace} {frames : Frames}
    {bytes : Nat → UInt8} {io : CloneIo}
    (cloned : (vmmCloneAddressSpace boot source frames bytes io).child = some child) {vaddr : Nat}
    (low : mmapBase ≤ vaddr) (mapped : userMapped child vaddr = true) :
    userMapped source vaddr = true ∧ child.entry vaddr = (source.entry vaddr).share := by
  obtain ⟨own, created, rfl, _⟩ := vmmCloneAddressSpace_spec cloned
  rw [userMapped_eq] at mapped
  rcases entry_childSpace_cases boot.space own source vaddr with kept | gone | ⟨_, shared⟩
  · rw [kept, ← userMapped_eq] at mapped
    exact absurd ((created_below created low).symm.trans mapped) Bool.false_ne_true
  · rw [gone] at mapped
    exact absurd mapped Bool.false_ne_true
  · rw [shared, share_present, share_user, ← userMapped_eq] at mapped
    exact ⟨mapped, shared⟩

/-- The source of a clone has its own pages, some of them shared now. -/
theorem clone_source (boot : BootTables) (source : AddressSpace) (frames : Frames)
    (bytes : Nat → UInt8) (io : CloneIo) (vaddr : Nat) :
    (vmmCloneAddressSpace boot source frames bytes io).source.entry vaddr = source.entry vaddr ∨
      (vmmCloneAddressSpace boot source frames bytes io).source.entry vaddr =
        (source.entry vaddr).share := by
  have marked : ∀ reached, (markSource source reached).entry vaddr = source.entry vaddr ∨
      (markSource source reached).entry vaddr = (source.entry vaddr).share := by
    intro reached
    rw [entry_markSource]
    split_ifs
    · exact Or.inr rfl
    · exact Or.inl rfl
  unfold vmmCloneAddressSpace
  split
  · exact Or.inl rfl
  · dsimp only
    split_ifs
    · exact marked _
    · exact marked _

theorem share_shared {pte : Pte} (shared : pte.shared = true) : pte.share = pte := by
  unfold Pte.share
  rw [shared, Bool.not_true, Bool.and_false, if_neg Bool.false_ne_true]

/-- Sharing the pages of a space for a clone leaves the pages of file mappings alone. -/
theorem Tracked.cloneSource {kernel : Kernel} {memory : Memory} (tracked : Tracked kernel memory)
    {pageDir : Nat} {source : AddressSpace}
    (entries : ∀ vaddr, source.entry vaddr = (memory.spaces pageDir).entry vaddr ∨
      source.entry vaddr = ((memory.spaces pageDir).entry vaddr).share) :
    Tracked kernel (memory.setSpace pageDir source) := by
  have shown : ∀ other vaddr, (((memory.setSpace pageDir source).spaces other).entry vaddr =
      (memory.spaces other).entry vaddr) ∨ ((memory.setSpace pageDir source).spaces other).entry
        vaddr = ((memory.spaces other).entry vaddr).share := by
    intro other vaddr
    unfold Memory.setSpace
    dsimp only
    by_cases same : other = pageDir
    · rw [same, update_self]
      exact entries vaddr
    · rw [update_of_ne same]
      exact Or.inl rfl
  have kept : ∀ other vaddr, userMapped ((memory.setSpace pageDir source).spaces other) vaddr =
      userMapped (memory.spaces other) vaddr := by
    intro other vaddr
    rw [userMapped_eq, userMapped_eq]
    rcases shown other vaddr with same | shared
    · rw [same]
    · rw [shared, share_present, share_user]
  refine tracked.remember (fun other _ vaddr _ mapped => Or.inl ?_) ?_
  · rwa [kept] at mapped
  · intro other slot region _ vaddr _ mapped old
    rw [kept] at mapped
    obtain ⟨private_copy, shared, marked⟩ := old mapped
    have same : ((memory.setSpace pageDir source).spaces (kernel.tasks other).pageDir).entry vaddr =
        (memory.spaces (kernel.tasks other).pageDir).entry vaddr := by
      rcases shown (kernel.tasks other).pageDir vaddr with same | changed
      · exact same
      · rw [changed, share_shared shared]
    refine ⟨by rw [same]; exact private_copy, by rw [same]; exact shared, fun writable => ?_⟩
    rw [same] at writable
    exact marked writable

/-! ### The bitmaps of a child -/

theorem foldl_update_other {Item Value : Type} (key : Item → Nat) (value : Item → Value)
    (items : List Item) (start : Nat → Value) {address : Nat}
    (apart : ∀ item ∈ items, key item ≠ address) :
    (items.foldl (fun table item => update table (key item) (value item)) start) address =
      start address := by
  induction items generalizing start with
  | nil => rfl
  | cons item rest inductionHypothesis =>
    rw [List.foldl_cons, inductionHypothesis _ fun other member =>
      apart other (List.mem_cons_of_mem _ member)]
    exact update_of_ne (Ne.symm (apart item List.mem_cons_self)) _ _

theorem foldl_update_mem {Item Value : Type} (key : Item → Nat) (value : Item → Value)
    {items : List Item} (start : Nat → Value) {address : Nat} {wanted : Value}
    (there : ∃ item ∈ items, key item = address)
    (agree : ∀ item ∈ items, key item = address → value item = wanted) :
    (items.foldl (fun table item => update table (key item) (value item)) start) address =
      wanted := by
  induction items generalizing start with
  | nil =>
    obtain ⟨_, member, _⟩ := there
    exact absurd member List.not_mem_nil
  | cons first rest inductionHypothesis =>
    rw [List.foldl_cons]
    by_cases later : ∃ item ∈ rest, key item = address
    · exact inductionHypothesis _ later fun item member =>
        agree item (List.mem_cons_of_mem _ member)
    · have apart : ∀ item ∈ rest, key item ≠ address := fun item member same =>
        later ⟨item, member, same⟩
      rw [foldl_update_other key value rest _ apart]
      obtain ⟨item, member, same⟩ := there
      rcases List.mem_cons.mp member with rfl | tail
      · rw [same, update_self]
        exact agree item List.mem_cons_self same
      · exact absurd same (apart item tail)

/-- The slots whose bitmaps a fork copies. -/
theorem mem_copied {regions : List MmapRegion} {bitmap : Nat → Nat} {pair : MmapRegion × Nat} :
    pair ∈ (regions.zipIdx.filter fun pair => pair.1.isFile && bitmap pair.2 ≠ 0) ↔
      regions[pair.2]? = some pair.1 ∧ pair.1.isFile = true ∧ bitmap pair.2 ≠ 0 := by
  rw [List.mem_filter, List.mem_zipIdx_iff_getElem?, Bool.and_eq_true, decide_eq_true_eq]

theorem bitmapsFresh_spec {kernel : Kernel} {bitmap : Nat → Nat}
    (fresh : bitmapsFresh kernel bitmap = true) {slot : Nat} (slot_lt : slot < mmapMaxRegions)
    (given : bitmap slot ≠ 0) :
    bitmapFree kernel (bitmap slot) = true ∧
      ∀ other < mmapMaxRegions, bitmap other = bitmap slot → other = slot := by
  have checked := List.all_eq_true.mp fresh slot (List.mem_range.mpr slot_lt)
  simp only [given, decide_false, Bool.false_or, Bool.and_eq_true] at checked
  refine ⟨checked.1, fun other other_lt same => ?_⟩
  have apart := List.all_eq_true.mp checked.2 other (List.mem_range.mpr other_lt)
  by_contra differ
  simp only [Ne.symm differ, decide_false, Bool.false_or, decide_eq_true_eq] at apart
  exact apart same.symm

theorem Regular.slot_lt {regions : List MmapRegion} (regular : Regular regions) {slot : Nat}
    {region : MmapRegion} (listed : regions[slot]? = some region) : slot < mmapMaxRegions := by
  rw [← regular.length]
  exact (List.getElem?_eq_some_iff.mp listed).1

/-- A child's bitmap has the marks of its parent's. -/
theorem copyBitmaps_copied {kernel : Kernel} {parent : Nat} (memory : Memory)
    {bitmap : Nat → Nat} (fresh : bitmapsFresh kernel bitmap = true)
    (regular : Regular (kernel.tasks parent).mmapRegions) {slot : Nat} {region : MmapRegion}
    (slotted : FileSlot kernel parent slot region) (given : bitmap slot ≠ 0) :
    (copyBitmaps memory (kernel.tasks parent).mmapRegions bitmap).dirty (bitmap slot) =
      memory.dirty region.dirty := by
  have one := (bitmapsFresh_spec fresh (regular.slot_lt slotted.listed) given).2
  refine foldl_update_mem (fun pair : MmapRegion × Nat => bitmap pair.2)
    (fun pair => memory.dirty pair.1.dirty) _
    ⟨(region, slot), mem_copied.mpr ⟨slotted.listed, slotted.file, given⟩, rfl⟩
    fun pair member same => ?_
  obtain ⟨listed, _, _⟩ := mem_copied.mp member
  have here := one pair.2 (regular.slot_lt listed) same
  rw [here, slotted.listed, Option.some.injEq] at listed
  rw [listed]

/-- Marks in use before a fork are as they were. -/
theorem copyBitmaps_kept {kernel : Kernel} {parent : Nat} (memory : Memory)
    {bitmap : Nat → Nat} (fresh : bitmapsFresh kernel bitmap = true)
    (regular : Regular (kernel.tasks parent).mmapRegions) {other slot : Nat} {region : MmapRegion}
    (slotted : FileSlot kernel other slot region) :
    (copyBitmaps memory (kernel.tasks parent).mmapRegions bitmap).dirty region.dirty =
      memory.dirty region.dirty := by
  refine foldl_update_other (fun pair : MmapRegion × Nat => bitmap pair.2)
    (fun pair => memory.dirty pair.1.dirty) _ _ fun pair member same => ?_
  obtain ⟨listed, _, given⟩ := mem_copied.mp member
  have free := (bitmapsFresh_spec fresh (regular.slot_lt listed) given).1
  exact bitmapFree_spec free slotted same.symm

/-! ### The child -/

theorem directoryFresh_spec {kernel : Kernel} {pageDir : Nat}
    (fresh : directoryFresh kernel pageDir = true) :
    pageDir ≠ 0 ∧ ∀ tid < maxTasks,
      (kernel.tasks tid).pageDir / 4096 ≠ pageDir / 4096 := by
  unfold directoryFresh at fresh
  rw [Bool.and_eq_true, decide_eq_true_eq] at fresh
  refine ⟨fresh.1, fun tid tid_lt => ?_⟩
  have apart := List.all_eq_true.mp fresh.2 tid (List.mem_range.mpr tid_lt)
  rwa [decide_eq_true_eq] at apart

theorem Forked.kernelSpace {kernel next : Kernel} {parent tid : Nat} {args : ForkArgs}
    (forked : Forked kernel next parent tid args)
    (fresh : directoryFresh kernel args.clone = true) (other : Nat) :
    taskInKernelSpace next other =
      if other = tid then false else taskInKernelSpace kernel other := by
  have zero : (next.tasks 0).pageDir = (kernel.tasks 0).pageDir :=
    (forked.others 0 (Ne.symm forked.tid_pos)).2
  obtain ⟨used, apart⟩ := directoryFresh_spec fresh
  by_cases same : other = tid
  · subst same
    have first := Ne.symm (apart 0 (by decide))
    unfold taskInKernelSpace
    rw [if_pos rfl, zero, if_neg (Nat.not_le_of_lt forked.tid_lt), forked.pageDir]
    simp [used, first]
  · rw [if_neg same]
    unfold taskInKernelSpace
    rw [zero, (forked.others other same).2]

/-- A slot after a fork is a copied slot of the parent, or an old one of another task. -/
theorem Forked.slot {kernel next : Kernel} {parent tid : Nat} {args : ForkArgs}
    (forked : Forked kernel next parent tid args) (parent_lt : parent < maxTasks)
    {other place : Nat} {region : MmapRegion} (slotted : FileSlot next other place region) :
    (other = tid ∧ args.bitmap place ≠ 0 ∧ ∃ old, FileSlot kernel parent place old ∧
        region = { old with dirty := args.bitmap place }) ∨
      other ≠ tid ∧ FileSlot kernel other place region := by
  by_cases same : other = tid
  · subst same
    have listed := slotted.listed
    rw [forked.regions, List.getElem?_mapIdx, Option.map_eq_some_iff] at listed
    obtain ⟨old, there, copied⟩ := listed
    have file := slotted.file
    unfold forkRegion at copied
    split_ifs at copied with kind given
    · subst copied
      exact Or.inl ⟨rfl, given, old, ⟨parent_lt, there, isFile_iff.mpr kind⟩, rfl⟩
    · subst copied
      exact absurd file (by decide)
    · subst copied
      exact absurd (isFile_iff.mp file) kind
  · refine Or.inr ⟨same, slotted.tid_lt, ?_, slotted.file⟩
    rw [← (forked.others other same).1]
    exact slotted.listed

/-- A fork keeps pages tracked when the child's pages of the window are pages of its parent, its
bitmaps are copies, and a mapping without a bitmap has no page. -/
theorem Tracked.forked {kernel next : Kernel} {before after : Memory}
    (tracked : Tracked kernel before) {parent tid : Nat} {args : ForkArgs}
    (forked : Forked kernel next parent tid args) (parent_lt : parent < maxTasks)
    (directory : directoryFresh kernel args.clone = true)
    (bitmaps : bitmapsFresh kernel args.bitmap = true)
    (spaces : ∀ other, other ≠ args.clone → after.spaces other = before.spaces other)
    (entries : ∀ vaddr, mmapBase ≤ vaddr → userMapped (after.spaces args.clone) vaddr = true →
      userMapped (before.spaces (kernel.tasks parent).pageDir) vaddr = true ∧
        (((before.spaces (kernel.tasks parent).pageDir).entry vaddr).shared = true →
          (after.spaces args.clone).entry vaddr =
            (before.spaces (kernel.tasks parent).pageDir).entry vaddr))
    (dirty : after.dirty =
      (copyBitmaps before (kernel.tasks parent).mmapRegions args.bitmap).dirty)
    (dropped : ∀ {slot : Nat} {region : MmapRegion}, FileSlot kernel parent slot region →
      args.bitmap slot = 0 → ∀ vaddr, InRegion region vaddr →
      userMapped (before.spaces (kernel.tasks parent).pageDir) vaddr = false) :
    Tracked next after := by
  obtain ⟨used, apart⟩ := directoryFresh_spec directory
  have regular := tracked.tables parent
  have elsewhere : ∀ other < maxTasks, other ≠ tid →
      after.spaces (next.tasks other).pageDir = before.spaces (kernel.tasks other).pageDir := by
    intro other other_lt differ
    rw [(forked.others other differ).2]
    exact spaces _ fun same => apart other other_lt (by rw [same])
  constructor
  case toOwnSpaces =>
    constructor
    case tables =>
      intro other
      by_cases same : other = tid
      · rw [same, forked.regions]
        exact regular.fork args
      · rw [(forked.others other same).1]
        exact tracked.tables other
    case sizes =>
      intro other
      by_cases same : other = tid
      · rw [same, forked.regions]
        exact (tracked.sizes parent).fork args
      · rw [(forked.others other same).1]
        exact tracked.sizes other
    case alone =>
      intro first second differ second_lt own
      rw [forked.kernelSpace directory] at own
      by_cases child : first = tid
      · subst child
        rw [forked.pageDir, (forked.others second (Ne.symm differ)).2]
        exact fun same => apart second second_lt (by rw [same])
      · rw [if_neg child] at own
        have first_lt : first < maxTasks := by
          by_contra high
          unfold taskInKernelSpace at own
          rw [if_pos (Nat.le_of_not_lt high)] at own
          exact absurd own (by simp)
        rw [(forked.others first child).2]
        by_cases childSecond : second = tid
        · rw [childSecond, forked.pageDir]
          exact fun same => apart first first_lt (by rw [same])
        · rw [(forked.others second childSecond).2]
          exact tracked.alone first second differ second_lt own
    case seated =>
      intro cid other current
      rw [forked.currentTask] at current
      exact tracked.seated cid other current
    case bitmaps =>
      intro first second slot place left right leftSlot rightSlot same
      rcases forked.slot parent_lt leftSlot with ⟨rfl, given, old, oldSlot, rfl⟩ | ⟨_, oldLeft⟩
      · have free := bitmapsFresh_spec bitmaps (regular.slot_lt oldSlot.listed) given
        rcases forked.slot parent_lt rightSlot with ⟨rfl, _, other, otherSlot, rfl⟩ | ⟨_, oldRight⟩
        · exact ⟨rfl, (free.2 place (regular.slot_lt otherSlot.listed) same.symm).symm⟩
        · exact absurd same.symm (bitmapFree_spec free.1 oldRight)
      · rcases forked.slot parent_lt rightSlot with ⟨rfl, given, other, otherSlot, rfl⟩ | ⟨_, oldRight⟩
        · have free := bitmapsFresh_spec bitmaps (regular.slot_lt otherSlot.listed) given
          exact absurd same (bitmapFree_spec free.1 oldLeft)
        · exact tracked.bitmaps oldLeft oldRight same
  case covered =>
    intro other other_lt vaddr low mapped
    by_cases same : other = tid
    · subst same
      rw [forked.pageDir] at mapped
      obtain ⟨there, _⟩ := entries vaddr low mapped
      obtain ⟨_, region, member, live, inside⟩ := tracked.covered parent parent_lt vaddr low there
      obtain ⟨slot, listed⟩ := List.getElem?_of_mem member
      refine ⟨by rw [forked.kernelSpace directory, if_pos rfl], forkRegion args slot region, ?_, ?_⟩
      · rw [forked.regions]
        refine List.mem_iff_getElem?.mpr ⟨slot, ?_⟩
        rw [List.getElem?_mapIdx, listed]
        rfl
      · unfold forkRegion
        split_ifs with kind given
        · exact ⟨live, inside⟩
        · have gone := dropped ⟨parent_lt, listed, isFile_iff.mpr kind⟩ (by simpa using given) vaddr
            inside
          exact absurd (gone.symm.trans there) Bool.false_ne_true
        · exact ⟨live, inside⟩
    · rw [elsewhere other other_lt same] at mapped
      obtain ⟨own, region, member, live, inside⟩ := tracked.covered other other_lt vaddr low mapped
      refine ⟨?_, region, ?_, live, inside⟩
      · rw [forked.kernelSpace directory, if_neg same]
        exact own
      · rw [(forked.others other same).1]
        exact member
  case pages =>
    intro other slot region slotted vaddr inside mapped
    rcases forked.slot parent_lt slotted with ⟨rfl, given, old, oldSlot, rfl⟩ | ⟨differ, oldSlot⟩
    · rw [forked.pageDir] at mapped ⊢
      have placed := tracked.tables.placedSlot oldSlot
      obtain ⟨there, copied⟩ := entries vaddr (placed.low.trans inside.1) mapped
      obtain ⟨private_copy, shared, marked⟩ := tracked.pages oldSlot vaddr inside there
      have same := copied shared
      refine ⟨by rw [same]; exact private_copy, by rw [same]; exact shared, fun writable => ?_⟩
      rw [same] at writable
      rw [dirty]
      dsimp only
      rw [copyBitmaps_copied before bitmaps regular oldSlot given]
      exact marked writable
    · have same := elsewhere other slotted.tid_lt differ
      rw [same] at mapped
      obtain ⟨private_copy, shared, marked⟩ := tracked.pages oldSlot vaddr inside mapped
      refine ⟨by rw [same]; exact private_copy, by rw [same]; exact shared, fun writable => ?_⟩
      rw [same] at writable
      rw [dirty, copyBitmaps_kept before bitmaps regular oldSlot]
      exact marked writable

/-- Pages stay tracked when no task record changes. -/
theorem Tracked.sameTasks {kernel next : Kernel} {memory : Memory}
    (tracked : Tracked kernel memory) (tasks : next.tasks = kernel.tasks)
    (seated : ∀ cid tid, next.currentTask cid = some tid → tid < maxTasks) :
    Tracked next memory := by
  have spaces : taskInKernelSpace next = taskInKernelSpace kernel := by
    funext tid
    unfold taskInKernelSpace
    rw [tasks]
  have slots : ∀ {tid slot : Nat} {region : MmapRegion}, FileSlot next tid slot region →
      FileSlot kernel tid slot region :=
    fun slotted => ⟨slotted.tid_lt, by rw [← tasks]; exact slotted.listed, slotted.file⟩
  constructor
  case toOwnSpaces =>
    refine ⟨fun tid => ?_, fun tid => ?_, fun tid other => ?_, seated, fun left right =>
      tracked.bitmaps (slots left) (slots right)⟩
    · rw [tasks]
      exact tracked.tables tid
    · rw [tasks]
      exact tracked.sizes tid
    · rw [tasks, spaces]
      exact tracked.alone tid other
  case covered =>
    intro tid tid_lt vaddr low mapped
    rw [tasks] at mapped
    obtain ⟨own, region, member, there⟩ := tracked.covered tid tid_lt vaddr low mapped
    exact ⟨by rw [spaces]; exact own, region, by rw [tasks]; exact member, there⟩
  case pages =>
    intro tid slot region slotted vaddr inside mapped
    rw [tasks] at mapped ⊢
    exact tracked.pages (slots slotted) vaddr inside mapped

theorem forkCommon_none {kernel next : Kernel} {cid : Nat} {args : ForkArgs}
    (result : forkCommon kernel cid args = (next, none)) :
    next.tasks = kernel.tasks ∧ next.currentTask = kernel.currentTask := by
  unfold forkCommon at result
  split at result
  · rw [← (Prod.mk.inj result).1]
    exact ⟨rfl, rfl⟩
  · split_ifs at result
    · rw [← (Prod.mk.inj result).1]
      exact ⟨rfl, rfl⟩
    · dsimp only at result
      split at result
      · rw [← (Prod.mk.inj result).1]
        exact ⟨rfl, rfl⟩
      · exact absurd (congrArg Prod.snd result) (by simp)

/-- A mapping without a bitmap has no page, as `marksKept` asks. -/
theorem regionUnmapped_spec {space : AddressSpace} {region : MmapRegion}
    (placed : Placed region.base region.size) (unmapped : regionUnmapped space region = true)
    {vaddr : Nat} (inside : InRegion region vaddr) : userMapped space vaddr = false := by
  have aligned := placed.base_aligned
  have whole := placed.size_aligned
  unfold InRegion at inside
  have member : (vaddr - region.base) / pageSize ∈ region.pages := by
    unfold MmapRegion.pages pageSize
    rw [List.mem_range]
    omega
  have page := List.all_eq_true.mp unmapped _ member
  rw [Bool.not_eq_true'] at page
  rw [← page]
  refine userMapped_samePage space ?_
  unfold SamePage pageSize
  omega

theorem Tracked.fork {boot : BootTables} {kernel : Kernel} {memory : Memory}
    (tracked : Tracked kernel memory) {cid parent : Nat} {args : ForkArgs} {io : CloneIo}
    (current : kernel.currentTask cid = some parent)
    (directory : directoryFresh kernel args.clone = true)
    (bitmaps : bitmapsFresh kernel args.bitmap = true)
    (meets : ∀ {slot : Nat} {region : MmapRegion}, FileSlot kernel parent slot region →
      args.bitmap slot = 0 →
      regionUnmapped (memory.spaces (kernel.tasks parent).pageDir) region = true) :
    Tracked (forkMemory boot kernel memory cid args io).1
      (forkMemory boot kernel memory cid args io).2 := by
  have parent_lt := tracked.seated cid parent current
  have source := clone_source boot (memory.spaces (kernel.tasks parent).pageDir) memory.frames
    memory.bytes io
  have copied := fun (child : AddressSpace) cloned vaddr =>
    @cloned_entry boot (memory.spaces (kernel.tasks parent).pageDir) child memory.frames
      memory.bytes io cloned vaddr
  unfold forkMemory
  rw [current]
  dsimp only
  generalize vmmCloneAddressSpace boot (memory.spaces (kernel.tasks parent).pageDir) memory.frames
    memory.bytes io = clone at source copied ⊢
  split
  · exact tracked
  · have marked : Tracked kernel { memory.setSpace (kernel.tasks parent).pageDir clone.source with
        frames := clone.frames, bytes := clone.bytes } :=
      (tracked.cloneSource source).same rfl rfl
    split
    · exact marked
    · rename_i child cloned
      split
      · rename_i next result
        obtain ⟨tasks, currentTask⟩ := forkCommon_none result
        refine Tracked.sameTasks ?_ tasks fun core tid seated => ?_
        · exact marked.same rfl rfl
        · rw [currentTask] at seated
          exact tracked.seated core tid seated
      · rename_i next tid result
        have apart : (kernel.tasks parent).pageDir ≠ args.clone := fun same =>
          (directoryFresh_spec directory).2 parent parent_lt (by rw [same])
        refine marked.forked (forkCommon_spec current result) parent_lt directory bitmaps
          (fun other differ => update_of_ne differ _ _) (fun vaddr low mapped => ?_) rfl
          fun slotted none' vaddr inside => ?_
        · unfold copyBitmaps Memory.setSpace at mapped ⊢
          dsimp only at mapped ⊢
          rw [update_self] at mapped ⊢
          rw [update_self]
          obtain ⟨there, shared⟩ := copied child cloned vaddr low mapped
          rcases source vaddr with same | changed
          · refine ⟨by rw [userMapped_eq, same, ← userMapped_eq]; exact there, fun flag => ?_⟩
            rw [same] at flag ⊢
            rw [shared, share_shared flag]
          · refine ⟨?_, fun _ => shared.trans changed.symm⟩
            rw [userMapped_eq, changed, share_present, share_user, ← userMapped_eq]
            exact there
        · have unmapped := regionUnmapped_spec (tracked.tables.placedSlot slotted)
            (meets slotted none') inside
          unfold Memory.setSpace
          dsimp only
          rw [update_self]
          rcases source vaddr with same | changed
          · rw [userMapped_eq, same, ← userMapped_eq]
            exact unmapped
          · rw [userMapped_eq, changed, share_present, share_user, ← userMapped_eq]
            exact unmapped

/-! ### Runs -/

theorem userTask_spec {kernel : Kernel} {cid tid : Nat} (runs : userTask kernel cid = some tid) :
    kernel.currentTask cid = some tid ∧ taskInKernelSpace kernel tid = false := by
  unfold userTask at runs
  rw [Option.filter_eq_some_iff, Bool.not_eq_true'] at runs
  exact runs

theorem tracked_start {state : FileState} (start : FileStart state) :
    Tracked state.kernel state.memory := by
  have unused : ∀ {tid slot : Nat} {region : MmapRegion},
      ¬FileSlot state.kernel tid slot region := by
    intro tid slot region slotted
    have listed := slotted.listed
    rw [start.tables] at listed
    have file := slotted.file
    rw [List.eq_of_mem_replicate (List.mem_of_getElem? listed)] at file
    exact absurd file (by decide)
  constructor
  case toOwnSpaces =>
    refine ⟨fun tid => ?_, fun tid region member _ => ?_, start.alone, start.seated,
      fun slotted => absurd slotted unused⟩
    · rw [start.tables]
      exact regular_empty
    · rw [start.tables] at member
      rw [List.eq_of_mem_replicate member]
      rfl
  case covered =>
    intro tid tid_lt vaddr low mapped
    exact absurd ((start.unmapped tid tid_lt vaddr low).symm.trans mapped) Bool.false_ne_true
  case pages =>
    exact fun slotted => absurd slotted unused

/-- One step that keeps marks keeps pages tracked. -/
theorem Tracked.step {boot : BootTables} {state next : FileState}
    (tracked : Tracked state.kernel state.memory) {label : FileLabel}
    (meets : marksKept state label = true) (taken : fileStep boot state label = some next) :
    Tracked next.kernel next.memory := by
  cases label with
  | run cid tid =>
    obtain ⟨⟨_, seat⟩, same⟩ := Option.ite_none_right_eq_some.mp taken
    obtain rfl := Option.some.inj same
    refine tracked.sameTasks rfl fun core other current => ?_
    dsimp only at current
    by_cases here : core = cid
    · rw [here, update_self] at current
      rw [current] at seat
      exact of_decide_eq_true (Bool.and_eq_true_iff.mp seat).1
    · rw [update_of_ne here] at current
      exact tracked.seated core other current
  | mmap cid size =>
    obtain rfl := Option.some.inj taken
    exact tracked.mmap cid size
  | mmapFile cid args =>
    obtain ⟨⟨free, _⟩, same⟩ := Option.ite_none_right_eq_some.mp taken
    obtain rfl := Option.some.inj same
    exact tracked.mmapFile free
  | munmap cid addr io =>
    obtain rfl := Option.some.inj taken
    exact tracked.munmap cid addr io
  | fault cid addr write nx io =>
    obtain ⟨tid, runs, stepped⟩ := Option.bind_eq_some_iff.mp taken
    obtain ⟨_, same⟩ := Option.ite_none_right_eq_some.mp stepped
    obtain rfl := Option.some.inj same
    obtain ⟨current, own⟩ := userTask_spec runs
    exact tracked.pageFault current own write nx io
  | store cid addr value =>
    obtain ⟨tid, _, stepped⟩ := Option.bind_eq_some_iff.mp taken
    obtain ⟨_, same⟩ := Option.ite_none_right_eq_some.mp stepped
    obtain rfl := Option.some.inj same
    exact tracked.same rfl rfl
  | msync cid addr io =>
    obtain rfl := Option.some.inj taken
    dsimp only
    unfold taskMsync
    cases current : state.kernel.currentTask cid with
    | none => exact tracked
    | some tid =>
      dsimp only
      cases found : regionSlot (state.kernel.tasks tid).mmapRegions addr with
      | none => exact tracked
      | some slot =>
        obtain ⟨region, listed, based⟩ := regionSlot_spec found
        have shown : (state.kernel.tasks tid).mmapRegions.getD slot MmapRegion.empty = region := by
          rw [List.getD_eq_getElem?_getD, listed, Option.getD_some]
        dsimp only
        rw [shown]
        unfold marksKept at meets
        dsimp only at meets
        rw [current] at meets
        dsimp only at meets
        rw [found] at meets
        dsimp only at meets
        rw [shown] at meets
        split
        · exact tracked
        · rename_i file
          dsimp only
          by_cases live : region.base = 0
          · have empty := tracked.sizes tid region (List.mem_of_getElem? listed) live
            have flushed : (mmapFlushFile state.memory (state.kernel.tasks tid).pageDir region
                io).1 = state.memory := by
              unfold mmapFlushFile MmapRegion.pages
              rw [empty]
              rfl
            rw [flushed]
            exact tracked
          · exact tracked.flush ⟨tracked.seated cid tid current, listed,
              isFile_iff.mpr ⟨live, not_not.mp file⟩⟩ meets io
  | sync cid node io =>
    obtain rfl := Option.some.inj taken
    exact tracked.flushAll io (fun target member => mem_syncTargets member)
      fun target member => List.all_eq_true.mp meets target member
  | fork cid args io =>
    obtain ⟨⟨directory, bitmaps⟩, mapped⟩ := Option.ite_none_right_eq_some.mp taken
    obtain ⟨parent, runs, rfl⟩ := Option.map_eq_some_iff.mp mapped
    obtain ⟨current, _⟩ := userTask_spec runs
    refine tracked.fork current directory bitmaps fun {slot region} slotted none' => ?_
    unfold marksKept at meets
    dsimp only at meets
    rw [current] at meets
    have checked := List.all_eq_true.mp meets (region, slot)
      (List.mem_zipIdx_iff_getElem?.mpr slotted.listed)
    rw [slotted.file, none'] at checked
    simpa using checked
  | resize node file =>
    obtain rfl := Option.some.inj taken
    exact tracked.same rfl rfl

theorem tracked_reachable {boot : BootTables} {state : FileState}
    (reachable : (fileSystem boot).Reachable (fun state label => marksKept state label) state) :
    Tracked state.kernel state.memory :=
  reachable.invariant (fun state => Tracked state.kernel state.memory)
    (fun _ start => tracked_start start) fun _ _ _ tracked meets taken => tracked.step meets taken

/-! ### The statement -/

/-- What a flush that succeeds leaves in the file at a marked page below its end. -/
theorem mmapFlushFile_saved {memory : Memory} {pageDir : Nat} {region : MmapRegion} {io : FlushIo}
    (success : 0 ≤ (mmapFlushFile memory pageDir region io).2) (used : pageDir ≠ 0) {offset : Nat}
    (below : offset < nodeSize memory region.vfsNode)
    (member : offset / pageSize ∈ region.pages)
    (marked : memory.dirty region.dirty (offset / pageSize) = true)
    (present : ((memory.spaces pageDir).entry
      (region.base + offset / pageSize * pageSize)).present = true) :
    ((mmapFlushFile memory pageDir region io).1.nodes region.vfsNode.toNat).data offset =
      memory.bytes (((memory.spaces pageDir).entry
        (region.base + offset / pageSize * pageSize)).frame * pageSize + offset % pageSize) := by
  have any : (region.pages.any fun page => memory.dirty region.dirty page) = true :=
    List.any_eq_true.mpr ⟨_, member, marked⟩
  have sized : nodeSize memory region.vfsNode ≠ 0 := Nat.ne_of_gt (Nat.zero_lt_of_lt below)
  have start : offset / pageSize * pageSize < nodeSize memory region.vfsNode :=
    (Nat.div_mul_le_self offset pageSize).trans_lt below
  unfold mmapFlushFile at success ⊢
  dsimp only at success ⊢
  rw [any, if_neg (by simp), if_neg sized] at success ⊢
  split at success
  · exact absurd success (by simp)
  · rename_i path
    rw [if_neg path]
    split at success
    · exact absurd success (by simp)
    · split at success
      · exact absurd success (by simp)
      · dsimp only [clearDirty, Memory.setSpace, Memory.setData]
        rw [update_self]
        unfold flushImage
        dsimp only
        refine if_pos ⟨List.mem_filter.mpr ⟨member, ?_⟩, below, used, present⟩
        rw [Bool.and_eq_true, decide_eq_true_eq]
        exact ⟨marked, start⟩

theorem Tracked.marked {kernel : Kernel} {memory : Memory} (tracked : Tracked kernel memory)
    {tid : Nat} (tid_lt : tid < maxTasks) {region : MmapRegion}
    (member : region ∈ (kernel.tasks tid).mmapRegions) (file : region.isFile = true) {page : Nat}
    (page_lt : page < region.size / pageSize)
    (writable : userWritable (memory.spaces (kernel.tasks tid).pageDir)
      (region.base + page * pageSize) = true) :
    memory.dirty region.dirty page = true ∧ (kernel.tasks tid).pageDir ≠ 0 := by
  obtain ⟨slot, listed⟩ := List.getElem?_of_mem member
  have slotted : FileSlot kernel tid slot region := ⟨tid_lt, listed, file⟩
  have placed := tracked.tables.placedSlot slotted
  have inside : InRegion region (region.base + page * pageSize) := by
    have whole := placed.size_aligned
    unfold InRegion
    unfold pageSize at page_lt ⊢
    omega
  obtain ⟨mapped, rw'⟩ := Bool.and_eq_true_iff.mp writable
  have mark := (tracked.pages slotted _ inside mapped).marked rw'
  rw [Nat.add_sub_cancel_left, Nat.mul_div_cancel _ (by decide)] at mark
  refine ⟨mark, fun none' => ?_⟩
  have own := (tracked.covered tid tid_lt _ (placed.low.trans inside.1) mapped).1
  unfold taskInKernelSpace at own
  rw [if_neg (Nat.not_le_of_lt tid_lt), none'] at own
  exact absurd own (by simp)

/-- One program in an address space of its own, and files of a given size. -/
def fileStart (size : Nat) : FileState where
  kernel := (bootKernel oneCore).setTask 1 fun task =>
    { task with state := .ready, ring := 3, pageDir := 0x300000 }
  memory :=
    { spaces := fun _ => smallBoot.space
      frames := cloneFrames
      bytes := fun _ => 0
      dirty := fun _ _ => false
      nodes := fun _ => ⟨true, size, fun _ => 0⟩ }

theorem fileStart_start (size : Nat) : FileStart (fileStart size) := by
  have tasks : ∀ tid, (fileStart size).kernel.tasks tid =
      if tid = 1 then { bootTask with state := .ready, ring := 3, pageDir := 0x300000 }
      else (bootKernel oneCore).tasks tid := by
    intro tid
    unfold fileStart
    dsimp only
    split_ifs with program
    · rw [program, setTask_same]
      rfl
    · rw [setTask_other _ _ program]
  have kernelSpace : ∀ tid, tid ≠ 1 → taskInKernelSpace (fileStart size).kernel tid = true := by
    intro tid other
    unfold taskInKernelSpace
    rw [tasks tid, tasks 0, if_neg other, if_neg (show ¬(0 : Nat) = 1 from by decide)]
    by_cases first : tid = 0
    · rw [first]
      rfl
    · unfold bootKernel
      dsimp only
      rw [update_of_ne first]
      simp [bootTask]
  constructor
  case tables =>
    intro tid
    rw [tasks]
    split_ifs
    · rfl
    · by_cases first : tid = 0
      · rw [first]
        rfl
      · unfold bootKernel
        dsimp only
        rw [update_of_ne first]
        rfl
  case alone =>
    intro tid other differ _ own
    have program : tid = 1 := by
      by_contra apart
      exact absurd ((kernelSpace tid apart).symm.trans own) (by simp)
    rw [program] at differ ⊢
    rw [tasks, tasks, if_neg (Ne.symm differ), if_pos rfl]
    by_cases first : other = 0
    · rw [first]
      decide
    · unfold bootKernel
      dsimp only
      rw [update_of_ne first]
      decide
  case seated =>
    intro cid tid current
    unfold fileStart bootKernel Kernel.setTask at current
    dsimp only at current
    split_ifs at current
    rw [← Option.some.inj current]
    decide
  case unmapped =>
    intro tid _ vaddr _
    show userMapped smallBoot.space vaddr = false
    rw [userMapped_eq]
    cases present : (smallBoot.space.entry vaddr).present with
    | false => rfl
    | true => rw [smallBoot.kernelOnly vaddr present, Bool.and_false]

def ampleFault : FaultIo := ⟨some 25000, ⟨true, true⟩, true⟩

def ampleFlush : FlushIo := ⟨true, some fun _ => 0, true, none⟩

/-- The program maps a file, stores to its first page and syncs. -/
def fileHistory (size : Nat) : List FileLabel :=
  [.run 0 (some 1), .mmapFile 0 ⟨mmapFileShared, some (3, size), 0x500000⟩,
    .fault 0 0x40000000 true true ampleFault, .store 0 0x40000000 7, .msync 0 0x40000000 ampleFlush]

def syncedFile : FileState :=
  (Transition.executeGuarded marksKept (fileStep smallBoot) (fileStart 4096)
    (fileHistory 4096)).getD (fileStart 4096)

theorem syncedFile_reachable :
    (fileSystem smallBoot).Reachable (fun state label => marksKept state label) syncedFile := by
  have completes : (Transition.executeGuarded marksKept (fileStep smallBoot) (fileStart 4096)
      (fileHistory 4096)).isSome = true := by decide +kernel
  obtain ⟨final, run⟩ := Option.isSome_iff_exists.mp completes
  unfold syncedFile
  rw [run]
  exact Transition.reachable_executeGuarded (.init (fileStart_start 4096)) run

/-- The same program with an empty file, which grows after the sync. -/
def grownFile : FileState :=
  (Transition.execute (fileStep smallBoot) (fileStart 0)
    (fileHistory 0 ++ [.resize 3 ⟨true, 4096, fun _ => 0⟩])).getD (fileStart 0)

theorem grownFile_reachable : (fileSystem smallBoot).Reachable Transition.anyStep grownFile := by
  have completes : (Transition.execute (fileStep smallBoot) (fileStart 0)
      (fileHistory 0 ++ [.resize 3 ⟨true, 4096, fun _ => 0⟩])).isSome = true := by decide +kernel
  obtain ⟨final, run⟩ := Option.isSome_iff_exists.mp completes
  unfold grownFile
  rw [run]
  exact Transition.reachable_execute (.init (fileStart_start 0)) run

end MectovOS.Sched
