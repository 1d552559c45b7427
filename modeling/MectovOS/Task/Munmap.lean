/-
This file says exactly when `task_munmap` and `task_msync` keep to the region they
are asked for. A free slot has base 0, so address 0 matches the first free slot:
the call reports success, and with the size an exec or a thread creation left in
the slot it clears entries of the identity map. For every other address the call
finds nothing, or releases exactly one region of the caller.
-/

import MectovOS.Task.FileMapping

namespace MectovOS.Sched

open MectovOS.Vmm Function

/-! ### The statement -/

/-- The address lies in the region. -/
def InRegion (region : MmapRegion) (vaddr : Nat) : Prop :=
  region.base ≤ vaddr ∧ vaddr < region.base + region.size

/-- The frames the pages of a region map, one for each page. -/
def regionFrames (space : AddressSpace) (region : MmapRegion) : List Nat :=
  ((regionPages region.base region.size).filter fun vaddr => (space.entry vaddr).present).map
    fun vaddr => (space.entry vaddr).frame

/-- The slot of a task holds a live region with this base. -/
structure LiveRegion (kernel : Kernel) (tid addr slot : Nat) (region : MmapRegion) : Prop where
  listed : (kernel.tasks tid).mmapRegions[slot]? = some region
  base : region.base = addr
  live : addr ≠ 0

/-- Exactly one region was released: the entries inside it are cleared, each frame it mapped
loses one reference for each page, and the slot is free. Only the file of a file mapping may be
written. -/
structure Released (kernel : Kernel) (memory : Memory) (tid slot : Nat) (region : MmapRegion)
    (result : Kernel × Memory × Nat) : Prop where
  returned : result.2.2 = 1
  table : result.1 = setRegion kernel tid slot MmapRegion.empty
  entries : ∀ vaddr, (InRegion region vaddr ∧
      ((memory.spaces (kernel.tasks tid).pageDir).entry vaddr).present = true →
        (result.2.1.spaces (kernel.tasks tid).pageDir).entry vaddr = Pte.zero) ∧
    (¬(InRegion region vaddr ∧
      ((memory.spaces (kernel.tasks tid).pageDir).entry vaddr).present = true) →
        (result.2.1.spaces (kernel.tasks tid).pageDir).entry vaddr =
          (memory.spaces (kernel.tasks tid).pageDir).entry vaddr)
  spaces : ∀ other, other ≠ (kernel.tasks tid).pageDir →
    result.2.1.spaces other = memory.spaces other
  references : ∀ frame, result.2.1.frames.refs frame =
    if memory.frames.Counted frame then
      memory.frames.refs frame -
        (regionFrames (memory.spaces (kernel.tasks tid).pageDir) region).count frame
    else memory.frames.refs frame
  files : ∀ node, (region.mapFlags = mmapFileShared → node ≠ region.vfsNode.toNat) →
    result.2.1.nodes node = memory.nodes node

/-- `task_munmap` returns 0 and changes nothing, or releases exactly one live region. -/
def MunmapExact (kernel : Kernel) (memory : Memory) (tid addr : Nat)
    (result : Kernel × Memory × Nat) : Prop :=
  result = (kernel, memory, 0) ∨
    ∃ slot region, LiveRegion kernel tid addr slot region ∧
      Released kernel memory tid slot region result

/-- A flush of one region: inside it present entries may lose PAGE_RW, and its file may be
written; nothing else changes but dirty marks. -/
structure Flushed (pageDir : Nat) (region : MmapRegion) (before after : Memory) : Prop where
  entries : ∀ vaddr, (after.spaces pageDir).entry vaddr = (before.spaces pageDir).entry vaddr ∨
    InRegion region vaddr ∧ ((before.spaces pageDir).entry vaddr).present = true ∧
      (after.spaces pageDir).entry vaddr =
        { (before.spaces pageDir).entry vaddr with rw := false }
  spaces : ∀ other, other ≠ pageDir → after.spaces other = before.spaces other
  frames : after.frames = before.frames
  bytes : after.bytes = before.bytes
  files : ∀ node, node ≠ region.vfsNode.toNat → after.nodes node = before.nodes node

/-- `task_msync` returns 0 and changes nothing, or flushes exactly one live region, which is
left alone when it is no file mapping. -/
def MsyncExact (kernel : Kernel) (memory : Memory) (tid addr : Nat) (result : Memory × Nat) :
    Prop :=
  result = (memory, 0) ∨
    ∃ slot region, LiveRegion kernel tid addr slot region ∧
      Flushed (kernel.tasks tid).pageDir region memory result.1 ∧
      (region.mapFlags ≠ mmapFileShared → result.1 = memory)

/-! ### The pages of a region -/

theorem regionPages_placed {base size : Nat} (placed : Placed base size) :
    regionPages base size = (List.range (size / 4096)).map fun page => base + 4096 * page := by
  have high := placed.high
  have long := placed.size_le
  have aligned := placed.size_aligned
  simp only [mmapEnd, mmapBase] at high long
  unfold regionPages add32
  have count : ((base + size) % 2 ^ 32 - base + 4095) / 4096 = size / 4096 := by omega
  rw [count]

theorem regionPages_inRegion {region : MmapRegion} (placed : Placed region.base region.size)
    (vaddr : Nat) :
    (∃ page ∈ regionPages region.base region.size, SamePage vaddr page) ↔
      InRegion region vaddr := by
  have aligned := placed.base_aligned
  have whole := placed.size_aligned
  rw [regionPages_placed placed]
  simp only [List.mem_map, List.mem_range, exists_exists_and_eq_and]
  unfold InRegion SamePage pageSize
  constructor
  · rintro ⟨page, inside, same⟩
    omega
  · rintro ⟨low, high⟩
    exact ⟨(vaddr - region.base) / 4096, by omega, by omega⟩

theorem pages_inRegion {region : MmapRegion} (placed : Placed region.base region.size)
    {page vaddr : Nat} (member : page ∈ region.pages)
    (same : SamePage vaddr (region.base + page * 4096)) : InRegion region vaddr := by
  refine (regionPages_inRegion placed vaddr).mp ⟨region.base + page * 4096, ?_, same⟩
  rw [regionPages_placed placed, Nat.mul_comm]
  exact List.mem_map_of_mem member

theorem regionPages_apart {base size : Nat} (placed : Placed base size) :
    (regionPages base size).Pairwise fun first second => ¬SamePage first second := by
  have aligned := placed.base_aligned
  rw [regionPages_placed placed, List.pairwise_map]
  refine List.nodup_range.imp fun {first second} differ same => differ ?_
  unfold SamePage pageSize at same
  omega

/-! ### The loop of task_munmap -/

/-- The loop clears the entries of its pages and frees the frame of each. -/
theorem foldl_unmapPage {pages : List Nat}
    (apart : pages.Pairwise fun first second => ¬SamePage first second)
    (space : AddressSpace) (frames : Frames) :
    (∀ vaddr, (pages.foldl unmapPage (space, frames)).1.entry vaddr =
      if (∃ page ∈ pages, SamePage vaddr page) ∧ (space.entry vaddr).present = true then Pte.zero
      else space.entry vaddr) ∧
    (pages.foldl unmapPage (space, frames)).2 =
      ((pages.filter fun page => (space.entry page).present).map fun page =>
        (space.entry page).frame).foldl frameFree frames := by
  induction pages generalizing space frames with
  | nil => exact ⟨fun vaddr => by simp, rfl⟩
  | cons page rest inductionHypothesis =>
    obtain ⟨aloof, others⟩ := List.pairwise_cons.mp apart
    rw [List.foldl_cons]
    by_cases present : (space.entry page).present = true
    · have stepped : unmapPage (space, frames) page =
          (space.clear page, frameFree frames (space.entry page).frame) := by
        unfold unmapPage
        dsimp only
        rw [if_pos present]
        split_ifs with counted
        · rfl
        · unfold frameFree
          split_ifs <;> first | rfl | omega
      obtain ⟨entries, freed⟩ := inductionHypothesis others (space.clear page)
        (frameFree frames (space.entry page).frame)
      have kept : ∀ other ∈ rest, (space.clear page).entry other = space.entry other := by
        intro other member
        rw [entry_clear, if_neg fun both => aloof other member both.1.symm]
      rw [stepped]
      refine ⟨fun vaddr => ?_, ?_⟩
      · rw [entries, entry_clear]
        by_cases hit : SamePage vaddr page
        · rw [entry_samePage space hit]
          simp [hit, present, Pte.zero]
        · simp [hit]
      · rw [freed, List.filter_cons, if_pos present, List.map_cons, List.foldl_cons]
        have same : (rest.filter fun other => ((space.clear page).entry other).present) =
            rest.filter fun other => (space.entry other).present :=
          List.filter_congr fun other member => by rw [kept other member]
        rw [same]
        refine congrArg (List.foldl frameFree _) (List.map_congr_left fun other member => ?_)
        rw [kept other (List.mem_of_mem_filter member)]
    · have stepped : unmapPage (space, frames) page = (space, frames) := by
        unfold unmapPage
        dsimp only
        rw [if_neg present]
      obtain ⟨entries, freed⟩ := inductionHypothesis others space frames
      rw [stepped]
      refine ⟨fun vaddr => ?_, ?_⟩
      · rw [entries]
        by_cases hit : SamePage vaddr page
        · rw [entry_samePage space hit]
          simp [present]
        · simp [hit]
      · rw [freed, List.filter_cons, if_neg present]

/-! ### Flushing one region -/

theorem Flushed.refl (pageDir : Nat) (region : MmapRegion) (memory : Memory) :
    Flushed pageDir region memory memory :=
  ⟨fun _ => Or.inl rfl, fun _ _ => rfl, rfl, rfl, fun _ _ => rfl⟩

theorem flushed_mmapFlushFile {region : MmapRegion} (placed : Placed region.base region.size)
    (memory : Memory) (pageDir : Nat) (io : FlushIo) :
    Flushed pageDir region memory (mmapFlushFile memory pageDir region io).1 := by
  have wrote : ∀ (data : Nat → UInt8) (node : Nat), node ≠ region.vfsNode.toNat →
      (memory.setData region.vfsNode.toNat data).nodes node = memory.nodes node :=
    fun data node apart => update_of_ne apart _ _
  unfold mmapFlushFile
  dsimp only
  split
  · exact Flushed.refl _ _ _
  · split
    · exact ⟨fun _ => Or.inl rfl, fun _ _ => rfl, rfl, rfl, fun _ _ => rfl⟩
    · split
      · exact Flushed.refl _ _ _
      · split
        · exact Flushed.refl _ _ _
        · split
          · exact ⟨fun _ => Or.inl rfl, fun _ _ => rfl, rfl, rfl, wrote _⟩
          · refine ⟨fun vaddr => ?_, fun other apart => update_of_ne apart _ _, rfl, rfl,
              wrote _⟩
            simp only [clearDirty, Memory.setSpace, update_self]
            rcases @entry_foldl_makeRo pageDir region
              (writtenPages memory region (nodeSize memory region.vfsNode))
              (memory.spaces pageDir) vaddr with same | ⟨⟨page, member, hit⟩, present, lowered⟩
            · exact Or.inl same
            · exact Or.inr ⟨pages_inRegion placed (List.mem_of_mem_filter member) hit, present,
                lowered⟩

theorem Flushed.present {pageDir : Nat} {region : MmapRegion} {before after : Memory}
    (flushed : Flushed pageDir region before after) (vaddr : Nat) :
    ((after.spaces pageDir).entry vaddr).present =
      ((before.spaces pageDir).entry vaddr).present ∧
    ((after.spaces pageDir).entry vaddr).frame = ((before.spaces pageDir).entry vaddr).frame := by
  rcases flushed.entries vaddr with same | ⟨_, _, lowered⟩
  · rw [same]
    exact ⟨rfl, rfl⟩
  · rw [lowered]
    exact ⟨rfl, rfl⟩

theorem Flushed.regionFrames {pageDir : Nat} {region : MmapRegion} {before after : Memory}
    (flushed : Flushed pageDir region before after) :
    regionFrames (after.spaces pageDir) region = regionFrames (before.spaces pageDir) region := by
  unfold Sched.regionFrames
  simp only [(flushed.present _).1, (flushed.present _).2]

/-! ### Releasing one region -/

theorem released_taskMunmap {kernel : Kernel} (tables : RegularTables kernel) (memory : Memory)
    {cid tid addr slot : Nat} (io : FlushIo) {region : MmapRegion}
    (current : kernel.currentTask cid = some tid)
    (found : regionSlot (kernel.tasks tid).mmapRegions addr = some slot)
    (live : LiveRegion kernel tid addr slot region) :
    Released kernel memory tid slot region (taskMunmap kernel memory cid addr io) := by
  have member := List.mem_of_getElem? live.listed
  have placed := (tables tid).placed region member (by rw [live.base]; exact live.live)
  have shown : (kernel.tasks tid).mmapRegions.getD slot MmapRegion.empty = region := by
    rw [List.getD_eq_getElem?_getD, live.listed, Option.getD_some]
  obtain ⟨flushed, written, settled⟩ : ∃ flushed : Memory,
      Flushed (kernel.tasks tid).pageDir region memory flushed ∧
      (region.mapFlags ≠ mmapFileShared → flushed = memory) ∧
      flushed = if region.mapFlags = mmapFileShared then
        (mmapFlushFile memory (kernel.tasks tid).pageDir region io).1 else memory := by
    refine ⟨_, ?_, fun other => if_neg other, rfl⟩
    split_ifs
    · exact flushed_mmapFlushFile placed memory _ io
    · exact Flushed.refl _ _ _
  obtain ⟨entries, freed⟩ := foldl_unmapPage (regionPages_apart placed)
    (flushed.spaces (kernel.tasks tid).pageDir) flushed.frames
  have result : taskMunmap kernel memory cid addr io =
      (setRegion kernel tid slot MmapRegion.empty,
        { flushed.setSpace (kernel.tasks tid).pageDir
            ((regionPages region.base region.size).foldl unmapPage
              (flushed.spaces (kernel.tasks tid).pageDir, flushed.frames)).1 with
          frames := ((regionPages region.base region.size).foldl unmapPage
            (flushed.spaces (kernel.tasks tid).pageDir, flushed.frames)).2 }, 1) := by
    unfold taskMunmap
    rw [current]
    dsimp only
    rw [found]
    dsimp only
    rw [shown, ← settled.2, live.base]
  rw [result]
  refine ⟨rfl, rfl, fun vaddr => ?_, fun other apart => ?_, fun frame => ?_, fun node apart => ?_⟩
  · dsimp only [Memory.setSpace]
    rw [update_self, entries]
    refine ⟨fun both => ?_, fun outside => ?_⟩
    · exact if_pos ⟨(regionPages_inRegion placed vaddr).mpr both.1,
        (written.present vaddr).1.trans both.2⟩
    · rw [if_neg fun both => outside ⟨(regionPages_inRegion placed vaddr).mp both.1,
        (written.present vaddr).1.symm.trans both.2⟩]
      rcases written.entries vaddr with same | ⟨inside, present, _⟩
      · exact same
      · exact absurd ⟨inside, present⟩ outside
  · exact (update_of_ne apart _ _).trans (written.spaces other apart)
  · dsimp only
    rw [freed, refs_foldl_frameFree, ← written.regionFrames, ← written.frames]
    rfl
  · by_cases file : region.mapFlags = mmapFileShared
    · exact written.files node (apart file)
    · rw [← settled.1 file]
      rfl

/-- The slot a lookup finds holds a region with the address as its base. -/
theorem regionSlot_spec {regions : List MmapRegion} {addr slot : Nat}
    (found : regionSlot regions addr = some slot) :
    ∃ region, regions[slot]? = some region ∧ region.base = addr := by
  obtain ⟨inside, based, _⟩ := List.findIdx?_eq_some_iff_getElem.mp found
  exact ⟨_, List.getElem?_eq_getElem inside, of_decide_eq_true based⟩

theorem regionSlot_none {regions : List MmapRegion} {addr : Nat}
    (missing : regionSlot regions addr = none) {region : MmapRegion} (member : region ∈ regions) :
    region.base ≠ addr := by
  intro based
  have refused := List.findIdx?_eq_none_iff.mp missing region member
  simp [based] at refused

/-! ### task_munmap and task_msync -/

/-- In every reachable state, for every memory and every address: `task_munmap` and `task_msync`
keep to a live region of the caller exactly when the address is not 0 or no slot of the caller
is free. -/
theorem munmap_exact_iff {userland : Userland}
    (reachable : userSystem.Reachable Transition.anyStep userland) {cid tid : Nat}
    (current : userland.kernel.currentTask cid = some tid) (memory : Memory) (addr : Nat)
    (io : FlushIo) :
    (MunmapExact userland.kernel memory tid addr (taskMunmap userland.kernel memory cid addr io) ∧
      MsyncExact userland.kernel memory tid addr (taskMsync userland.kernel memory cid addr io)) ↔
      addr ≠ 0 ∨ ∀ region ∈ (userland.kernel.tasks tid).mmapRegions, region.base ≠ 0 := by
  have tables := regularTables_reachable reachable
  constructor
  · rintro ⟨exact, _⟩
    by_contra neither
    simp only [ne_eq, not_or, not_not, not_forall] at neither
    obtain ⟨rfl, region, member, free⟩ := neither
    rcases exact with unchanged | ⟨_, _, live, _⟩
    · have refused : regionSlot (userland.kernel.tasks tid).mmapRegions 0 ≠ none :=
        fun missing => regionSlot_none missing member free
      obtain ⟨slot, found⟩ := Option.ne_none_iff_exists'.mp refused
      have returned := congrArg (fun result : Kernel × Memory × Nat => result.2.2) unchanged
      unfold taskMunmap at returned
      rw [current] at returned
      dsimp only at returned
      rw [found] at returned
      exact absurd returned (by simp)
    · exact live.live rfl
  · intro allowed
    cases found : regionSlot (userland.kernel.tasks tid).mmapRegions addr with
    | none =>
      refine ⟨Or.inl ?_, Or.inl ?_⟩
      · unfold taskMunmap
        rw [current]
        dsimp only
        rw [found]
      · unfold taskMsync
        rw [current]
        dsimp only
        rw [found]
    | some slot =>
      obtain ⟨region, listed, based⟩ := regionSlot_spec found
      have member := List.mem_of_getElem? listed
      have used : addr ≠ 0 := by
        rcases allowed with positive | full
        · exact positive
        · rw [← based]
          exact full region member
      have live : LiveRegion userland.kernel tid addr slot region := ⟨listed, based, used⟩
      have placed := (tables tid).placed region member (by rw [based]; exact used)
      refine ⟨Or.inr ⟨slot, region, live, released_taskMunmap tables memory io current found live⟩,
        Or.inr ⟨slot, region, live, ?_⟩⟩
      have shown : (userland.kernel.tasks tid).mmapRegions.getD slot MmapRegion.empty = region := by
        rw [List.getD_eq_getElem?_getD, listed, Option.getD_some]
      unfold taskMsync
      rw [current]
      dsimp only
      rw [found]
      dsimp only
      rw [shown]
      split
      · exact ⟨Flushed.refl _ _ _, fun _ => rfl⟩
      · rename_i other
        exact ⟨flushed_mmapFlushFile placed memory _ io, fun differs => absurd differs other⟩

/-! ### A stale slot -/

/-- A program that maps two pages and execs another program. -/
def staleUserland : Userland :=
  userRun oneCore (startProgram 0x300000 0x08001000 ++
    [.mmap 0 8192, .task (.execSwitch 0 0x500000),
      .task (.execRewire 0 ⟨0x08001000, [], false⟩)])

theorem staleUserland_reachable : userSystem.Reachable Transition.anyStep staleUserland :=
  userRun_reachable (by decide +kernel)

theorem staleUserland_runs : staleUserland.kernel.currentTask 0 = some 1 := by decide +kernel

/-- The kernel's table over the first pages of memory, as every address space has it. -/
def identityTable : PageTable :=
  ⟨false, fun page => ⟨true, true, false, false, false, false, false, page⟩⟩

def identitySpace : AddressSpace where
  pdpt slot := if slot = 0 then some fun index => if index = 0 then some identityTable else none
    else none
  widened := by
    intro slot directory index table reached listed
    split at reached
    · rw [← Option.some.inj reached] at listed
      dsimp only at listed
      split at listed
      · rw [← Option.some.inj listed]
        exact fun page _ user => absurd user Bool.false_ne_true
      · exact absurd listed (by simp)
    · exact absurd reached (by simp)

def identityMemory : Memory where
  spaces _ := identitySpace
  frames := ⟨fun _ => 255, fun _ => false, 20480, 32768, 20480⟩
  bytes _ := 0
  dirty _ _ := false
  nodes _ := ⟨false, 0, fun _ => 0⟩

theorem munmap_exact_iff_stale :
    (MunmapExact staleUserland.kernel identityMemory 1 0x40000000
        (taskMunmap staleUserland.kernel identityMemory 0 0x40000000 ⟨true, none, true, none⟩) ∧
      MsyncExact staleUserland.kernel identityMemory 1 0x40000000
        (taskMsync staleUserland.kernel identityMemory 0 0x40000000 ⟨true, none, true, none⟩)) ↔
      0x40000000 ≠ 0 ∨ ∀ region ∈ (staleUserland.kernel.tasks 1).mmapRegions, region.base ≠ 0 :=
  munmap_exact_iff staleUserland_reachable staleUserland_runs identityMemory 0x40000000
    ⟨true, none, true, none⟩

/-- Address 0 matches the slot the exec left: the call reports success and clears the kernel's
own mapping of the page at 0x1000. -/
theorem munmap_zero_clears_identity :
    ¬∀ (userland : Userland) (cid tid : Nat) (memory : Memory) (addr : Nat) (io : FlushIo),
      userSystem.Reachable Transition.anyStep userland →
      userland.kernel.currentTask cid = some tid →
      MunmapExact userland.kernel memory tid addr
          (taskMunmap userland.kernel memory cid addr io) ∧
        MsyncExact userland.kernel memory tid addr
          (taskMsync userland.kernel memory cid addr io) := by
  intro claimed
  have cleared : ((taskMunmap staleUserland.kernel identityMemory 0 0
      ⟨true, none, true, none⟩).2.1.spaces 0x500000).entry 0x1000 = Pte.zero := by decide +kernel
  have mapped : (identityMemory.spaces 0x500000).entry 0x1000 ≠ Pte.zero := by decide +kernel
  obtain ⟨exact, _⟩ := claimed staleUserland 0 1 identityMemory 0 ⟨true, none, true, none⟩
    staleUserland_reachable staleUserland_runs
  rcases exact with unchanged | ⟨_, _, live, _⟩
  · rw [unchanged] at cleared
    exact mapped cleared
  · exact live.live rfl

end MectovOS.Sched
