/-
This file models what happens to the memory behind the mmap regions in
src/sys/task.c: `mmap_flush_file` writes the dirty pages of a file mapping back
and makes them read-only again, `task_msync` calls it, and `task_munmap` also
releases the pages and the region slot.

What the filesystem and the kernel heap answer is an input of a flush: whether
the path of the node resolves, the buffer `kmalloc` returns with what is in it,
whether the file can be read, and what a refused write leaves of the file.
-/

import MectovOS.Task.MmapTable
import MectovOS.Vmm.Frames
import MectovOS.Vmm.Paging

namespace MectovOS.Sched

open MectovOS.Vmm Function

/-! ### Memory -/

/-- `MAX_NODES`. -/
def maxNodes : Nat := 2048

/-- A file of the VFS: its size and its bytes. -/
structure FileNode where
  inUse : Bool
  size : Nat
  data : Nat → UInt8

/-- The memory the regions reach: the address spaces by page directory, the frames, the bytes
of physical memory, the dirty bitmaps by their address, and the files. -/
structure Memory where
  spaces : Nat → AddressSpace
  frames : Frames
  bytes : Nat → UInt8
  dirty : Nat → Nat → Bool
  nodes : Nat → FileNode

def Memory.setSpace (memory : Memory) (pageDir : Nat) (space : AddressSpace) : Memory :=
  { memory with spaces := update memory.spaces pageDir space }

/-- Replace the bytes of a file; its size stays. -/
def Memory.setData (memory : Memory) (node : Nat) (data : Nat → UInt8) : Memory :=
  { memory with
    nodes := update memory.nodes node { memory.nodes node with data := data } }

/-! ### mmap_flush_file -/

/-- What the filesystem and the heap answer during a flush. -/
structure FlushIo where
  path : Bool
  buffer : Option (Nat → UInt8)
  readable : Bool
  refused : Option (Nat → UInt8)

/-- The pages of a region, by number. -/
def MmapRegion.pages (region : MmapRegion) : List Nat := List.range (region.size / 4096)

/-- The current size of the file behind a node, 0 when it is gone. -/
def nodeSize (memory : Memory) (node : Int) : Nat :=
  if 0 ≤ node ∧ node < maxNodes ∧ (memory.nodes node.toNat).inUse then
    (memory.nodes node.toNat).size
  else 0

/-- `memset` over the bitmap of a region, in whole bytes. -/
def clearDirty (memory : Memory) (region : MmapRegion) : Memory :=
  { memory with
    dirty := update memory.dirty region.dirty fun page =>
      if page < (region.size / 4096 + 7) / 8 * 8 then false
      else memory.dirty region.dirty page }

/-- The dirty pages of a region below the end of its file. -/
def writtenPages (memory : Memory) (region : MmapRegion) (fileSize : Nat) : List Nat :=
  region.pages.filter fun page => memory.dirty region.dirty page && page * 4096 < fileSize

/-- The contents a flush writes: the bytes of the file with every dirty page that is mapped
copied over them, as `mmap_copy_page_from_owner` finds it. -/
def flushImage (memory : Memory) (pageDir : Nat) (region : MmapRegion) (fileSize : Nat)
    (contents : Nat → UInt8) (offset : Nat) : UInt8 :=
  let page := offset / 4096
  let pte := (memory.spaces pageDir).entry (region.base + page * 4096)
  if page ∈ writtenPages memory region fileSize ∧ offset < fileSize ∧ pageDir ≠ 0 ∧
      pte.present = true then
    memory.bytes (pte.frame * 4096 + offset % 4096)
  else contents offset

/-- `mmap_page_make_ro`. -/
def mmapPageMakeRo (pageDir : Nat) (region : MmapRegion) (space : AddressSpace) (page : Nat) :
    AddressSpace :=
  if pageDir = 0 then space else space.protect (region.base + page * 4096)

/-- `mmap_flush_file`: the memory after the flush, and 1 when dirty pages were written back or
dropped, 0 when there were none, -1 when it failed. -/
def mmapFlushFile (memory : Memory) (pageDir : Nat) (region : MmapRegion) (io : FlushIo) :
    Memory × Int :=
  if (region.pages.any fun page => memory.dirty region.dirty page) = false then (memory, 0)
  else
    let fileSize := nodeSize memory region.vfsNode
    if fileSize = 0 then (clearDirty memory region, 1)
    else if io.path = false then (memory, -1)
    else
      match io.buffer with
      | none => (memory, -1)
      | some buffer =>
        let node := region.vfsNode.toNat
        let contents := if io.readable then (memory.nodes node).data else buffer
        match io.refused with
        | some left => (memory.setData node left, -1)
        | none =>
          let space := (writtenPages memory region fileSize).foldl (mmapPageMakeRo pageDir region)
            (memory.spaces pageDir)
          (clearDirty ((memory.setData node (flushImage memory pageDir region fileSize
            contents)).setSpace pageDir space) region, 1)

/-- `task_msync`. -/
def taskMsync (kernel : Kernel) (memory : Memory) (cid addr : Nat) (io : FlushIo) :
    Memory × Nat :=
  match kernel.currentTask cid with
  | none => (memory, 0)
  | some tid =>
    let task := kernel.tasks tid
    match regionSlot task.mmapRegions addr with
    | none => (memory, 0)
    | some slot =>
      let region := task.mmapRegions.getD slot MmapRegion.empty
      if region.mapFlags ≠ mmapFileShared then (memory, 1)
      else
        let (memory, result) := mmapFlushFile memory task.pageDir region io
        (memory, if result < 0 then 0 else 1)

/-! ### task_munmap -/

/-- Release one page: its frame loses a reference and its entry is cleared. -/
def unmapPage (state : AddressSpace × Frames) (vaddr : Nat) : AddressSpace × Frames :=
  let pte := state.1.entry vaddr
  if pte.present then
    (state.1.clear vaddr,
      if state.2.reservedPages ≤ pte.frame then frameFree state.2 pte.frame else state.2)
  else state

/-- The addresses the loop of `task_munmap` visits. -/
def regionPages (addr size : Nat) : List Nat :=
  (List.range ((add32 addr size - addr + 4095) / 4096)).map fun page => addr + 4096 * page

/-- `task_munmap`: the kernel, the memory, and 1 when a region was found. -/
def taskMunmap (kernel : Kernel) (memory : Memory) (cid addr : Nat) (io : FlushIo) :
    Kernel × Memory × Nat :=
  match kernel.currentTask cid with
  | none => (kernel, memory, 0)
  | some tid =>
    let task := kernel.tasks tid
    match regionSlot task.mmapRegions addr with
    | none => (kernel, memory, 0)
    | some slot =>
      let region := task.mmapRegions.getD slot MmapRegion.empty
      let memory :=
        if region.mapFlags = mmapFileShared then (mmapFlushFile memory task.pageDir region io).1
        else memory
      let (space, frames) := (regionPages addr region.size).foldl unmapPage
        (memory.spaces task.pageDir, memory.frames)
      (setRegion kernel tid slot MmapRegion.empty,
        { memory.setSpace task.pageDir space with frames := frames }, 1)

/-! ### What a flush changes -/

theorem entry_mmapPageMakeRo {pageDir : Nat} {region : MmapRegion} (space : AddressSpace)
    (page vaddr : Nat) :
    (mmapPageMakeRo pageDir region space page).entry vaddr = space.entry vaddr ∨
      SamePage vaddr (region.base + page * 4096) ∧ (space.entry vaddr).present = true ∧
        (mmapPageMakeRo pageDir region space page).entry vaddr =
          { space.entry vaddr with rw := false } := by
  unfold mmapPageMakeRo
  split_ifs
  · exact Or.inl rfl
  · rw [entry_protect]
    split_ifs with hit
    · rw [entry_samePage space hit.1]
      exact Or.inr ⟨hit.1, hit.2, rfl⟩
    · exact Or.inl rfl

/-- A page loses PAGE_RW in a pass over page numbers only when the pass names it. -/
theorem entry_foldl_makeRo {pageDir : Nat} {region : MmapRegion} (pages : List Nat)
    (space : AddressSpace) (vaddr : Nat) :
    (pages.foldl (mmapPageMakeRo pageDir region) space).entry vaddr = space.entry vaddr ∨
      (∃ page ∈ pages, SamePage vaddr (region.base + page * 4096)) ∧
        (space.entry vaddr).present = true ∧
        (pages.foldl (mmapPageMakeRo pageDir region) space).entry vaddr =
          { space.entry vaddr with rw := false } := by
  induction pages generalizing space with
  | nil => exact Or.inl rfl
  | cons page rest inductionHypothesis =>
    rw [List.foldl_cons]
    rcases @entry_mmapPageMakeRo pageDir region space page vaddr with
      same | ⟨hit, present, lowered⟩
    · rcases inductionHypothesis (mmapPageMakeRo pageDir region space page) with kept | changed
      · exact Or.inl (kept.trans same)
      · obtain ⟨⟨other, member, there⟩, present, lowered⟩ := changed
        rw [same] at present lowered
        exact Or.inr ⟨⟨other, List.mem_cons_of_mem _ member, there⟩, present, lowered⟩
    · rcases inductionHypothesis (mmapPageMakeRo pageDir region space page) with kept | changed
      · exact Or.inr ⟨⟨page, List.mem_cons_self, hit⟩, present, kept.trans lowered⟩
      · obtain ⟨_, _, again⟩ := changed
        rw [lowered] at again
        exact Or.inr ⟨⟨page, List.mem_cons_self, hit⟩, present, again⟩

end MectovOS.Sched
