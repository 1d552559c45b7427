/-
This file models `mmap_flush_file` of src/sys/task.c with every answer that
`vfs_read_file` and `vfs_write_file` of src/sys/vfs.c may give it. The flush
reads the file into a heap buffer that nobody clears, ignores how much was read,
copies the dirty pages over it, writes the buffer back, and ignores how much was
written. So a file keeps the bytes the mapping does not own when the read filled
them, and only then.

An answer that is full or a refusal gives the flush of the other file mapping
modules.
-/

import MectovOS.Task.FileMapping
import MectovOS.Task.UserPointer

namespace MectovOS.Sched

open MectovOS.Vmm Function

/-! ### Answers of the VFS -/

/-- How `vfs_read_file` ends: with the whole file, with its first bytes, or with an error. -/
inductive ReadOutcome where
  | full
  | short (count : Nat)
  | failed

/-- The buffer after the read. A short read ends it with a zero byte. -/
def ReadOutcome.fill (data heap : Nat → UInt8) : ReadOutcome → Nat → UInt8
  | .full => data
  | .short count => fun offset =>
    if offset < count then data offset else if offset = count then 0 else heap offset
  | .failed => heap

/-- How `vfs_write_file` ends: with the bytes it wrote, which are the size of the file from
then on, or refused, with what it leaves of the file. -/
inductive WriteOutcome where
  | wrote (count : Nat)
  | refused (left : FileNode)

/-- What the VFS and the kernel heap answer during a flush. -/
structure VfsIo where
  path : Bool
  heap : Option (Nat → UInt8)
  read : ReadOutcome
  write : WriteOutcome

def Memory.setNode (memory : Memory) (node : Nat) (file : FileNode) : Memory :=
  { memory with nodes := update memory.nodes node file }

/-! ### mmap_flush_file -/

/-- Some page of the region is dirty. -/
def anyDirty (memory : Memory) (region : MmapRegion) : Bool :=
  region.pages.any fun page => memory.dirty region.dirty page

/-- The address space after the pages that were written are read-only again. -/
def rearmed (memory : Memory) (pageDir : Nat) (region : MmapRegion) (fileSize : Nat) :
    AddressSpace :=
  (writtenPages memory region fileSize).foldl (mmapPageMakeRo pageDir region)
    (memory.spaces pageDir)

/-- `mmap_flush_file` with the answers of the VFS. -/
def flushFile (memory : Memory) (pageDir : Nat) (region : MmapRegion) (io : VfsIo) :
    Memory × Int :=
  if anyDirty memory region = false then (memory, 0)
  else
    let fileSize := nodeSize memory region.vfsNode
    if fileSize = 0 then (clearDirty memory region, 1)
    else if io.path = false then (memory, -1)
    else
      match io.heap with
      | none => (memory, -1)
      | some heap =>
        let node := region.vfsNode.toNat
        let file := memory.nodes node
        match io.write with
        | .refused left => (memory.setNode node left, -1)
        | .wrote count =>
          let written := flushImage memory pageDir region fileSize (io.read.fill file.data heap)
          (clearDirty ((memory.setNode node { file with size := count, data := written }).setSpace
            pageDir (rearmed memory pageDir region fileSize)) region, 1)

/-- The answers of a flush that reads and writes the whole file or is refused. -/
def FlushIo.answers (io : FlushIo) (file : FileNode) : VfsIo where
  path := io.path
  heap := io.buffer
  read := if io.readable then .full else .failed
  write :=
    match io.refused with
    | some left => .refused { file with data := left }
    | none => .wrote file.size

theorem nodeSize_of_pos {memory : Memory} {node : Int} (sized : nodeSize memory node ≠ 0) :
    nodeSize memory node = (memory.nodes node.toNat).size := by
  unfold nodeSize at sized ⊢
  split_ifs at sized ⊢ with there
  · rfl
  · exact absurd rfl sized

/-! ### What a flush should leave -/

/-- Two files have the same bytes. -/
structure SameFile (first second : FileNode) : Prop where
  size : second.size = first.size
  data : ∀ offset, offset < first.size → second.data offset = first.data offset

/-- The file with its dirty pages from the mapping, and its other bytes as they were. -/
def writtenBack (memory : Memory) (pageDir : Nat) (region : MmapRegion) : FileNode :=
  let file := memory.nodes region.vfsNode.toNat
  { file with
    data := flushImage memory pageDir region (nodeSize memory region.vfsNode) file.data }

/-- A flush fails and leaves the file alone, or the file is written back. -/
def Preserves (memory : Memory) (pageDir : Nat) (region : MmapRegion) (result : Memory × Int) :
    Prop :=
  let node := region.vfsNode.toNat
  (result.2 = -1 ∧ SameFile (memory.nodes node) (result.1.nodes node)) ∨
    SameFile (writtenBack memory pageDir region) (result.1.nodes node)

/-- The flush takes this byte of the file from the mapping. -/
def owned (memory : Memory) (pageDir : Nat) (region : MmapRegion) (offset : Nat) : Bool :=
  let page := offset / 4096
  decide (page ∈ writtenPages memory region (nodeSize memory region.vfsNode)) && pageDir ≠ 0 &&
    ((memory.spaces pageDir).entry (region.base + page * 4096)).present

theorem SameFile.refl (file : FileNode) : SameFile file file := ⟨rfl, fun _ _ => rfl⟩

theorem flushImage_owned {memory : Memory} {pageDir : Nat} {region : MmapRegion} {offset : Nat}
    (below : offset < nodeSize memory region.vfsNode)
    (mine : owned memory pageDir region offset = true) (first second : Nat → UInt8) :
    flushImage memory pageDir region (nodeSize memory region.vfsNode) first offset =
      flushImage memory pageDir region (nodeSize memory region.vfsNode) second offset := by
  unfold owned at mine
  rw [Bool.and_eq_true, Bool.and_eq_true, decide_eq_true_eq, decide_eq_true_eq] at mine
  unfold flushImage
  dsimp only
  rw [if_pos ⟨mine.1.1, below, mine.1.2, mine.2⟩, if_pos ⟨mine.1.1, below, mine.1.2, mine.2⟩]

theorem flushImage_other {memory : Memory} {pageDir : Nat} {region : MmapRegion} {offset : Nat}
    (other : owned memory pageDir region offset = false) (contents : Nat → UInt8) :
    flushImage memory pageDir region (nodeSize memory region.vfsNode) contents offset =
      contents offset := by
  unfold flushImage
  refine if_neg fun mine => ?_
  have taken : owned memory pageDir region offset = true := by
    unfold owned
    rw [Bool.and_eq_true, Bool.and_eq_true, decide_eq_true_eq, decide_eq_true_eq]
    exact ⟨⟨mine.1, mine.2.2.1⟩, mine.2.2.2⟩
  exact absurd (other.symm.trans taken) Bool.false_ne_true

/-- With nothing to write, a file that is written back is the file. -/
theorem writtenBack_same {memory : Memory} {pageDir : Nat} {region : MmapRegion}
    (nothing : anyDirty memory region = false ∨ nodeSize memory region.vfsNode = 0) :
    writtenBack memory pageDir region = memory.nodes region.vfsNode.toNat := by
  have none : writtenPages memory region (nodeSize memory region.vfsNode) = [] := by
    refine List.filter_eq_nil_iff.mpr fun page member => ?_
    rw [Bool.and_eq_true, decide_eq_true_eq]
    rcases nothing with clean | empty
    · exact fun both => List.any_eq_false.mp clean page member both.1
    · rw [empty]
      exact fun both => Nat.not_lt_zero _ both.2
  unfold writtenBack
  dsimp only
  have data : flushImage memory pageDir region (nodeSize memory region.vfsNode)
      (memory.nodes region.vfsNode.toNat).data = (memory.nodes region.vfsNode.toNat).data := by
    funext offset
    refine flushImage_other ?_ _
    unfold owned
    rw [none]
    rfl
  rw [data]

/-! ### When a flush preserves its file -/

/-- The answers under which a flush that gets as far as writing preserves the file: it is
refused and leaves the file as it was or written back, or the write is full and the read left
the bytes of the file wherever the mapping has none. -/
def keepsFile (memory : Memory) (pageDir : Nat) (region : MmapRegion) (io : VfsIo)
    (heap : Nat → UInt8) : Prop :=
  let file := memory.nodes region.vfsNode.toNat
  match io.write with
  | .refused left => SameFile file left ∨ SameFile (writtenBack memory pageDir region) left
  | .wrote count => count = file.size ∧ ∀ offset, offset < file.size →
    owned memory pageDir region offset = false → io.read.fill file.data heap offset =
      file.data offset

/-- The flush stops before it writes, or the answers keep the file. -/
def Flushable (memory : Memory) (pageDir : Nat) (region : MmapRegion) (io : VfsIo) : Prop :=
  anyDirty memory region = false ∨ nodeSize memory region.vfsNode = 0 ∨ io.path = false ∨
    ∀ heap, io.heap = some heap → keepsFile memory pageDir region io heap

theorem wrote_iff {memory : Memory} {pageDir : Nat} {region : MmapRegion}
    (sized : nodeSize memory region.vfsNode ≠ 0) (count : Nat) (contents : Nat → UInt8) :
    SameFile (writtenBack memory pageDir region)
        { memory.nodes region.vfsNode.toNat with
          size := count
          data := flushImage memory pageDir region (nodeSize memory region.vfsNode) contents } ↔
      count = (memory.nodes region.vfsNode.toNat).size ∧
        ∀ offset, offset < (memory.nodes region.vfsNode.toNat).size →
          owned memory pageDir region offset = false →
          contents offset = (memory.nodes region.vfsNode.toNat).data offset := by
  have size := nodeSize_of_pos sized
  constructor
  · intro same
    refine ⟨same.size, fun offset below other => ?_⟩
    have byte : flushImage memory pageDir region (nodeSize memory region.vfsNode) contents offset =
        flushImage memory pageDir region (nodeSize memory region.vfsNode)
          (memory.nodes region.vfsNode.toNat).data offset := same.data offset below
    rwa [flushImage_other other, flushImage_other other] at byte
  · rintro ⟨full, filled⟩
    refine ⟨full, fun offset below => ?_⟩
    show flushImage memory pageDir region (nodeSize memory region.vfsNode) contents offset =
      flushImage memory pageDir region (nodeSize memory region.vfsNode)
        (memory.nodes region.vfsNode.toNat).data offset
    cases mine : owned memory pageDir region offset with
    | true => exact flushImage_owned (size.symm ▸ below) mine _ _
    | false => rw [flushImage_other mine, flushImage_other mine, filled offset below mine]

/-- A file of 5000 bytes whose first page is mapped and dirty. -/
def dirtyMemory : Memory where
  spaces _ := fileSpace
  frames := ⟨fun _ => 1, fun _ => false, 20480, 32768, 20480⟩
  bytes _ := 7
  dirty _ page := page = 0
  nodes _ := ⟨true, 5000, fun _ => 1⟩

/-- Its mapping. -/
def dirtyRegion : MmapRegion := ⟨0x40000000, 8192, 5000, 10, mmapFileShared, 0x500000⟩

/-- The read fails, and the write does not. -/
def failedRead : VfsIo := ⟨true, some fun _ => 0xAA, .failed, .wrote 5000⟩

end MectovOS.Sched
