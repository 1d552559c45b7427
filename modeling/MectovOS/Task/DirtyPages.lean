/-
This file models the dirty tracking of shared file mappings in src/sys/task.c:
the page fault inside a region that maps a page or makes it writable and marks
it, fsync and sync, which flush the regions of every task that is not running,
and what fork does to mappings. A processor may switch to any task that runs
nowhere else, and other descriptors may write, grow or shrink a file at any time.

Each task has an address space of its own. What the allocators and the disk
answer is an input of each step.
-/

import MectovOS.Task.Munmap
import MectovOS.Task.AddressLimit
import MectovOS.Task.UserPointer
import MectovOS.Vmm.Clone

namespace MectovOS.Sched

open MectovOS.Vmm Function

/-! ### Page faults -/

/-- Set PAGE_RW in the entry of an address where it is present. -/
def makeWritable (space : AddressSpace) (vaddr : Nat) : AddressSpace :=
  space.modify vaddr (fun pte => { pte with rw := true }) fun _ user => user

/-- Set the mark of a page of a region. -/
def markDirty (memory : Memory) (region : MmapRegion) (page : Nat) : Memory :=
  { memory with
    dirty := update memory.dirty region.dirty
      (update (memory.dirty region.dirty) page true) }

/-- The regions that are in use as file mappings. -/
def MmapRegion.isFile (region : MmapRegion) : Bool :=
  region.base ≠ 0 && region.mapFlags = mmapFileShared

/-- What the allocator and the disk answer during a fault. -/
structure FaultIo where
  frame : Option Nat
  tables : TableFrames
  readable : Bool

/-- The bytes a fault puts into the frame of a file page at an offset of the mapping. -/
def filePageByte (memory : Memory) (region : MmapRegion) (offset address : Nat) : UInt8 :=
  let position := offset + address % pageSize
  if position < region.fileSize ∧ position < nodeSize memory region.vfsNode then
    (memory.nodes region.vfsNode.toNat).data position
  else 0

/-- Give a page of a region a frame: zeros, or the bytes of the file. -/
def fillFrame (memory : Memory) (frame : Nat) (fill : Nat → UInt8) : Memory :=
  { memory with
    frames := frameAlloc memory.frames frame
    bytes := fun address => if address / pageSize = frame then fill address
      else memory.bytes address }

/-- The region a fault address lies in. -/
def faultRegion (regions : List MmapRegion) (addr : Nat) : Option MmapRegion :=
  regions.find? fun region =>
    region.base ≠ 0 && region.base ≤ addr && addr < add32 region.base region.size

/-- `task_mmap_handle_fault` for the current task, in the address space `cr3`: the memory, and
whether the fault is resolved. -/
def taskMmapHandleFault (kernel : Kernel) (memory : Memory) (cid addr cr3 : Nat) (write nx : Bool)
    (io : FaultIo) : Memory × Bool :=
  match kernel.currentTask cid with
  | none => (memory, false)
  | some tid =>
    match faultRegion (kernel.tasks tid).mmapRegions addr with
    | none => (memory, false)
    | some region =>
      let vaddr := addr / pageSize * pageSize
      let space := memory.spaces cr3
      let offset := vaddr - region.base
      if (space.entry vaddr).present then
        if write && !(space.entry vaddr).rw then
          let memory := if region.mapFlags = mmapFileShared then
            markDirty memory region (offset / pageSize) else memory
          (memory.setSpace cr3 (makeWritable space vaddr), true)
        else (memory, true)
      else
        match io.frame with
        | none => (memory, false)
        | some frame =>
          if region.mapFlags = mmapFileShared then
            if offset < region.fileSize ∧ io.readable = false then
              ({ memory with frames := frameFree (frameAlloc memory.frames frame) frame }, false)
            else
              let filled := fillFrame memory frame (filePageByte memory region offset)
              let marked := if write then markDirty filled region (offset / pageSize) else filled
              (marked.setSpace cr3 (vmmMapPage space io.tables vaddr
                ⟨true, write, true, false, true, false, nx, frame⟩).1, true)
          else
            ((fillFrame memory frame fun _ => 0).setSpace cr3
              (vmmMapPage space io.tables vaddr
                ⟨true, true, true, false, false, false, nx, frame⟩).1, true)

/-- Resolve copy-on-write: keep the frame when it has one owner, or copy it to the new one. -/
def cowFault (memory : Memory) (cr3 vaddr : Nat) (newFrame : Option Nat) : Memory × Bool :=
  let space := memory.spaces cr3
  let pte := space.entry vaddr
  if memory.frames.refCount pte.frame = 1 then
    (memory.setSpace cr3 (space.modify vaddr
      (fun pte => { pte with cow := false, rw := true }) fun _ user => user), true)
  else
    match newFrame with
    | none => (memory, false)
    | some frame =>
      let copied := fillFrame memory frame fun address =>
        memory.bytes (pte.frame * pageSize + address % pageSize)
      ({ copied.setSpace cr3 (space.modify vaddr
          (fun pte => { pte with cow := false, rw := true, frame := frame }) fun _ user => user) with
        frames := frameFree copied.frames pte.frame }, true)

/-- A data fault of Ring 3 in the mmap window, as `isr_handler` takes it: copy-on-write first,
then a stale TLB entry, then the regions. -/
def pageFault (kernel : Kernel) (memory : Memory) (cid addr cr3 : Nat) (write nx : Bool)
    (io : FaultIo) : Memory :=
  let pte := (memory.spaces cr3).entry addr
  let resolved := if pte.present && pte.cow then cowFault memory cr3 addr io.frame
    else (memory, false)
  if resolved.2 || (write && pte.present && pte.rw && pte.user) then resolved.1
  else (taskMmapHandleFault kernel memory cid addr cr3 write nx io).1

/-! ### fsync and sync -/

/-- `task_running_on_any_cpu`. -/
def taskRunningOnAnyCpu (kernel : Kernel) (tid : Nat) : Bool :=
  (List.range maxCpus).any fun cid => kernel.currentTask cid = some tid

/-- The regions of a task that `task_sync_dirty` flushes for a caller; `node` restricts it to one
file. -/
def syncRegions (kernel : Kernel) (self : Option Nat) (node : Option Int) (tid : Nat) :
    List MmapRegion :=
  let task := kernel.tasks tid
  if task.isIdle || task.pageDir = 0 || task.state = .free || task.state = .zombie ||
      (self ≠ some tid && taskRunningOnAnyCpu kernel tid) then []
  else task.mmapRegions.filter fun region =>
    region.isFile && region.dirty ≠ 0 && node.all fun node => region.vfsNode = node

/-- The regions of all tasks a sync flushes, each with the directory of its owner. -/
def syncTargets (kernel : Kernel) (cid : Nat) (node : Option Int) : List (Nat × MmapRegion) :=
  (List.range maxTasks).flatMap fun tid =>
    (syncRegions kernel (kernel.currentTask cid) node tid).map fun region =>
      ((kernel.tasks tid).pageDir, region)

/-- `task_sync_dirty`; the answers of the filesystem are given for each region. -/
def taskSyncDirty (kernel : Kernel) (memory : Memory) (cid : Nat) (node : Option Int)
    (io : Nat → MmapRegion → FlushIo) : Memory :=
  (syncTargets kernel cid node).foldl
    (fun memory target => (mmapFlushFile memory target.1 target.2 (io target.1 target.2)).1) memory

/-! ### fork -/

/-- No file mapping has its bitmap at this address. -/
def bitmapFree (kernel : Kernel) (address : Nat) : Bool :=
  (List.range maxTasks).all fun tid =>
    (kernel.tasks tid).mmapRegions.all fun region => !region.isFile || region.dirty ≠ address

/-- `kmalloc` returns memory that nothing uses: bitmaps differ from each other and from those
in use. -/
def bitmapsFresh (kernel : Kernel) (bitmap : Nat → Nat) : Bool :=
  (List.range mmapMaxRegions).all fun slot =>
    bitmap slot = 0 || (bitmapFree kernel (bitmap slot) &&
      (List.range mmapMaxRegions).all fun other => slot = other || bitmap slot ≠ bitmap other)

/-- A directory that came from `vmm_clone_address_space` lies in a frame no task uses. -/
def directoryFresh (kernel : Kernel) (pageDir : Nat) : Bool :=
  pageDir ≠ 0 && (List.range maxTasks).all fun tid =>
    (kernel.tasks tid).pageDir / 4096 ≠ pageDir / 4096

/-- The child's bitmaps are copies of the bitmaps of its parent. -/
def copyBitmaps (memory : Memory) (regions : List MmapRegion) (bitmap : Nat → Nat) : Memory :=
  { memory with
    dirty := (regions.zipIdx.filter fun pair => pair.1.isFile && bitmap pair.2 ≠ 0).foldl
      (fun dirty pair => update dirty (bitmap pair.2) (memory.dirty pair.1.dirty))
      memory.dirty }

/-- `fork_common` with the clone of the address space: no clone is made for a task that may not
fork, and without a slot the clone is given back. -/
def forkMemory (boot : BootTables) (kernel : Kernel) (memory : Memory) (cid : Nat)
    (args : ForkArgs) (io : CloneIo) : Kernel × Memory :=
  match kernel.currentTask cid with
  | none => (kernel, memory)
  | some parent =>
    if parent = 0 ∨ rlimitNprocAllows kernel parent = false then (kernel, memory)
    else
      let source := (kernel.tasks parent).pageDir
      let result := vmmCloneAddressSpace boot (memory.spaces source) memory.frames memory.bytes io
      let marked := { memory.setSpace source result.source with
        frames := result.frames, bytes := result.bytes }
      match result.child with
      | none => (kernel, marked)
      | some child =>
        match forkCommon kernel cid args with
        | (next, none) =>
          (next, { marked with frames := Vmm.vmmFreeAddressSpace boot marked.frames child })
        | (next, some _) =>
          (next, copyBitmaps (marked.setSpace args.clone child) (kernel.tasks parent).mmapRegions
            args.bitmap)

/-! ### The transition system -/

structure FileState where
  kernel : Kernel
  memory : Memory

/-- One step: a processor goes to another task, a call of a current task, a fault or a store in
Ring 3, or a change of a file by other means. -/
inductive FileLabel where
  | run (cid : Nat) (tid : Option Nat)
  | mmap (cid size : Nat)
  | mmapFile (cid : Nat) (args : MmapFileArgs)
  | munmap (cid addr : Nat) (io : FlushIo)
  | fault (cid addr : Nat) (write nx : Bool) (io : FaultIo)
  | store (cid addr : Nat) (value : UInt8)
  | msync (cid addr : Nat) (io : FlushIo)
  | sync (cid : Nat) (node : Option Int) (io : Nat → MmapRegion → FlushIo)
  | fork (cid : Nat) (args : ForkArgs) (io : CloneIo)
  | resize (node : Nat) (file : FileNode)

/-- The current task of a core, when it runs in Ring 3. -/
def userTask (kernel : Kernel) (cid : Nat) : Option Nat :=
  (kernel.currentTask cid).filter fun tid => !taskInKernelSpace kernel tid

/-- A page that Ring 3 may write to. -/
def userWritable (space : AddressSpace) (vaddr : Nat) : Bool :=
  userMapped space vaddr && (space.entry vaddr).rw

/-- One step; `none` when the label is not enabled. -/
def fileStep (boot : BootTables) (state : FileState) : FileLabel → Option FileState
  | .run cid tid =>
    if cid < maxCpus ∧
        (tid.all fun tid => tid < maxTasks && !taskRunningOnAnyCpu state.kernel tid) then
      some ⟨{ state.kernel with
        currentTask := update state.kernel.currentTask cid tid }, state.memory⟩
    else none
  | .mmap cid size => some ⟨(taskMmapReserve state.kernel cid size).1, state.memory⟩
  | .mmapFile cid args =>
    if bitmapFree state.kernel args.bitmap ∧ (args.node.all fun (node, size) =>
        (state.memory.nodes node).inUse && (state.memory.nodes node).size = size) then
      let result := taskMmapFile state.kernel cid args
      some ⟨result.1, if result.2 = 0 then state.memory else { state.memory with
        dirty := update state.memory.dirty args.bitmap fun _ => false }⟩
    else none
  | .munmap cid addr io =>
    let result := taskMunmap state.kernel state.memory cid addr io
    some ⟨result.1, result.2.1⟩
  | .fault cid addr write nx io =>
    (userTask state.kernel cid).bind fun tid =>
      if mmapBase ≤ addr ∧ addr < mmapEnd then
        some ⟨state.kernel, pageFault state.kernel state.memory cid addr
          (state.kernel.tasks tid).pageDir write nx io⟩
      else none
  | .store cid addr value =>
    (userTask state.kernel cid).bind fun tid =>
      let space := state.memory.spaces (state.kernel.tasks tid).pageDir
      if userWritable space addr then
        some ⟨state.kernel, { state.memory with
          bytes := update state.memory.bytes
            ((space.entry addr).frame * pageSize + addr % pageSize) value }⟩
      else none
  | .msync cid addr io =>
    some ⟨state.kernel, (taskMsync state.kernel state.memory cid addr io).1⟩
  | .sync cid node io =>
    some ⟨state.kernel, taskSyncDirty state.kernel state.memory cid node io⟩
  | .fork cid args io =>
    if directoryFresh state.kernel args.clone ∧ bitmapsFresh state.kernel args.bitmap then
      (userTask state.kernel cid).map fun _ =>
        let result := forkMemory boot state.kernel state.memory cid args io
        ⟨result.1, result.2⟩
    else none
  | .resize node file =>
    some ⟨state.kernel, { state.memory with
      nodes := update state.memory.nodes node file }⟩

/-- No task has a region yet, no task shares its address space, and the space of a task has no
user page in the mmap window and above. -/
structure FileStart (state : FileState) : Prop where
  tables : ∀ tid, (state.kernel.tasks tid).mmapRegions =
    List.replicate mmapMaxRegions MmapRegion.empty
  alone : ∀ tid other, tid ≠ other → other < maxTasks →
    taskInKernelSpace state.kernel tid = false →
    (state.kernel.tasks other).pageDir ≠ (state.kernel.tasks tid).pageDir
  seated : ∀ cid tid, state.kernel.currentTask cid = some tid → tid < maxTasks
  unmapped : ∀ tid < maxTasks, ∀ vaddr, mmapBase ≤ vaddr →
    userMapped (state.memory.spaces (state.kernel.tasks tid).pageDir) vaddr = false

/-- Shared file mappings as a transition system. -/
def fileSystem (boot : BootTables) : Transition.System FileState FileLabel :=
  Transition.System.ofStep FileStart (fileStep boot)

/-! ### The statement -/

/-- Every page of a file mapping that its task may write to and that lies below the end of the
file is marked, so that a flush that succeeds leaves what was stored there in the file. -/
structure DirtyTracked (state : FileState) : Prop where
  marked : ∀ tid < maxTasks, ∀ region ∈ (state.kernel.tasks tid).mmapRegions,
    region.isFile = true → ∀ page < region.size / pageSize,
    page * pageSize < nodeSize state.memory region.vfsNode →
    userWritable (state.memory.spaces (state.kernel.tasks tid).pageDir)
      (region.base + page * pageSize) = true →
    state.memory.dirty region.dirty page = true
  saved : ∀ tid < maxTasks, ∀ region ∈ (state.kernel.tasks tid).mmapRegions,
    region.isFile = true → ∀ io,
    0 ≤ (mmapFlushFile state.memory (state.kernel.tasks tid).pageDir region io).2 →
    ∀ offset < nodeSize state.memory region.vfsNode, offset / pageSize < region.size / pageSize →
    userWritable (state.memory.spaces (state.kernel.tasks tid).pageDir)
      (region.base + offset / pageSize * pageSize) = true →
    (((mmapFlushFile state.memory (state.kernel.tasks tid).pageDir region io).1.nodes
        region.vfsNode.toNat).data offset) =
      state.memory.bytes (((state.memory.spaces (state.kernel.tasks tid).pageDir).entry
        (region.base + offset / pageSize * pageSize)).frame * pageSize + offset % pageSize)

/-- Every marked page of a region lies below the end of its file, so that a flush drops no mark
without taking PAGE_RW. -/
def keepsMarks (memory : Memory) (region : MmapRegion) : Bool :=
  region.pages.all fun page =>
    !memory.dirty region.dirty page || page * pageSize < nodeSize memory region.vfsNode

/-- No page of a region is mapped. -/
def regionUnmapped (space : AddressSpace) (region : MmapRegion) : Bool :=
  region.pages.all fun page => !userMapped space (region.base + page * pageSize)

/-- A flush meets no marked page past the end of the file, and a fork finds memory for the bitmap
of every file mapping that has a page. -/
def marksKept (state : FileState) : FileLabel → Bool
  | .msync cid addr _ =>
    match state.kernel.currentTask cid with
    | none => true
    | some tid =>
      match regionSlot (state.kernel.tasks tid).mmapRegions addr with
      | none => true
      | some slot =>
        keepsMarks state.memory
          ((state.kernel.tasks tid).mmapRegions.getD slot MmapRegion.empty)
  | .sync cid node _ =>
    (syncTargets state.kernel cid node).all fun target => keepsMarks state.memory target.2
  | .fork cid args _ =>
    match state.kernel.currentTask cid with
    | none => true
    | some parent =>
      (state.kernel.tasks parent).mmapRegions.zipIdx.all fun pair =>
        !pair.1.isFile || args.bitmap pair.2 ≠ 0 ||
          regionUnmapped (state.memory.spaces (state.kernel.tasks parent).pageDir) pair.1
  | _ => true

end MectovOS.Sched
