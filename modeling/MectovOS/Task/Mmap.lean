/-
This file models how a task gets user addresses in src/sys/task.c and
src/sys/syscall.c: SYS_MALLOC moves the heap pointer, `task_mmap_reserve` and
`task_mmap_file` take a region slot and the lowest gap of the mmap window, and
RLIMIT_AS is asked first. No frame is committed here; pages are mapped on the
first access.

Addresses are machine words, so sums wrap at 2^32. The calls are assembled with
the task layer into one transition system.
-/

import MectovOS.Task.Lasting

namespace MectovOS.Sched

/-! ### Words and windows -/

/-- `MMAP_BASE`, `MMAP_END`, `MMAP_FILE_SHARED`, and the limits of SYS_MALLOC. -/
def mmapBase : Nat := 0x40000000
def mmapEnd : Nat := 0x80000000
def mmapFileShared : Nat := 1
def mallocMax : Nat := 0x1000000
def heapLimit : Nat := 0x08F00000

/-- Addition of two machine words. -/
def add32 (first second : Nat) : Nat := (first + second) % 2 ^ 32

/-- `(size + 0xFFF) & ~0xFFFu`. -/
def pageAlign (size : Nat) : Nat := add32 size 0xFFF / 4096 * 4096

/-- The size of a reservation: whole pages, at least one. -/
def reservationSize (size : Nat) : Nat := if pageAlign size = 0 then 4096 else pageAlign size

/-! ### Limits -/

/-- `task_rlimit_as_allows`: may the current task of a core commit this many bytes more? -/
def taskRlimitAsAllows (kernel : Kernel) (cid additional : Nat) : Bool :=
  match kernel.currentTask cid with
  | none => true
  | some tid =>
    let task := kernel.tasks tid
    let limit := (task.rlimits.getD rlimitAs ⟨0, 0⟩).cur
    task.uid = rootUid || (limit ≠ 0 && rlimitAsUsed task + additional ≤ limit)

/-- `task_setrlimit`. -/
def taskSetrlimit (kernel : Kernel) (cid resource : Nat) (want : Rlimit) : Kernel :=
  let tid := (kernel.currentTask cid).getD 0
  let task := kernel.tasks tid
  if task.rlimits.length ≤ resource ∨ 0x7FFFFFFF < want.max ∨ 0x7FFFFFFF < want.cur ∨
      want.max < want.cur ∨
      (task.uid ≠ rootUid ∧ (task.rlimits.getD resource ⟨0, 0⟩).max < want.max) then kernel
  else kernel.setTask tid fun task => { task with rlimits := task.rlimits.set resource want }

/-! ### Regions -/

/-- A cleared region slot. -/
def MmapRegion.empty : MmapRegion := ⟨0, 0, 0, 0, 0, 0⟩

/-- Does a range avoid every region that is in use? -/
def fitsAt (regions : List MmapRegion) (cursor size : Nat) : Bool :=
  regions.all fun region =>
    region.base = 0 ||
      !(cursor < add32 region.base region.size && region.base < add32 cursor size)

/-- The search of `mmap_region_alloc` through the window: the first argument bounds its
steps. -/
def mmapCursor (regions : List MmapRegion) (size : Nat) : Nat → Nat → Option Nat
  | 0, _ => none
  | steps + 1, cursor =>
    if fitsAt regions cursor size then some cursor
    else
      let cursor := add32 (pageAlign (add32 cursor size)) 4096
      if mmapEnd ≤ cursor then none else mmapCursor regions size steps cursor

/-- The pages of the window; every step of the search passes at least one. -/
def mmapPages : Nat := (mmapEnd - mmapBase) / 4096

/-- `mmap_region_alloc`: the first free slot and the base of the lowest gap it finds. -/
def mmapRegionAlloc (regions : List MmapRegion) (size : Nat) : Option (Nat × Nat) :=
  (regions.findIdx? fun region => region.base = 0).bind fun slot =>
    (mmapCursor regions size mmapPages mmapBase).map fun base => (slot, base)

def setRegion (kernel : Kernel) (tid slot : Nat) (region : MmapRegion) : Kernel :=
  kernel.setTask tid fun task => { task with mmapRegions := task.mmapRegions.set slot region }

/-- The checks every reservation makes before it takes a slot. -/
def mmapClaim (kernel : Kernel) (cid tid size : Nat) : Option (Nat × Nat) :=
  if mmapEnd - mmapBase < size ∨ taskRlimitAsAllows kernel cid size = false then none
  else mmapRegionAlloc (kernel.tasks tid).mmapRegions size

/-- `task_mmap_reserve`: the kernel after the call and the base it returns, 0 for none. -/
def taskMmapReserve (kernel : Kernel) (cid size : Nat) : Kernel × Nat :=
  match kernel.currentTask cid with
  | none => (kernel, 0)
  | some tid =>
    if size = 0 then (kernel, 0)
    else
      match mmapClaim kernel cid tid (reservationSize size) with
      | none => (kernel, 0)
      | some (slot, base) =>
        (setRegion kernel tid slot ⟨base, reservationSize size, 0, -1, 0, 0⟩, base)

/-- The arguments of `task_mmap_file`: the flags, the plain file the descriptor resolves to
with its current size, and what `kmalloc` returns for the dirty bitmap. -/
structure MmapFileArgs where
  flags : Nat
  node : Option (Nat × Nat)
  bitmap : Nat

/-- `task_mmap_file`. -/
def taskMmapFile (kernel : Kernel) (cid : Nat) (args : MmapFileArgs) : Kernel × Nat :=
  match kernel.currentTask cid, args.node with
  | some tid, some (node, fileSize) =>
    if args.flags ≠ mmapFileShared then (kernel, 0)
    else
      match mmapClaim kernel cid tid (reservationSize fileSize) with
      | none => (kernel, 0)
      | some (slot, base) =>
        if args.bitmap = 0 then (kernel, 0)
        else
          (setRegion kernel tid slot
            ⟨base, reservationSize fileSize, fileSize, node, mmapFileShared, args.bitmap⟩, base)
  | _, _ => (kernel, 0)

/-- The slot `task_munmap` and `task_msync` find for an address. -/
def regionSlot (regions : List MmapRegion) (addr : Nat) : Option Nat :=
  regions.findIdx? fun region => region.base = addr

/-- What `task_munmap` does to the region table. -/
def munmapTable (kernel : Kernel) (cid addr : Nat) : Kernel :=
  match kernel.currentTask cid with
  | none => kernel
  | some tid =>
    match regionSlot (kernel.tasks tid).mmapRegions addr with
    | none => kernel
    | some slot => setRegion kernel tid slot MmapRegion.empty

/-! ### SYS_MALLOC -/

/-- The end of the pages an allocation commits. -/
def mallocEnd (start size : Nat) : Nat :=
  if add32 start size % 4096 ≠ 0 then pageAlign (add32 start size) else add32 start size

/-- SYS_MALLOC; a kernel task gets what `kmalloc` returns. -/
def sysMalloc (kernel : Kernel) (cid size block : Nat) : Kernel × Nat :=
  if size = 0 ∨ mallocMax < size then (kernel, 0)
  else
    match kernel.currentTask cid with
    | none => (kernel, block)
    | some tid =>
      if (kernel.tasks tid).pageDir = 0 then (kernel, block)
      else
        let start := (kernel.tasks tid).heapPtr
        if mallocEnd start size < start ∨ heapLimit < mallocEnd start size ∨
            taskRlimitAsAllows kernel cid size = false then (kernel, 0)
        else
          (kernel.setTask tid fun task => { task with heapPtr := mallocEnd start size }, start)

/-! ### The transition system -/

/-- The task layer and the heap starts `load_mct_app` has yet to set: it makes the thread
first and sets the heap pointer of the thread afterwards. -/
structure Userland where
  kernel : Kernel
  loads : List (Nat × Nat)

/-- One critical section of the task layer, or one call that hands out addresses. -/
inductive UserLabel where
  | task (label : Label)
  | spawn (cid : Nat) (args : ThreadArgs) (heapStart : Nat)
  | heapStart (cid tid heapStart : Nat)
  | malloc (cid size block : Nat)
  | mmap (cid size : Nat)
  | mmapFile (cid : Nat) (args : MmapFileArgs)
  | munmap (cid addr : Nat)
  | setrlimit (cid resource : Nat) (want : Rlimit)

/-- The labels of the task layer that do not set a heap pointer or a region directly. -/
def Label.plain : Label → Bool
  | .set _ _ (.heapPtr _) => false
  | .set _ _ (.mmapRegion _ _) => false
  | _ => true

theorem plain_set {cid tid : Nat} {value : Attribute}
    (plain : (Label.set cid tid value).plain = true) :
    (∀ index region, value ≠ .mmapRegion index region) ∧ ∀ ptr, value ≠ .heapPtr ptr := by
  refine ⟨fun _ _ same => ?_, fun _ same => ?_⟩
  · rw [same] at plain
    exact absurd plain Bool.false_ne_true
  · rw [same] at plain
    exact absurd plain Bool.false_ne_true

/-- The heap starts a loader returns: page-aligned, at most `0x1F000000`. -/
def loadable (heapStart : Nat) : Bool := heapStart % 4096 = 0 && heapStart ≤ 0x1F000000

theorem loadable_spec {heapStart : Nat} (loaded : loadable heapStart = true) :
    heapStart % 4096 = 0 ∧ heapStart ≤ 0x1F000000 := by
  simpa [loadable] using loaded

/-- The heap starts of the images a label loads; a spawn comes with its own. -/
def Label.loadable : Label → Bool
  | .spawn _ _ => false
  | .forkExec _ args => Sched.loadable args.heapStart
  | .execRewire _ args => Sched.loadable args.heapStart
  | _ => true

/-- The thread `load_mct_app` makes for an image. -/
def spawnChild (kernel : Kernel) (cid : Nat) (args : ThreadArgs) : Option Nat :=
  (threadCreateEx (allocPageDir kernel args.pageDir) cid args).2

/-- A call of the current task that changes the kernel only. -/
def Userland.call (userland : Userland) (cid : Nat) (change : Kernel → Kernel) :
    Option Userland :=
  (caller userland.kernel cid).map fun _ =>
    { userland with kernel := change userland.kernel }

/-- One step; `none` when the label is not enabled. -/
def userStep (userland : Userland) : UserLabel → Option Userland
  | .task label =>
    if label.plain ∧ label.loadable then
      (step userland.kernel label).map fun kernel => { userland with kernel := kernel }
    else none
  | .spawn cid args heapStart =>
    if loadable heapStart then
      (step userland.kernel (.spawn cid args)).map fun kernel =>
        ⟨kernel, ((spawnChild userland.kernel cid args).map fun tid => (tid, heapStart)).toList ++
          userland.loads⟩
    else none
  | .heapStart cid tid heapStart =>
    if quiet userland.kernel cid ∧ (tid, heapStart) ∈ userland.loads then
      some ⟨setAttribute userland.kernel tid (.heapPtr heapStart),
        userland.loads.erase (tid, heapStart)⟩
    else none
  | .malloc cid size block => userland.call cid fun kernel => (sysMalloc kernel cid size block).1
  | .mmap cid size => userland.call cid fun kernel => (taskMmapReserve kernel cid size).1
  | .mmapFile cid args => userland.call cid fun kernel => (taskMmapFile kernel cid args).1
  | .munmap cid addr => userland.call cid fun kernel => munmapTable kernel cid addr
  | .setrlimit cid resource want =>
    userland.call cid fun kernel => taskSetrlimit kernel cid resource want

/-- User address spaces as a transition system. -/
def userSystem : Transition.System Userland UserLabel :=
  Transition.System.ofStep
    (fun userland => ∃ machine, userland = ⟨initTasking machine, []⟩) userStep

/-! ### Runs from boot -/

/-- User space after a history that starts at boot. -/
def userRun (machine : Machine) (history : List UserLabel) : Userland :=
  (Transition.execute userStep ⟨initTasking machine, []⟩ history).getD ⟨initTasking machine, []⟩

theorem userRun_reachable {machine : Machine} {history : List UserLabel}
    (completes : (Transition.execute userStep ⟨initTasking machine, []⟩ history).isSome = true) :
    userSystem.Reachable Transition.anyStep (userRun machine history) := by
  obtain ⟨final, run⟩ := Option.isSome_iff_exists.mp completes
  unfold userRun
  rw [run]
  exact Transition.reachable_execute (.init ⟨machine, rfl⟩) run

/-- A tick of the boot core. -/
def bootTick : UserLabel := .task (.tick 0 0x208000 false fun _ => ⟨false, true, 0xBFFFE000⟩)

/-- The history that starts one program on one core: its image ends at `heapStart`. -/
def startProgram (pageDir heapStart : Nat) : List UserLabel :=
  [.spawn 0 (threadArgs pageDir) heapStart, .heapStart 0 1 heapStart, bootTick, bootTick]

end MectovOS.Sched
