/-
This file models the check of user pointers in src/sys/syscall.c:
`validate_user_ptr` walks the pages of a buffer, and `user_page_ok` accepts a
page that is mapped for user mode or can be faulted in. A store of the kernel to
an accepted page may still fault; src/sys/idt.c resolves such a fault at CPL 0
for copy-on-write pages only. So a buffer is safe to store to when the pages of
it that were mapped before are writable or copy-on-write.

What the frame allocator answers for each page is an input of the check.
-/

import MectovOS.Task.FileMapping

namespace MectovOS.Sched

open MectovOS.Vmm

/-! ### Windows -/

/-- `USER_MEM_LIMIT` and `USER_PTR_MAX_SIZE`. -/
def userMemLimit : Nat := 0x10000000
def userPtrMaxSize : Nat := 0x1000000

/-- `USER_STACK_TOP` and `USER_STACK_SIZE`. -/
def userStackTop : Nat := 0x1F000000
def userStackSize : Nat := 0x10000

/-- The top of the stack window of a task. -/
def stackTop (tid : Nat) : Nat := userStackTop - (tid + 1) * userStackSize

/-! ### user_page_ok -/

/-- The walk finds PAGE_PRESENT and PAGE_USER at every level. -/
def userMapped (space : AddressSpace) (vaddr : Nat) : Bool :=
  match space.table vaddr with
  | none => false
  | some table =>
    table.user && (table.entries (ptIndex vaddr)).present && (table.entries (ptIndex vaddr)).user

/-- What the allocator answers when a page is faulted in. -/
structure PageIo where
  frame : Option Nat
  tables : TableFrames

/-- A private page of data. -/
def dataPte (nx : Bool) (frame : Nat) : Pte := ⟨true, true, true, false, false, false, nx, frame⟩

/-- Map a zeroed frame at a page. -/
def faultIn (memory : Memory) (pageDir vaddr : Nat) (nx : Bool) (io : PageIo) : Memory × Bool :=
  match io.frame with
  | none => (memory, false)
  | some frame =>
    let memory := { memory with
      frames := frameAlloc memory.frames frame
      bytes := fun address => if address / pageSize = frame then 0 else memory.bytes address }
    match vmmMapPage (memory.spaces pageDir) io.tables vaddr (dataPte nx frame) with
    | (space, true) => (memory.setSpace pageDir space, true)
    | (space, false) =>
      ({ memory.setSpace pageDir space with frames := frameFree memory.frames frame }, false)

/-- `user_page_ok` for the page at an address. -/
def userPageOk (memory : Memory) (pageDir vaddr heapTop tid : Nat) (nx : Bool) (io : PageIo) :
    Memory × Bool :=
  if userMapped (memory.spaces pageDir) vaddr then (memory, true)
  else if userHeapBase ≤ vaddr ∧ vaddr < heapTop then faultIn memory pageDir vaddr nx io
  else if stackTop tid - userStackSize ≤ vaddr ∧ vaddr < stackTop tid then
    faultIn memory pageDir vaddr nx io
  else (memory, false)

/-! ### validate_user_ptr -/

/-- The pages of a buffer, by their first address. -/
def bufferPages (ptr size : Nat) : List Nat :=
  (List.range ((ptr + size - 1) / pageSize - ptr / pageSize + 1)).map fun page =>
    (ptr / pageSize + page) * pageSize

/-- The walk over the pages, up to the first that is refused. -/
def userPagesOk (pageDir heapTop tid : Nat) (nx : Bool) (io : Nat → PageIo) :
    Memory → List Nat → Memory × Bool
  | memory, [] => (memory, true)
  | memory, vaddr :: rest =>
    match userPageOk memory pageDir vaddr heapTop tid nx (io vaddr) with
    | (memory, false) => (memory, false)
    | (memory, true) => userPagesOk pageDir heapTop tid nx io memory rest

/-- `validate_user_ptr` on core `cid`. -/
def validateUserPtr (kernel : Kernel) (memory : Memory) (cid ptr size : Nat) (nx : Bool)
    (io : Nat → PageIo) : Memory × Bool :=
  let size := if size = 0 then 1 else size
  if ptr = 0 ∨ userPtrMaxSize < size ∨ add32 ptr size < ptr then (memory, false)
  else
    match kernel.currentTask cid with
    | none => (memory, add32 ptr size ≤ userMemLimit)
    | some tid =>
      if taskInKernelSpace kernel tid then (memory, add32 ptr size ≤ userMemLimit)
      else
        userPagesOk (kernel.tasks tid).pageDir (kernel.tasks tid).heapPtr tid nx io memory
          (bufferPages ptr size)

/-! ### A store of the kernel -/

/-- How a store at CPL 0 ends: it goes through, it is retried with a new entry, or the kernel
panics. -/
inductive StoreOutcome where
  | stored
  | retried (pte : Pte)
  | panicked
  deriving DecidableEq

/-- A store at CPL 0 to a page, with CR0.WP set, and the write fault it may take: of the paths
in `isr_handler` only copy-on-write is open to the kernel. The frame was allocated ahead. -/
def kernelStore (pte : Pte) (refCount : Nat) (newFrame : Option Nat) : StoreOutcome :=
  if pte.present && pte.rw then .stored
  else if pte.present && pte.cow then
    if refCount = 1 then .retried { pte with cow := false, rw := true }
    else
      match newFrame with
      | none => .panicked
      | some frame => .retried { pte with cow := false, rw := true, frame := frame }
  else .panicked

/-- A store to the page never panics when the allocator has a frame. -/
def Resolvable (pte : Pte) : Prop :=
  ∀ refCount frame, kernelStore pte refCount (some frame) ≠ .panicked

theorem resolvable_iff (pte : Pte) :
    Resolvable pte ↔ pte.present = true ∧ (pte.rw = true ∨ pte.cow = true) := by
  constructor
  · intro resolvable
    by_contra stuck
    refine resolvable 0 0 ?_
    have unwritable : ¬(pte.present && pte.rw) = true := by
      rw [Bool.and_eq_true]
      exact fun both => stuck ⟨both.1, Or.inl both.2⟩
    have uncopied : ¬(pte.present && pte.cow) = true := by
      rw [Bool.and_eq_true]
      exact fun both => stuck ⟨both.1, Or.inr both.2⟩
    unfold kernelStore
    rw [if_neg unwritable, if_neg uncopied]
  · rintro ⟨present, writable | copied⟩ refCount frame
    · simp [kernelStore, present, writable]
    · simp only [kernelStore, present, copied, Bool.true_and, if_true]
      split_ifs <;> simp

/-! ### What the walk changes -/

theorem userMapped_eq (space : AddressSpace) (vaddr : Nat) :
    userMapped space vaddr = ((space.entry vaddr).present && (space.entry vaddr).user) := by
  unfold userMapped
  cases present : (space.entry vaddr).present && (space.entry vaddr).user with
  | true =>
    obtain ⟨there, user⟩ := Bool.and_eq_true_iff.mp present
    obtain ⟨table, found, wide, same⟩ := entry_user there user
    rw [found]
    dsimp only
    rw [same, wide, there, user]
    rfl
  | false =>
    unfold AddressSpace.entry at present
    split
    · rfl
    · rename_i table found
      rw [found] at present
      dsimp only at present
      rw [Bool.and_assoc, present, Bool.and_false]

theorem userMapped_samePage (space : AddressSpace) {first second : Nat}
    (same : SamePage first second) : userMapped space first = userMapped space second := by
  rw [userMapped_eq, userMapped_eq, entry_samePage space same]

/-- Every page keeps its entry, or had none for user mode and has a writable one now. -/
def Grown (before after : AddressSpace) : Prop :=
  ∀ vaddr, after.entry vaddr = before.entry vaddr ∨
    userMapped before vaddr = false ∧ userMapped after vaddr = true ∧
      (after.entry vaddr).rw = true

theorem Grown.refl (space : AddressSpace) : Grown space space := fun _ => Or.inl rfl

theorem Grown.kept {before after : AddressSpace} (grown : Grown before after) {vaddr : Nat}
    (mapped : userMapped before vaddr = true) : after.entry vaddr = before.entry vaddr := by
  rcases grown vaddr with same | ⟨unmapped, _⟩
  · exact same
  · exact absurd (unmapped.symm.trans mapped) Bool.false_ne_true

theorem Grown.mapped {before after : AddressSpace} (grown : Grown before after) {vaddr : Nat}
    (mapped : userMapped before vaddr = true) : userMapped after vaddr = true := by
  rw [userMapped_eq, grown.kept mapped, ← userMapped_eq]
  exact mapped

theorem Grown.trans {first second third : AddressSpace} (earlier : Grown first second)
    (later : Grown second third) : Grown first third := by
  intro vaddr
  rcases later vaddr with same | ⟨unmapped, mapped, writable⟩
  · rcases earlier vaddr with old | ⟨unmapped, mapped, writable⟩
    · exact Or.inl (same.trans old)
    · exact Or.inr ⟨unmapped, later.mapped mapped, by rw [same]; exact writable⟩
  · rcases earlier vaddr with old | ⟨_, early, _⟩
    · refine Or.inr ⟨?_, mapped, writable⟩
      rw [userMapped_eq, ← old, ← userMapped_eq]
      exact unmapped
    · exact absurd (unmapped.symm.trans early) Bool.false_ne_true

/-- A page that is faulted in is mapped and writable; nothing else changes. -/
theorem grown_faultIn {memory : Memory} {pageDir vaddr : Nat} {nx : Bool} {io : PageIo}
    (unmapped : userMapped (memory.spaces pageDir) vaddr = false)
    (done : (faultIn memory pageDir vaddr nx io).2 = true) :
    Grown (memory.spaces pageDir) ((faultIn memory pageDir vaddr nx io).1.spaces pageDir) ∧
      userMapped ((faultIn memory pageDir vaddr nx io).1.spaces pageDir) vaddr = true := by
  unfold faultIn at done ⊢
  cases given : io.frame with
  | none =>
    rw [given] at done
    exact absurd done Bool.false_ne_true
  | some frame =>
    rw [given] at done
    dsimp only at done ⊢
    cases result : vmmMapPage (memory.spaces pageDir) io.tables vaddr (dataPte nx frame) with
    | mk space mapped =>
      cases mapped with
      | false =>
        rw [result] at done
        exact absurd done Bool.false_ne_true
      | true =>
        have entries := fun other => @entry_vmmMapPage (memory.spaces pageDir) io.tables vaddr
          (dataPte nx frame) (by rw [result]) other
        rw [result] at entries
        dsimp only at entries ⊢
        unfold Memory.setSpace
        dsimp only
        rw [Function.update_self]
        have here : userMapped space vaddr = true := by
          rw [userMapped_eq, entries, if_pos (show SamePage vaddr vaddr from rfl)]
          rfl
        refine ⟨fun other => ?_, here⟩
        by_cases same : SamePage other vaddr
        · refine Or.inr ⟨?_, ?_, ?_⟩
          · rw [userMapped_samePage _ same]
            exact unmapped
          · rw [userMapped_samePage _ same]
            exact here
          · rw [entries, if_pos same]
            rfl
        · rw [entries, if_neg same]
          exact Or.inl rfl

theorem grown_userPageOk {memory : Memory} {pageDir vaddr heapTop tid : Nat} {nx : Bool}
    {io : PageIo} (done : (userPageOk memory pageDir vaddr heapTop tid nx io).2 = true) :
    Grown (memory.spaces pageDir)
        ((userPageOk memory pageDir vaddr heapTop tid nx io).1.spaces pageDir) ∧
      userMapped ((userPageOk memory pageDir vaddr heapTop tid nx io).1.spaces pageDir) vaddr =
        true := by
  unfold userPageOk at done ⊢
  split_ifs at done ⊢ with mapped heap stack
  · exact ⟨Grown.refl _, mapped⟩
  · exact grown_faultIn (Bool.eq_false_of_not_eq_true mapped) done
  · exact grown_faultIn (Bool.eq_false_of_not_eq_true mapped) done

/-- An accepted walk leaves every page of it mapped for user mode. -/
theorem grown_userPagesOk {pageDir heapTop tid : Nat} {nx : Bool} {io : Nat → PageIo}
    {pages : List Nat} {memory : Memory}
    (done : (userPagesOk pageDir heapTop tid nx io memory pages).2 = true) :
    Grown (memory.spaces pageDir)
        ((userPagesOk pageDir heapTop tid nx io memory pages).1.spaces pageDir) ∧
      ∀ vaddr ∈ pages,
        userMapped ((userPagesOk pageDir heapTop tid nx io memory pages).1.spaces pageDir) vaddr =
          true := by
  induction pages generalizing memory with
  | nil => exact ⟨Grown.refl _, fun vaddr member => absurd member List.not_mem_nil⟩
  | cons page rest inductionHypothesis =>
    unfold userPagesOk at done ⊢
    cases result : userPageOk memory pageDir page heapTop tid nx (io page) with
    | mk next accepted =>
      rw [result] at done
      cases accepted with
      | false => exact absurd done Bool.false_ne_true
      | true =>
        dsimp only at done ⊢
        have first := @grown_userPageOk memory pageDir page heapTop tid nx (io page)
          (by rw [result])
        rw [result] at first
        obtain ⟨grown, mapped⟩ := inductionHypothesis done
        refine ⟨first.1.trans grown, fun vaddr member => ?_⟩
        rcases List.mem_cons.mp member with rfl | later
        · exact grown.mapped first.2
        · exact mapped vaddr later

/-! ### Accepted buffers -/

/-- Every address of a buffer lies in one of the pages the walk visits. -/
theorem mem_bufferPages {ptr size address : Nat} (low : ptr ≤ address)
    (high : address < ptr + size) : address / pageSize * pageSize ∈ bufferPages ptr size := by
  have first : ptr / pageSize ≤ address / pageSize := Nat.div_le_div_right low
  have last : address / pageSize ≤ (ptr + size - 1) / pageSize := Nat.div_le_div_right (by omega)
  refine List.mem_map.mpr ⟨address / pageSize - ptr / pageSize, List.mem_range.mpr (by omega), ?_⟩
  rw [Nat.add_sub_cancel' first]

theorem samePage_base (address : Nat) : SamePage address (address / pageSize * pageSize) := by
  unfold SamePage
  rw [Nat.mul_div_cancel _ (by decide)]

/-- The pages of a buffer are mapped for user mode, and a store of the kernel to them is
resolved. -/
def BufferSafe (space : AddressSpace) (ptr size : Nat) : Prop :=
  ∀ address, ptr ≤ address → address < ptr + size →
    userMapped space address = true ∧ Resolvable (space.entry address)

/-- An accepted buffer of a Ring 3 caller is safe exactly when the pages of it that were mapped
for user mode before the call are writable or copy-on-write. -/
theorem validate_user_ptr_safe_iff {kernel : Kernel} {memory : Memory} {cid tid ptr size : Nat}
    {nx : Bool} {io : Nat → PageIo} (current : kernel.currentTask cid = some tid)
    (ring3 : taskInKernelSpace kernel tid = false)
    (accepted : (validateUserPtr kernel memory cid ptr size nx io).2 = true) :
    BufferSafe ((validateUserPtr kernel memory cid ptr size nx io).1.spaces
        (kernel.tasks tid).pageDir) ptr size ↔
      ∀ address, ptr ≤ address → address < ptr + size →
        userMapped (memory.spaces (kernel.tasks tid).pageDir) address = true →
        ((memory.spaces (kernel.tasks tid).pageDir).entry address).rw = true ∨
          ((memory.spaces (kernel.tasks tid).pageDir).entry address).cow = true := by
  unfold validateUserPtr at accepted ⊢
  dsimp only at accepted ⊢
  generalize shown : (if size = 0 then 1 else size) = length at accepted ⊢
  have longer : size ≤ length := by
    rw [← shown]
    split_ifs <;> omega
  split at accepted
  · exact absurd accepted Bool.false_ne_true
  · rename_i refused
    rw [if_neg refused]
    rw [current] at accepted ⊢
    dsimp only at accepted ⊢
    rw [ring3, if_neg Bool.false_ne_true] at accepted ⊢
    obtain ⟨grown, mapped⟩ := grown_userPagesOk accepted
    have inside : ∀ address, ptr ≤ address → address < ptr + size →
        address / pageSize * pageSize ∈ bufferPages ptr length :=
      fun address low high => mem_bufferPages low (by omega)
    constructor
    · intro safe address low high before
      have resolved := ((resolvable_iff _).mp (safe address low high).2).2
      rwa [grown.kept before] at resolved
    · intro writable address low high
      have reached := mapped _ (inside address low high)
      rw [← userMapped_samePage _ (samePage_base address)] at reached
      refine ⟨reached, (resolvable_iff _).mpr ⟨?_, ?_⟩⟩
      · rw [userMapped_eq, Bool.and_eq_true] at reached
        exact reached.1
      · rcases grown address with same | ⟨_, _, stored⟩
        · rw [same]
          refine writable address low high ?_
          rw [userMapped_eq, ← same, ← userMapped_eq]
          exact reached
        · exact Or.inl stored

/-! ### A file page as an output buffer -/

/-- A program in the directory `0x300000`. -/
def readingUserland : Userland := userRun oneCore (startProgram 0x300000 0x08001000)

theorem readingUserland_runs :
    readingUserland.kernel.currentTask 0 = some 1 ∧
      taskInKernelSpace readingUserland.kernel 1 = false := by decide +kernel

def emptySpace : AddressSpace where
  pdpt _ := none
  widened reached := absurd reached (by simp)

/-- The program's space after it has read the first page of a file mapping: the page is mapped
read-only and shared. -/
def fileSpace : AddressSpace :=
  (vmmMapPage emptySpace ⟨true, true⟩ 0x40000000
    ⟨true, false, true, false, true, false, true, 30000⟩).1

def readingMemory : Memory where
  spaces _ := fileSpace
  frames := ⟨fun _ => 1, fun _ => false, 20480, 32768, 20480⟩
  bytes _ := 0
  dirty _ _ := false
  nodes _ := ⟨true, 4096, fun _ => 0⟩

/-- The allocator has a frame for every page. -/
def plentyIo (vaddr : Nat) : PageIo := ⟨some (vaddr / pageSize), ⟨true, true⟩⟩

/-- A buffer in the heap that no one has touched. -/
theorem validate_user_ptr_safe_iff_heap :
    BufferSafe ((validateUserPtr (sysMalloc readingUserland.kernel 0 8192 0).1 readingMemory 0
        0x08001010 8000 true plentyIo).1.spaces
        ((sysMalloc readingUserland.kernel 0 8192 0).1.tasks 1).pageDir) 0x08001010 8000 ↔
      ∀ address, 0x08001010 ≤ address → address < 0x08001010 + 8000 →
        userMapped (readingMemory.spaces
          ((sysMalloc readingUserland.kernel 0 8192 0).1.tasks 1).pageDir) address = true →
        ((readingMemory.spaces
            ((sysMalloc readingUserland.kernel 0 8192 0).1.tasks 1).pageDir).entry address).rw =
            true ∨
          ((readingMemory.spaces
            ((sysMalloc readingUserland.kernel 0 8192 0).1.tasks 1).pageDir).entry address).cow =
            true :=
  validate_user_ptr_safe_iff (by decide +kernel) (by decide +kernel) (by decide +kernel)

/-- The read-only page of a file mapping is accepted, and the store of the kernel panics. -/
theorem file_page_accepted :
    ¬∀ (kernel : Kernel) (memory : Memory) (cid tid ptr size : Nat) (nx : Bool)
      (io : Nat → PageIo), kernel.currentTask cid = some tid →
      taskInKernelSpace kernel tid = false →
      (validateUserPtr kernel memory cid ptr size nx io).2 = true →
      BufferSafe ((validateUserPtr kernel memory cid ptr size nx io).1.spaces
        (kernel.tasks tid).pageDir) ptr size := by
  intro claimed
  have accepted : (validateUserPtr readingUserland.kernel readingMemory 0 0x40000000 512 true
      plentyIo).2 = true := by decide +kernel
  have safe := claimed _ readingMemory 0 1 0x40000000 512 true plentyIo readingUserland_runs.1
    readingUserland_runs.2 accepted 0x40000000 (by decide) (by decide)
  have stuck : kernelStore (((validateUserPtr readingUserland.kernel readingMemory 0 0x40000000
      512 true plentyIo).1.spaces (readingUserland.kernel.tasks 1).pageDir).entry 0x40000000) 1
      (some 0) = .panicked := by decide +kernel
  exact safe.2 1 0 stuck

end MectovOS.Sched
