/-
This file says when the calls that allocate from the kernel heap hand out as much
as they were asked for. `kmalloc` and `krealloc` round a request up to a multiple
of four in 32 bits before anything is checked, so the three greatest requests
become a request for no bytes, which any free block serves.
-/

import MectovOS.Mem.HeapRun

namespace MectovOS.Heap

open ByteMemory

/-! ### What a call is asked for -/

/-- The bytes a call is asked for. -/
def Action.requested : Action → Nat
  | .kmalloc size => size
  | .krealloc _ size => size
  | .kcalloc num size => num * size
  | .kfree _ => 0
  | .write _ _ => 0

/-- The pointer is `NULL`, or it is the payload of a block that is large enough. -/
def Serves (heap : HeapState) (pointer requested : Nat) : Prop :=
  pointer = 0 ∨ ∃ blocks size, Layout heap blocks ∧
    (pointer, size) ∈ payloads kernelHeapBaseBytes blocks ∧ requested ≤ size

/-- The call returns, and what it returns serves the request. -/
def Served (state : Run) (action : Action) : Prop :=
  ∃ next pointer, perform state action = .ok (next, pointer) ∧
    Serves next.heap pointer action.requested

theorem served_iff {state next : Run} {action : Action} {pointer : Nat}
    (run : perform state action = .ok (next, pointer)) :
    Served state action ↔ Serves next.heap pointer action.requested := by
  constructor
  · rintro ⟨other, returned, run', serves⟩
    obtain ⟨rfl, rfl⟩ := Prod.mk.inj (Except.ok.inj (run.symm.trans run'))
    exact serves
  · exact fun serves => ⟨next, pointer, run, serves⟩

/-- No payload of the arena is as large as the requests that wrap. -/
theorem serves_wrapped {heap : HeapState} {pointer requested : Nat}
    (wrapped : 2 ^ 32 ≤ requested + 3) : Serves heap pointer requested ↔ pointer = 0 := by
  refine ⟨fun serves => serves.resolve_right ?_, Or.inl⟩
  rintro ⟨blocks, size, layout, member, enough⟩
  have bounds := (payload_bounds member).2
  have beyond := layout.endOf_le
  dsimp only at bounds
  omega

/-- The three greatest requests are rounded to nothing. -/
theorem alignSize_wrapped {request : Nat} (wrapped : 2 ^ 32 ≤ request + 3)
    (word : request < 2 ^ 32) : alignSize request = 0 := by
  unfold alignSize u32
  split_ifs <;> omega

/-- Some request is rounded to a word, whatever it is. -/
theorem alignSize_word {request : Nat} (word : request < 2 ^ 32) : alignSize request < 2 ^ 32 := by
  unfold alignSize u32
  split_ifs <;> omega

/-! ### The calls -/

variable {state : Run} {blocks : List Block}

/-- `kmalloc` serves a request that does not wrap, and the others only with a full heap. -/
theorem kmalloc_serves (laid : state.Laid blocks) {size : Nat} (word : size < 2 ^ 32) :
    ∃ heap pointer, kmalloc state.heap size = .ok (heap, pointer) ∧
      (Serves heap pointer size ↔ size + 3 < 2 ^ 32 ∨ Full state.heap blocks 0) := by
  by_cases small : size + 3 < 2 ^ 32
  · obtain ⟨heap', pointer, run, granted⟩ := kmalloc_spec laid.1 small
    obtain ⟨blocks', laid', -, fresh⟩ := laid.granted granted
    refine ⟨heap', pointer, run, iff_of_true ?_ (Or.inl small)⟩
    rcases Nat.eq_zero_or_pos pointer with zero | positive
    · exact Or.inl zero
    · obtain ⟨payload, large, member, -⟩ := fresh (Nat.ne_of_gt positive)
      exact Or.inr ⟨blocks', payload, laid'.1, member, large⟩
  · have wrapped := Nat.not_lt.mp small
    obtain ⟨heap', pointer, run, -, null⟩ :=
      kmalloc_rounded laid.1 (Nat.zero_le _) (alignSize_word word)
    rw [alignSize_wrapped wrapped word] at null
    refine ⟨heap', pointer, run, (serves_wrapped wrapped).trans (null.trans ?_)⟩
    have some_ : size ≠ 0 := by omega
    exact or_congr_left (iff_of_false some_ small)

theorem served_kmalloc (laid : state.Laid blocks) {size : Nat} (word : size < 2 ^ 32) :
    Served state (.kmalloc size) ↔ size + 3 < 2 ^ 32 ∨ Full state.heap blocks 0 := by
  obtain ⟨heap', pointer, run, serves⟩ := kmalloc_serves laid word
  have performed : perform state (.kmalloc size) =
      .ok (⟨heap', hand heap' pointer state.live⟩, pointer) := by
    rw [perform, run]
  exact (served_iff performed).trans serves

/-- Zeroing inside a payload changes no block. -/
theorem serves_zeroed {heap : HeapState} {pointer requested : Nat}
    (serves : Serves heap pointer requested) :
    Serves { heap with memory := fillBytes heap.memory pointer 0 requested } pointer
      requested := by
  rcases serves with zero | ⟨blocks', size, layout, member, enough⟩
  · exact Or.inl zero
  · refine Or.inr ⟨blocks', size, layout.overwrite member fun index beyond => ?_, member, enough⟩
    exact fillBytes_outside _ _ (by dsimp only at beyond; omega)

theorem served_kcalloc (laid : state.Laid blocks) (num size : Nat) :
    Served state (.kcalloc num size) ↔
      num * size + 3 < 2 ^ 32 ∨ 2 ^ 32 ≤ num * size ∨ Full state.heap blocks 0 := by
  rcases Nat.lt_or_ge (num * size) (2 ^ 32) with word | overflow
  · have guard : ¬ (num ≠ 0 ∧ 0xFFFFFFFF / num < size) := by
      rintro ⟨nonzero, large⟩
      have product := (Nat.div_lt_iff_lt_mul (Nat.pos_of_ne_zero nonzero)).mp large
      rw [Nat.mul_comm] at product
      omega
    obtain ⟨heap', pointer, run, serves⟩ := kmalloc_serves laid word
    have same : num * size + 3 < 2 ^ 32 ∨ 2 ^ 32 ≤ num * size ∨ Full state.heap blocks 0 ↔
        num * size + 3 < 2 ^ 32 ∨ Full state.heap blocks 0 :=
      or_congr_right (or_iff_right (Nat.not_le.mpr word))
    rw [same, ← serves]
    by_cases zero : pointer = 0
    · have performed : perform state (.kcalloc num size) =
          .ok (⟨heap', hand heap' 0 state.live⟩, 0) := by
        rw [perform, kcalloc, if_neg guard, u32_of_lt word]
        simp only [run, zero, if_true]
      exact iff_of_true ((served_iff performed).mpr (Or.inl rfl)) (Or.inl zero)
    · have performed : perform state (.kcalloc num size) =
          .ok (⟨{ heap' with memory := fillBytes heap'.memory pointer 0 (num * size) },
            hand { heap' with memory := fillBytes heap'.memory pointer 0 (num * size) } pointer
              state.live⟩, pointer) := by
        rw [perform, kcalloc, if_neg guard, u32_of_lt word]
        simp only [run, zero, if_false]
      refine (served_iff performed).trans ⟨fun zeroed => ?_, serves_zeroed⟩
      rcases Nat.lt_or_ge (num * size + 3) (2 ^ 32) with small | wrapped
      · exact serves.mpr (Or.inl small)
      · exact absurd ((serves_wrapped wrapped).mp zeroed) zero
  · have guard : num ≠ 0 ∧ 0xFFFFFFFF / num < size := by
      have nonzero : num ≠ 0 := by
        rintro rfl
        omega
      refine ⟨nonzero, (Nat.div_lt_iff_lt_mul (Nat.pos_of_ne_zero nonzero)).mpr ?_⟩
      rw [Nat.mul_comm]
      omega
    have performed : perform state (.kcalloc num size) =
        .ok (⟨state.heap, hand state.heap 0 state.live⟩, 0) := by
      rw [perform, kcalloc, if_pos guard]
    exact iff_of_true ((served_iff performed).mpr (Or.inl rfl)) (Or.inr (Or.inl overflow))

/-- Without a block to resize `krealloc` is `kmalloc`. -/
theorem served_krealloc_null (laid : state.Laid blocks) {size : Nat} (word : size < 2 ^ 32) :
    Served state (.krealloc 0 size) ↔ size + 3 < 2 ^ 32 ∨ Full state.heap blocks 0 := by
  obtain ⟨heap', pointer, run, serves⟩ := kmalloc_serves laid word
  have allocated : krealloc state.heap 0 size = .ok (heap', pointer) := by
    rw [krealloc, if_pos rfl, run]
  by_cases refused : pointer = 0 ∧ size ≠ 0
  · have performed : perform state (.krealloc 0 size) = .ok (⟨heap', state.live⟩, pointer) := by
      rw [perform, allocated]
      exact if_pos refused
    exact (served_iff performed).trans serves
  · have performed : perform state (.krealloc 0 size) =
        .ok (⟨heap', hand heap' pointer (drop 0 state.live)⟩, pointer) := by
      rw [perform, allocated]
      exact if_neg refused
    exact (served_iff performed).trans serves

/-- A block that is held stays or is moved; a request that wraps leaves it as it is. -/
theorem served_krealloc_held (laid : state.Laid blocks) {payload : Nat × Nat} {size : Nat}
    (held : payload ∈ state.live) (word : size < 2 ^ 32) :
    Served state (.krealloc payload.1 size) ↔ size + 3 < 2 ^ 32 := by
  have low := (payload_bounds (laid.member held)).1
  have bounds := payload_bounds (laid.member held)
  have beyond := laid.1.endOf_le
  have nonzero : payload.1 ≠ 0 := by
    unfold sizeofBlockMeta at low
    omega
  by_cases zero : size = 0
  · subst zero
    obtain ⟨heap', freed, -⟩ := kfree_spec laid.1 (laid.member held)
    have performed : perform state (.krealloc payload.1 0) =
        .ok (⟨heap', hand heap' 0 (drop payload.1 state.live)⟩, 0) := by
      rw [perform, krealloc, if_neg nonzero, if_pos rfl, freed]
      simp only [ne_eq, not_true_eq_false, and_false, if_false]
    exact iff_of_true ((served_iff performed).mpr (Or.inl rfl)) (by decide)
  · rcases Nat.lt_or_ge payload.2 (alignSize size) with grows | fits
    · have small : size + 3 < 2 ^ 32 := by
        by_contra wrapped
        rw [alignSize_wrapped (Nat.not_lt.mp wrapped) word] at grows
        exact absurd grows (Nat.not_lt_zero _)
      obtain ⟨next, pointer, run, ⟨blocks', laid', moved⟩, -⟩ :=
        move_spec laid held zero small grows
      refine iff_of_true ((served_iff run).mpr ?_) small
      rcases Nat.eq_zero_or_pos pointer with null | positive
      · exact Or.inl null
      · obtain ⟨granted, large, member⟩ := moved (Nat.ne_of_gt positive)
        exact Or.inr ⟨blocks', granted, laid'.1, member, large⟩
    · have header : sub32 payload.1 sizeofBlockMeta = payload.1 - sizeofBlockMeta :=
        sub32_of_le (by omega) (by omega)
      have oldSize : blockSize state.heap.memory (payload.1 - sizeofBlockMeta) = payload.2 :=
        laid.1.payloadSize (laid.member held)
      have performed : perform state (.krealloc payload.1 size) =
          .ok (⟨state.heap, hand state.heap payload.1 (drop payload.1 state.live)⟩,
            payload.1) := by
        rw [perform, krealloc, if_neg nonzero, if_neg zero, header, oldSize, if_pos fits]
        simp only [nonzero, false_and, if_false]
      rw [served_iff performed]
      rcases Nat.lt_or_ge (size + 3) (2 ^ 32) with small | wrapped
      · refine iff_of_true (Or.inr ⟨blocks, payload.2, laid.1, laid.member held, ?_⟩) small
        exact (alignSize_spec small).1.trans fits
      · exact iff_of_false (fun serves => nonzero ((serves_wrapped wrapped).mp serves))
          (Nat.not_lt.mpr wrapped)

/-- The calls that allocate return nothing or as much as they were asked for exactly when the
request does not wrap in the rounding, or the heap has nothing left to hand out. -/
theorem heap_requests_served (laid : state.Laid blocks) :
    (∀ size < 2 ^ 32, Served state (.kmalloc size) ↔
      size + 3 < 2 ^ 32 ∨ Full state.heap blocks 0) ∧
    (∀ num size, Served state (.kcalloc num size) ↔
      num * size + 3 < 2 ^ 32 ∨ 2 ^ 32 ≤ num * size ∨ Full state.heap blocks 0) ∧
    ∀ pointer, (pointer = 0 ∨ ∃ payload ∈ state.live, payload.1 = pointer) →
      ∀ size < 2 ^ 32, Served state (.krealloc pointer size) ↔
        size + 3 < 2 ^ 32 ∨ pointer = 0 ∧ Full state.heap blocks 0 := by
  refine ⟨fun size word => served_kmalloc laid word, served_kcalloc laid, ?_⟩
  rintro pointer (rfl | ⟨payload, held, rfl⟩) size word
  · exact (served_krealloc_null laid word).trans
      (or_congr_right (and_iff_right rfl).symm)
  · have low := (payload_bounds (laid.member held)).1
    have nonzero : payload.1 ≠ 0 := by
      unfold sizeofBlockMeta at low
      omega
    exact (served_krealloc_held laid held word).trans
      (or_iff_left fun both => nonzero both.1).symm

/-- The heap of a machine with 64 MB after boot has room. -/
theorem bootRun_room : ¬Full (bootRun 16384).heap [] 0 := by
  rintro ⟨-, full⟩
  exact absurd full (by decide)

theorem bootRun_laid : (bootRun 16384).Laid [] := @laid_init 16384 _ ⟨rfl, rfl, rfl, rfl⟩

/-- There a request for 2 ^ 32 - 4 bytes is served. -/
theorem heap_requests_served_boot : Served (bootRun 16384) (.kmalloc (2 ^ 32 - 4)) :=
  ((heap_requests_served bootRun_laid).1 (2 ^ 32 - 4) (by decide)).mpr (Or.inl (by decide))

/-- A request for 2 ^ 32 - 1 bytes gets a block there. -/
theorem kmalloc_unserved : ¬∀ state : Run, (heapSystem 16384).Reachable Permitted state →
    ∀ size < 2 ^ 32, Served state (.kmalloc size) := by
  intro always
  have served := always (bootRun 16384) (.init ⟨rfl, rfl, rfl, rfl⟩) (2 ^ 32 - 1) (by decide)
  rcases (served_kmalloc bootRun_laid (by decide)).mp served with small | full
  · exact absurd small (by decide)
  · exact bootRun_room full

end MectovOS.Heap
