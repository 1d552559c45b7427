/-
This file proves the kernel heap safe over whole runs. A run starts from the
ceiling `init_mem` sets and takes `kmalloc`, `kfree`, `krealloc`, `kcalloc` and
writes of the callers in any order; callers ask for at most the ceiling, release
and resize only pointers they hold, and write only inside their payloads. In
every state of every run the arena is a coalesced list of blocks laid end to
end, the callers' payloads are its live payloads and overlap nowhere, and every
further call returns: no walk runs forever and `heap_panic` is not reached. Each
call keeps the contents of every payload it does not itself write.
-/

import MectovOS.Lib.Transition
import MectovOS.Mem.HeapRelease

namespace MectovOS.Heap

open ByteMemory Transition

/-! ### Payloads of a layout -/

instance : Std.Symm Apart where
  symm first second apart := by
    unfold Apart at *
    omega

theorem Apart.pointer_ne {first second : Nat × Nat} (apart : Apart first second) :
    first.1 ≠ second.1 := by
  unfold Apart metaSize at apart
  omega

/-- A write inside a live payload leaves the layout alone. -/
theorem Layout.overwrite {heap : HeapState} {blocks : List Block} {payload : Nat × Nat}
    {memory : Bytes} (layout : Layout heap blocks)
    (member : payload ∈ payloads kernelHeapBaseBytes blocks)
    (outside : ∀ index, index < payload.1 ∨ payload.1 + payload.2 ≤ index →
      memory index = heap.memory index) : Layout { heap with memory := memory } blocks := by
  obtain ⟨before, block, after, rfl, -, rfl⟩ := mem_payloads.mp member
  have segment : Segment heap.memory kernelHeapBaseBytes (before ++ [block] ++ after) 0 := by
    simpa using layout.segment
  have standing := layout.segment.at.frame fun index _ _ gap => outside index gap
  have inside : Segment memory (endOf kernelHeapBaseBytes before) [block]
      (if after = [] then 0 else endOf (endOf kernelHeapBaseBytes before) [block]) :=
    ⟨by simpa using standing, trivial⟩
  have whole := segment.replace (by simp) (by simp) rfl (fun index apart => outside index (by
    simp only [endOf_cons, endOf_nil, Block.span, metaSize, sizeofBlockMeta] at *
    omega)) inside
  exact ⟨layout.base, by simpa using whole, layout.extent, layout.ceiling, layout.addressable,
    layout.coalesced⟩

/-- The size a caller may use of a pointer it was handed. -/
def payloadSize (memory : Bytes) (pointer : Nat) : Nat :=
  blockSize memory (pointer - sizeofBlockMeta)

theorem Layout.payloadSize {heap : HeapState} {blocks : List Block} {payload : Nat × Nat}
    (layout : Layout heap blocks) (member : payload ∈ payloads kernelHeapBaseBytes blocks) :
    payloadSize heap.memory payload.1 = payload.2 := by
  obtain ⟨before, block, after, rfl, -, rfl⟩ := mem_payloads.mp member
  have standing := layout.segment.at.size
  simpa [Heap.payloadSize] using standing

/-! ### Runs -/

/-- The heap and the payloads its callers hold, as pointer and size. -/
structure Run where
  heap : HeapState
  live : List (Nat × Nat)

inductive Action where
  | kmalloc (size : Nat)
  | kfree (pointer : Nat)
  | krealloc (pointer size : Nat)
  | kcalloc (num size : Nat)
  | write (address : Nat) (value : UInt8)

/-- The callers' payloads after a call that returned a pointer. -/
def hand (heap : HeapState) (pointer : Nat) (live : List (Nat × Nat)) : List (Nat × Nat) :=
  if pointer = 0 then live else (pointer, payloadSize heap.memory pointer) :: live

/-- The callers' payloads after a release. -/
def drop (pointer : Nat) (live : List (Nat × Nat)) : List (Nat × Nat) :=
  live.filter fun payload => payload.1 ≠ pointer

/-- One call, with the pointer it returns (`0` for a call that returns none). -/
def perform (state : Run) : Action → Except Fault (Run × Nat)
  | .kmalloc size =>
    match kmalloc state.heap size with
    | .error fault => .error fault
    | .ok (heap, pointer) => .ok (⟨heap, hand heap pointer state.live⟩, pointer)
  | .kfree pointer =>
    match kfree state.heap pointer with
    | .error fault => .error fault
    | .ok heap => .ok (⟨heap, drop pointer state.live⟩, 0)
  | .krealloc pointer size =>
    match krealloc state.heap pointer size with
    | .error fault => .error fault
    | .ok (heap, moved) =>
      if moved = 0 ∧ size ≠ 0 then .ok (⟨heap, state.live⟩, moved)
      else .ok (⟨heap, hand heap moved (drop pointer state.live)⟩, moved)
  | .kcalloc num size =>
    match kcalloc state.heap num size with
    | .error fault => .error fault
    | .ok (heap, pointer) => .ok (⟨heap, hand heap pointer state.live⟩, pointer)
  | .write address value =>
    .ok (⟨{ state.heap with memory := fillBytes state.heap.memory address value 1 },
      state.live⟩, 0)

/-- What the callers promise: sizes up to the ceiling, only pointers they hold, writes only
inside their payloads. -/
def Permitted (state : Run) : Action → Prop
  | .kmalloc size => size ≤ state.heap.heapMaxBytes
  | .kfree pointer => pointer = 0 ∨ ∃ payload ∈ state.live, payload.1 = pointer
  | .krealloc pointer size => size ≤ state.heap.heapMaxBytes ∧
      (pointer = 0 ∨ ∃ payload ∈ state.live, payload.1 = pointer)
  | .kcalloc num size => num * size ≤ state.heap.heapMaxBytes
  | .write address _ =>
      ∃ payload ∈ state.live, payload.1 ≤ address ∧ address < payload.1 + payload.2

/-- The runs of the heap on a machine with the given number of frames. -/
def heapSystem (totalPages : Nat) : System Run Action where
  init state := state.heap.globalBase = 0 ∧ state.heap.heapUsed = 0 ∧ state.live = [] ∧
    state.heap.heapMaxBytes = heapCeiling (physTotalPages totalPages)
  step state action next := ∃ pointer, perform state action = .ok (next, pointer)

/-- The callers' payloads are the live payloads of a layout. -/
def Run.Laid (state : Run) (blocks : List Block) : Prop :=
  Layout state.heap blocks ∧ state.live.Perm (payloads kernelHeapBaseBytes blocks)

/-- The bytes a call writes into the callers' payloads. -/
def Writes : Action → Nat → Prop
  | .write address _, index => index = address
  | _, _ => False

/-- Every payload held across the call keeps the bytes the call does not write. -/
def ContentsKept (state next : Run) (action : Action) : Prop :=
  ∀ payload ∈ state.live, payload ∈ next.live → ∀ index, payload.1 ≤ index →
    index < payload.1 + payload.2 → ¬ Writes action index →
      next.heap.memory index = state.heap.memory index

/-- A reallocation that moves a payload moves its bytes. -/
def ContentsMoved (state next : Run) (moved : Nat) : Action → Prop
  | .krealloc pointer size => pointer ≠ 0 → size ≠ 0 → moved ≠ 0 →
      ∀ offset, offset < payloadSize state.heap.memory pointer →
        next.heap.memory (moved + offset) = state.heap.memory (pointer + offset)
  | _ => True

/-! ### One call -/

theorem Run.Laid.apart {state : Run} {blocks : List Block} (laid : state.Laid blocks) :
    state.live.Pairwise Apart :=
  (laid.2.pairwise_iff fun apart => Std.Symm.symm _ _ apart).mpr
    (payloads_pairwise _ _)

theorem Run.Laid.member {state : Run} {blocks : List Block} {payload : Nat × Nat}
    (laid : state.Laid blocks) (held : payload ∈ state.live) :
    payload ∈ payloads kernelHeapBaseBytes blocks :=
  laid.2.mem_iff.mp held

/-- Dropping a released payload. -/
theorem drop_perm {live rest : List (Nat × Nat)} {payload : Nat × Nat}
    (exchange : live.Perm (payload :: rest)) (apart : live.Pairwise Apart) :
    (drop payload.1 live).Perm rest := by
  have apart' := (exchange.pairwise_iff fun apart => Std.Symm.symm _ _ apart).mp apart
  have others (other : Nat × Nat) (member : other ∈ rest) : other.1 ≠ payload.1 :=
    ((List.pairwise_cons.mp apart').1 other member).pointer_ne.symm
  have kept : drop payload.1 (payload :: rest) = rest := by
    rw [drop, List.filter_cons_of_neg (by simp), List.filter_eq_self]
    exact fun other member => decide_eq_true (others other member)
  exact (exchange.filter _).trans (List.Perm.of_eq kept)

theorem drop_zero {state : Run} {blocks : List Block} (laid : state.Laid blocks) :
    drop 0 state.live = state.live := by
  refine List.filter_eq_self.mpr fun payload held => decide_eq_true ?_
  have low := (payload_bounds (laid.member held)).1
  unfold sizeofBlockMeta at low
  omega

/-- An allocation hands its caller the payload it adds. -/
theorem Run.Laid.granted {state : Run} {blocks : List Block} {heap' : HeapState}
    {request pointer : Nat} (laid : state.Laid blocks)
    (granted : Granted state.heap heap' blocks request pointer) :
    ∃ blocks', Run.Laid ⟨heap', hand heap' pointer state.live⟩ blocks' ∧
      PayloadsKept state.heap.memory heap'.memory blocks ∧
      (pointer ≠ 0 → ∃ size, request ≤ size ∧
        (pointer, size) ∈ payloads kernelHeapBaseBytes blocks' ∧
        hand heap' pointer state.live = (pointer, size) :: state.live ∧
        ∀ payload ∈ state.live, Apart (pointer, size) payload) := by
  obtain ⟨blocks', layout', -, ⟨rfl, rfl, same⟩ | ⟨nonzero, kept, size, large, exchange⟩⟩ :=
    granted
  · refine ⟨blocks', ⟨layout', by simpa [hand] using laid.2⟩, fun _ _ index _ _ => by rw [same],
      fun absurd => (absurd rfl).elim⟩
  · have member : (pointer, size) ∈ payloads kernelHeapBaseBytes blocks' :=
      exchange.mem_iff.mpr (by simp)
    have handed : hand heap' pointer state.live = (pointer, size) :: state.live := by
      rw [hand, if_neg nonzero, layout'.payloadSize member]
    have laid' : Run.Laid ⟨heap', hand heap' pointer state.live⟩ blocks' :=
      ⟨layout', by rw [handed]; exact (laid.2.cons _).trans exchange.symm⟩
    have apart := laid'.apart
    rw [handed] at apart
    exact ⟨blocks', laid', kept, fun _ => ⟨size, large, member, handed,
      (List.pairwise_cons.mp apart).1⟩⟩

/-- A release takes its payload from the caller. -/
theorem Run.Laid.released {state : Run} {blocks : List Block} {heap' : HeapState}
    {payload : Nat × Nat} (laid : state.Laid blocks)
    (released : Released state.heap heap' blocks payload) :
    ∃ blocks', Run.Laid ⟨heap', drop payload.1 state.live⟩ blocks' ∧
      PayloadsKept state.heap.memory heap'.memory blocks' := by
  obtain ⟨blocks', layout', -, exchange, kept⟩ := released
  exact ⟨blocks', ⟨layout', drop_perm (laid.2.trans exchange) laid.apart⟩, kept⟩

/-- A call is safe when it returns, leaves the callers' payloads laid out, and keeps their
contents. -/
def Safe (state : Run) (action : Action) : Prop :=
  ∃ next pointer, perform state action = .ok (next, pointer) ∧
    (∃ blocks', next.Laid blocks') ∧ ContentsKept state next action ∧
    ContentsMoved state next pointer action

theorem safe_kmalloc {state : Run} {blocks : List Block} {size : Nat} (laid : state.Laid blocks)
    (permitted : Permitted state (.kmalloc size)) : Safe state (.kmalloc size) := by
  have addressable := laid.1.addressable
  have small : size + 4 ≤ 2 ^ 32 := by
    have ceiling : size ≤ state.heap.heapMaxBytes := permitted
    omega
  obtain ⟨heap', pointer, run, granted⟩ := kmalloc_spec laid.1 small
  obtain ⟨blocks', laid', kept, -⟩ := laid.granted granted
  refine ⟨⟨heap', hand heap' pointer state.live⟩, pointer, by rw [perform, run],
    ⟨blocks', laid'⟩, ?_, trivial⟩
  intro payload held _ index low high _
  exact kept payload (laid.member held) index low high

theorem safe_kfree {state : Run} {blocks : List Block} {pointer : Nat}
    (laid : state.Laid blocks) (permitted : Permitted state (.kfree pointer)) :
    Safe state (.kfree pointer) := by
  rcases permitted with rfl | ⟨payload, held, rfl⟩
  · refine ⟨⟨state.heap, drop 0 state.live⟩, 0, by simp [perform, kfree], ⟨blocks, ?_⟩,
      fun _ _ _ _ _ _ _ => rfl, trivial⟩
    rw [drop_zero laid]
    exact laid
  · obtain ⟨heap', run, released⟩ := kfree_spec laid.1 (laid.member held)
    obtain ⟨blocks', laid', kept⟩ := laid.released released
    refine ⟨⟨heap', drop payload.1 state.live⟩, 0, by rw [perform, run], ⟨blocks', laid'⟩, ?_,
      trivial⟩
    intro other _ held' index low high _
    exact kept other (laid'.member held') index low high

theorem safe_write {state : Run} {blocks : List Block} {address : Nat} {value : UInt8}
    (laid : state.Laid blocks) (permitted : Permitted state (.write address value)) :
    Safe state (.write address value) := by
  obtain ⟨payload, held, low, high⟩ := permitted
  have outside (index : Nat) (beyond : index < payload.1 ∨ payload.1 + payload.2 ≤ index) :
      fillBytes state.heap.memory address value 1 index = state.heap.memory index :=
    fillBytes_outside _ _ (by omega)
  have layout' := laid.1.overwrite (laid.member held) outside
  refine ⟨_, 0, rfl, ⟨blocks, layout', laid.2⟩, ?_, trivial⟩
  intro other _ _ index _ _ untouched
  exact fillBytes_outside _ _ (by
    have apart : index ≠ address := untouched
    omega)

theorem safe_kcalloc {state : Run} {blocks : List Block} {num size : Nat}
    (laid : state.Laid blocks) (permitted : Permitted state (.kcalloc num size)) :
    Safe state (.kcalloc num size) := by
  have addressable := laid.1.addressable
  have ceiling : num * size ≤ state.heap.heapMaxBytes := permitted
  have guard : ¬ (num ≠ 0 ∧ 0xFFFFFFFF / num < size) := by
    rintro ⟨nonzero, large⟩
    have overflow := (Nat.div_lt_iff_lt_mul (by omega)).mp large
    rw [Nat.mul_comm] at overflow
    omega
  have total : u32 (num * size) = num * size := u32_of_lt (by omega)
  obtain ⟨heap', pointer, run, granted⟩ := kmalloc_spec laid.1
    (show num * size + 4 ≤ 2 ^ 32 by omega)
  obtain ⟨blocks', laid', kept, fresh⟩ := laid.granted granted
  by_cases zero : pointer = 0
  · refine ⟨⟨heap', hand heap' pointer state.live⟩, pointer, ?_, ⟨blocks', laid'⟩, ?_, trivial⟩
    · rw [perform, kcalloc, if_neg guard, total]
      simp only [run, zero, if_true]
    · intro payload held _ index low high _
      exact kept payload (laid.member held) index low high
  · obtain ⟨granted', large, member, handed, apart⟩ := fresh zero
    set memory := fillBytes heap'.memory pointer 0 (num * size) with memoryEq
    have outside (index : Nat) (beyond : index < pointer ∨ pointer + granted' ≤ index) :
        memory index = heap'.memory index := fillBytes_outside _ _ (by omega)
    have layout' := laid'.1.overwrite member outside
    have sizeAgain : hand { heap' with memory := memory } pointer state.live =
        hand heap' pointer state.live := by
      rw [handed, hand, if_neg zero, layout'.payloadSize member]
    refine ⟨⟨{ heap' with memory := memory }, hand heap' pointer state.live⟩, pointer, ?_,
      ⟨blocks', layout', laid'.2⟩, ?_, trivial⟩
    · rw [perform, kcalloc, if_neg guard, total]
      simp only [run, zero, if_false, ← memoryEq, sizeAgain]
    · intro payload held _ index low high _
      have separate := apart payload held
      unfold Apart at separate
      exact (outside index (by dsimp only at separate; omega)).trans
        (kept payload (laid.member held) index low high)

/-- Moving a payload: allocate, copy, release. -/
theorem move_spec {state : Run} {blocks : List Block} {payload : Nat × Nat} {size : Nat}
    (laid : state.Laid blocks) (held : payload ∈ state.live) (nonzero : size ≠ 0)
    (small : size + 4 ≤ 2 ^ 32) (grows : payload.2 < alignSize size) :
    ∃ next pointer, perform state (.krealloc payload.1 size) = .ok (next, pointer) ∧
      (∃ blocks', next.Laid blocks' ∧ (pointer ≠ 0 → ∃ granted, size ≤ granted ∧
        (pointer, granted) ∈ payloads kernelHeapBaseBytes blocks')) ∧
      ContentsKept state next (.krealloc payload.1 size) ∧
      ContentsMoved state next pointer (.krealloc payload.1 size) := by
  have bounds := payload_bounds (laid.member held)
  have beyond := laid.1.endOf_le
  have low : kernelHeapBaseBytes = 25165824 := rfl
  have pointerNonzero : payload.1 ≠ 0 := by omega
  have header : sub32 payload.1 sizeofBlockMeta = payload.1 - sizeofBlockMeta :=
    sub32_of_le (by omega) (by omega)
  have oldSize : blockSize state.heap.memory (payload.1 - sizeofBlockMeta) = payload.2 :=
    laid.1.payloadSize (laid.member held)
  obtain ⟨enough, -⟩ := alignSize_spec small
  obtain ⟨heap', pointer, run, granted⟩ := kmalloc_spec laid.1 (alignSize_room small)
  obtain ⟨blocks', laid', kept, fresh⟩ := laid.granted granted
  by_cases zero : pointer = 0
  · subst zero
    have refused : krealloc state.heap payload.1 size = .ok (heap', 0) := by
      simp only [krealloc, pointerNonzero, nonzero, header, oldSize, if_false, run, if_true,
        Nat.not_le.mpr grows]
    refine ⟨⟨heap', state.live⟩, 0, ?_, ⟨blocks', by simpa [hand] using laid',
      fun absurd => (absurd rfl).elim⟩, ?_, ?_⟩
    · rw [perform, refused]
      simp [nonzero]
    · intro other held' _ index lower upper _
      exact kept other (laid.member held') index lower upper
    · intro _ _ absurd
      exact (absurd rfl).elim
  · obtain ⟨granted', large, member, handed, apart⟩ := fresh zero
    set memory := copyBytes heap'.memory pointer payload.1 payload.2 with memoryEq
    have outside (index : Nat) (beyond : index < pointer ∨ pointer + granted' ≤ index) :
        memory index = heap'.memory index := copyBytes_outside _ (by omega)
    have layout' := laid'.1.overwrite member outside
    have copied : Run.Laid ⟨{ heap' with memory := memory }, (pointer, granted') :: state.live⟩
        blocks' := ⟨layout', by rw [← handed]; exact laid'.2⟩
    have heldStill : payload ∈ (pointer, granted') :: state.live := List.mem_cons_of_mem _ held
    obtain ⟨heap'', freed, released⟩ := kfree_spec layout' (copied.member heldStill)
    obtain ⟨blocks'', laid'', kept''⟩ := copied.released released
    have separate := apart payload held
    have stays : drop payload.1 ((pointer, granted') :: state.live) =
        (pointer, granted') :: drop payload.1 state.live :=
      List.filter_cons_of_pos (decide_eq_true separate.pointer_ne)
    rw [stays] at laid''
    have memberMoved := laid''.member (List.mem_cons_self ..)
    refine ⟨⟨heap'', hand heap'' pointer (drop payload.1 state.live)⟩, pointer, ?_,
      ⟨blocks'', ?_, fun _ => ⟨granted', enough.trans large, memberMoved⟩⟩, ?_, ?_⟩
    · have moved : krealloc state.heap payload.1 size = .ok (heap'', pointer) := by
        simp only [krealloc, pointerNonzero, nonzero, header, oldSize, if_false, run, zero,
          Nat.not_le.mpr grows, grows, if_true, ← memoryEq, freed]
      rw [perform, moved]
      simp only [zero, false_and, if_false]
    · rw [hand, if_neg zero, laid''.1.payloadSize memberMoved]
      exact laid''
    · intro other held' still index lower upper _
      have separate' := apart other held'
      have still' : other ∈ (pointer, granted') :: drop payload.1 state.live := by
        rw [hand, if_neg zero, laid''.1.payloadSize memberMoved] at still
        exact still
      refine (kept'' other (laid''.member still') index lower upper).trans ?_
      refine (outside index ?_).trans (kept other (laid.member held') index lower upper)
      unfold Apart at separate'
      dsimp only at separate'
      omega
    · intro _ _ _ offset inside
      rw [laid.1.payloadSize (laid.member held)] at inside
      have first := kept'' (pointer, granted') memberMoved (pointer + offset) (by simp)
        (by dsimp only; omega)
      refine first.trans ?_
      have second : memory (pointer + offset) = heap'.memory (payload.1 + offset) := by
        rw [memoryEq, copyBytes_inside _ (by omega) (by omega), Nat.add_sub_cancel_left]
      exact second.trans (kept payload (laid.member held) _ (by omega) (by omega))

theorem safe_move {state : Run} {blocks : List Block} {payload : Nat × Nat} {size : Nat}
    (laid : state.Laid blocks) (held : payload ∈ state.live) (nonzero : size ≠ 0)
    (ceiling : size ≤ state.heap.heapMaxBytes) (grows : payload.2 < alignSize size) :
    Safe state (.krealloc payload.1 size) := by
  have addressable := laid.1.addressable
  obtain ⟨next, pointer, run, ⟨blocks', laid', -⟩, kept, moved⟩ :=
    move_spec laid held nonzero (by omega) grows
  exact ⟨next, pointer, run, ⟨blocks', laid'⟩, kept, moved⟩

theorem safe_krealloc {state : Run} {blocks : List Block} {pointer size : Nat}
    (laid : state.Laid blocks) (permitted : Permitted state (.krealloc pointer size)) :
    Safe state (.krealloc pointer size) := by
  obtain ⟨ceiling, rfl | ⟨payload, held, rfl⟩⟩ := permitted
  · obtain ⟨next, moved, run, laid', kept, -⟩ := safe_kmalloc laid ceiling
    rw [perform] at run
    refine ⟨next, moved, ?_, laid', kept, fun absurd => (absurd rfl).elim⟩
    rw [perform, krealloc, if_pos rfl, drop_zero laid]
    cases allocated : kmalloc state.heap size with
    | error fault => rw [allocated] at run; exact absurd run (by simp)
    | ok result =>
      rw [allocated] at run
      simp only [Except.ok.injEq, Prod.mk.injEq] at run ⊢
      obtain ⟨rfl, rfl⟩ := run
      split_ifs with failed
      · simp [hand, failed.1]
      · rfl
  · have low := (payload_bounds (laid.member held)).1
    have pointerNonzero : payload.1 ≠ 0 := by
      unfold sizeofBlockMeta at low
      omega
    have beyond := laid.1.endOf_le
    have bounds := payload_bounds (laid.member held)
    by_cases zero : size = 0
    · subst zero
      obtain ⟨next, moved, run, laid', kept, -⟩ :=
        safe_kfree laid (show Permitted state (.kfree payload.1) from
          Or.inr ⟨payload, held, rfl⟩)
      rw [perform] at run
      refine ⟨next, moved, ?_, laid', kept, fun _ absurd => (absurd rfl).elim⟩
      rw [perform, krealloc, if_neg pointerNonzero, if_pos rfl]
      cases freed : kfree state.heap payload.1 with
      | error fault => rw [freed] at run; exact absurd run (by simp)
      | ok heap' =>
        rw [freed] at run
        simpa [hand] using run
    · rcases Nat.lt_or_ge payload.2 (alignSize size) with grows | fits
      · exact safe_move laid held zero ceiling grows
      · have header : sub32 payload.1 sizeofBlockMeta = payload.1 - sizeofBlockMeta :=
          sub32_of_le (by omega) (by omega)
        have oldSize : blockSize state.heap.memory (payload.1 - sizeofBlockMeta) = payload.2 :=
          laid.1.payloadSize (laid.member held)
        refine ⟨⟨state.heap, hand state.heap payload.1 (drop payload.1 state.live)⟩, payload.1,
          ?_, ⟨blocks, laid.1, ?_⟩, fun _ _ _ _ _ _ _ => rfl, fun _ _ _ _ _ => rfl⟩
        · rw [perform, krealloc, if_neg pointerNonzero, if_neg zero, header, oldSize,
            if_pos fits]
          simp [pointerNonzero]
        · rw [hand, if_neg pointerNonzero, laid.1.payloadSize (laid.member held)]
          have split := List.perm_cons_erase held
          exact ((drop_perm split laid.apart).cons payload).trans (split.symm.trans laid.2)

/-! ### Every run -/

theorem safe_of_permitted {state : Run} {blocks : List Block} {action : Action}
    (laid : state.Laid blocks) (permitted : Permitted state action) : Safe state action := by
  cases action with
  | kmalloc size => exact safe_kmalloc laid permitted
  | kfree pointer => exact safe_kfree laid permitted
  | krealloc pointer size => exact safe_krealloc laid permitted
  | kcalloc num size => exact safe_kcalloc laid permitted
  | write address value => exact safe_write laid permitted

theorem laid_init {totalPages : Nat} {state : Run} (start : (heapSystem totalPages).init state) :
    state.Laid [] := by
  obtain ⟨base, used, live, ceiling⟩ := start
  refine ⟨⟨base, trivial, by rw [used]; rfl, by rw [used]; exact Nat.zero_le _, ?_,
    List.isChain_nil⟩, by rw [live]; exact List.Perm.nil⟩
  rw [ceiling]
  exact heapCeiling_le totalPages

theorem laid_reachable {totalPages : Nat} {state : Run}
    (reachable : (heapSystem totalPages).Reachable Permitted state) :
    ∃ blocks, state.Laid blocks := by
  refine reachable.invariant (fun state => ∃ blocks, state.Laid blocks)
    (fun state start => ⟨[], laid_init start⟩) ?_
  rintro state action next ⟨blocks, laid⟩ permitted ⟨pointer, run⟩
  obtain ⟨next', pointer', run', laid', -⟩ := safe_of_permitted laid permitted
  rw [run'] at run
  obtain ⟨rfl, rfl⟩ := Prod.mk.inj (Except.ok.inj run)
  exact laid'

/-- The kernel heap over whole runs: in every state the blocks tile the arena in address
order up to `heapUsed`, which never passes the ceiling, no two free blocks are neighbours,
every canary stands at its payload end, the callers' payloads are the live ones and overlap
nowhere; and every permitted call returns, without a panic, and keeps the contents of every
payload it does not write. -/
theorem heap_run_safe (totalPages : Nat) (state : Run)
    (reachable : (heapSystem totalPages).Reachable Permitted state) :
    (∃ blocks, Layout state.heap blocks ∧
      state.live.Perm (payloads kernelHeapBaseBytes blocks)) ∧
    state.live.Pairwise Apart ∧ state.heap.heapUsed ≤ state.heap.heapMaxBytes ∧
    ∀ action, Permitted state action → ∃ next pointer,
      perform state action = .ok (next, pointer) ∧ ContentsKept state next action ∧
      ContentsMoved state next pointer action := by
  obtain ⟨blocks, laid⟩ := laid_reachable reachable
  refine ⟨⟨blocks, laid⟩, laid.apart, laid.1.ceiling, fun action permitted => ?_⟩
  obtain ⟨next, pointer, run, -, kept, moved⟩ := safe_of_permitted laid permitted
  exact ⟨next, pointer, run, kept, moved⟩

/-- The heap of a machine that has just booted. -/
def bootRun (totalPages : Nat) : Run :=
  ⟨⟨fun _ => 0, 0, 0, heapCeiling (physTotalPages totalPages), 0, 0, 0⟩, []⟩

/-- On a machine with 64 MB the first allocation of a run returns. -/
theorem heap_run_safe_boot : ∃ next pointer,
    perform (bootRun 16384) (.kmalloc 100) = .ok (next, pointer) :=
  let ⟨_, _, _, calls⟩ := heap_run_safe 16384 (bootRun 16384)
    (.init ⟨rfl, rfl, rfl, rfl⟩)
  let ⟨next, pointer, run, _⟩ := calls (.kmalloc 100) (by
    show 100 ≤ heapCeiling (physTotalPages 16384)
    decide)
  ⟨next, pointer, run⟩

end MectovOS.Heap
