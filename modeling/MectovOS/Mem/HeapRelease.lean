/-
This file proves what `kfree` does to the layout of the arena. A release merges
the freed block with the free blocks that follow it and with a free predecessor;
it removes exactly the released payload, keeps every byte of the other live
payloads, leaves the arena a coalesced list of blocks laid end to end, and can
neither panic nor run forever on a live payload.
-/

import MectovOS.Mem.HeapAlloc

namespace MectovOS.Heap

open ByteMemory

/-! ### Merging forward -/

/-- `coalesceForward` absorbs the free blocks that follow and rewrites the size and the
`next` field of the block, nothing else. -/
theorem coalesceForward_spec {memory : Bytes} {address size fuel : Nat} {after : List Block}
    (sizeField : blockSize memory address = size)
    (follows : blockNext memory address = startOf (address + size + metaSize) after)
    (segment : Segment memory (address + size + metaSize) after 0)
    (reach : endOf (address + size + metaSize) after ≤ 2 ^ 29) (enough : after.length < fuel) :
    ∃ absorbed rest whole merged, after = absorbed ++ rest ∧
      (∀ block ∈ absorbed, block.free = true) ∧ (∀ block ∈ rest.head?, block.free = false) ∧
      address + whole + metaSize = endOf (address + size + metaSize) absorbed ∧
      coalesceForward memory address fuel = .ok merged ∧ blockSize merged address = whole ∧
      blockNext merged address = startOf (address + whole + metaSize) rest ∧
      ∀ index, (index < address + 4 ∨ address + 8 ≤ index) →
        (index < address + 12 ∨ address + 16 ≤ index) → merged index = memory index := by
  induction after generalizing memory size fuel with
  | nil =>
    obtain ⟨fuel, rfl⟩ : ∃ less, fuel = less + 1 := ⟨fuel - 1, by simp at enough; omega⟩
    refine ⟨[], [], size, memory, rfl, by simp, by simp, rfl, ?_, sizeField, follows,
      fun _ _ _ => rfl⟩
    simp [coalesceForward, follows, startOf]
  | cons block rest inductionHypothesis =>
    obtain ⟨fuel, rfl⟩ : ∃ less, fuel = less + 1 := ⟨fuel - 1, by simp at enough; omega⟩
    obtain ⟨standing, tail⟩ := segment
    have beyond := le_endOf (address + size + metaSize + block.span) rest
    have spanEq : block.span = block.size + metaSize := rfl
    rw [endOf_cons] at reach
    have position : address + size + metaSize ≠ 0 := by unfold metaSize; omega
    have next : blockNext memory address = address + size + metaSize := by
      rw [follows, startOf, if_neg (by simp)]
    by_cases free : block.free = true
    · set joined := size + (metaSize + block.size) with joinedEq
      have joinedEnd : address + joined + metaSize =
          address + size + metaSize + block.span := by omega
      set sized := setSize memory address joined with sizedEq
      have sizedNext : blockNext sized address = address + size + metaSize :=
        (read32_write32_other _ _ _ _ (by omega)).trans next
      have nextNext : blockNext sized (address + size + metaSize) =
          startOf (address + joined + metaSize) rest := by
        rw [joinedEnd]
        exact (read32_write32_other _ _ _ _ (by unfold metaSize; omega)).trans standing.next
      set changed := setNext sized address (startOf (address + joined + metaSize) rest)
        with changedEq
      have small : startOf (address + joined + metaSize) rest < 2 ^ 32 := by
        unfold startOf
        split_ifs <;> omega
      have others (index : Nat) (notSize : index < address + 4 ∨ address + 8 ≤ index)
          (notNext : index < address + 12 ∨ address + 16 ≤ index) :
          changed index = memory index :=
        (write32_other _ _ _ _ (by omega)).trans (write32_other _ _ _ _ (by omega))
      have changedSize : blockSize changed address = joined :=
        (read32_write32_other _ _ _ _ (by omega)).trans
          (read32_write32_of_lt _ _ _ (by unfold metaSize at *; omega))
      obtain ⟨absorbed, remaining, whole, merged, rfl, allFree, stop, extent, run, mergedSize,
        mergedNext, untouched⟩ := inductionHypothesis changedSize
          (read32_write32_of_lt _ _ _ small)
          (by
            rw [joinedEnd]
            exact tail.frame fun index low _ => others index
              (by unfold metaSize at *; omega) (by unfold metaSize at *; omega))
          (by rw [joinedEnd]; exact reach) (by simpa using enough)
      refine ⟨block :: absorbed, remaining, whole, merged, rfl, ?_, stop, ?_, ?_, mergedSize,
        mergedNext, fun index notSize notNext => (untouched index notSize notNext).trans
          (others index notSize notNext)⟩
      · simpa [free] using allFree
      · rw [extent, joinedEnd, endOf_cons]
      · have freeField : blockFree memory (address + size + metaSize) ≠ 0 := by
          rw [standing.free, freeField_ne_zero]
          exact free
        have blockSizeRead : blockSize memory (address + size + metaSize) = block.size :=
          standing.size
        simp only [coalesceForward, next, position, freeField, sizeField, blockSizeRead,
          ne_eq, not_false_eq_true, and_self, if_true, ← joinedEq, ← sizedEq, sizedNext,
          nextNext, ← changedEq, run]
    · refine ⟨[], block :: rest, size, memory, rfl, by simp, by simpa using free, rfl, ?_,
        sizeField, follows, fun _ _ _ => rfl⟩
      have freeField : blockFree memory (address + size + metaSize) = 0 := by
        rw [standing.free, Block.freeField, if_neg free]
      simp only [coalesceForward, next, freeField, ne_eq, not_true_eq_false, and_false, if_false]

/-! ### Merging backward -/

/-- The search for the predecessor finds the block in front. -/
theorem findPrev_spec {memory : Bytes} {address fuel : Nat} {front after : List Block}
    {last : Block} (segment : Segment memory address (front ++ last :: after) 0)
    (someAfter : after ≠ []) (nonzero : address ≠ 0) (enough : front.length < fuel) :
    findPrev memory (endOf address (front ++ [last])) fuel address =
      .ok (endOf address front) := by
  induction front generalizing address fuel with
  | nil =>
    obtain ⟨fuel, rfl⟩ : ∃ less, fuel = less + 1 := ⟨fuel - 1, by simp at enough; omega⟩
    have next : blockNext memory address = address + last.span := by
      rw [segment.1.next, if_neg someAfter]
    simp [findPrev, next]
  | cons block rest inductionHypothesis =>
    obtain ⟨fuel, rfl⟩ : ∃ less, fuel = less + 1 := ⟨fuel - 1, by simp at enough; omega⟩
    have next : blockNext memory address = address + block.span := by
      rw [segment.1.next, if_neg (by simp)]
    have beyond := le_endOf (address + block.span) rest
    have wide := span_pos last
    have apart : blockNext memory address ≠ endOf address (block :: rest ++ [last]) := by
      rw [next, List.cons_append, endOf_cons, endOf_append, endOf_cons, endOf_nil]
      omega
    have walk := inductionHypothesis segment.2 (by omega) (by simpa using enough)
    rw [findPrev, if_pos ⟨nonzero, apart⟩, next]
    exact walk

/-- A predecessor in use: the freed block stays where it is. -/
theorem coalesced_kept {front rest : List Block} {last freed : Block}
    (coalesced : Coalesced (front ++ [last])) (live : last.free = false)
    (stop : ∀ block ∈ rest.head?, block.free = false) (tail : Coalesced rest) :
    Coalesced (front ++ [last] ++ freed :: rest) := by
  unfold Coalesced at *
  refine List.isChain_append.mpr ⟨coalesced, List.isChain_cons.mpr ⟨?_, tail⟩, ?_⟩
  · intro next member
    simp [stop next member]
  · simp [live]

/-- A free predecessor: the merged block takes its place. -/
theorem coalesced_merged {front rest : List Block} {last merged : Block}
    (coalesced : Coalesced (front ++ [last])) (free : last.free = true)
    (stop : ∀ block ∈ rest.head?, block.free = false) (tail : Coalesced rest) :
    Coalesced (front ++ merged :: rest) := by
  unfold Coalesced at *
  obtain ⟨first, -, joint⟩ := List.isChain_append.mp coalesced
  refine List.isChain_append.mpr ⟨first, List.isChain_cons.mpr ⟨?_, tail⟩, ?_⟩
  · intro next member
    simp [stop next member]
  · intro before member
    have live := joint before member last (by simp)
    simp only [free, and_true, Bool.not_eq_true] at live
    simp [live]

/-- Two free neighbours become one free block of their joint extent. -/
theorem blockAt_joined {memory : Bytes} {address next front back : Nat}
    (first : BlockAt memory address ⟨front, true⟩ (address + front + metaSize))
    (small : address + front + metaSize + back + metaSize ≤ 2 ^ 29) (linked : next < 2 ^ 32) :
    BlockAt (stampCanary (setNext (setSize memory address (front + (metaSize + back))) address
        next) address) address ⟨front + (metaSize + back), true⟩ next ∧
      ∀ index, index < address ∨ address + front + metaSize + back + metaSize ≤ index →
        stampCanary (setNext (setSize memory address (front + (metaSize + back))) address
          next) address index = memory index := by
  unfold metaSize at *
  have sizeRead : blockSize (setNext (setSize memory address (front + (20 + back))) address
      next) address = front + (20 + back) := by
    simp (disch := omega) only [blockSize, setSize, setNext, read32_write32_other,
      read32_write32_of_lt]
  refine ⟨blockAt_stamp ?_ sizeRead ?_ ?_, fun index apart => ?_⟩
  · refine Eq.trans ?_ first.magic
    simp (disch := omega) only [blockMagic, setSize, setNext, read32_write32_other]
  · refine Eq.trans ?_ first.free
    simp (disch := omega) only [blockFree, setSize, setNext, read32_write32_other]
  · exact read32_write32_of_lt _ _ _ linked
  · rw [stampCanary, sizeRead]
    unfold sizeofBlockMeta
    simp (disch := omega) only [setSize, setNext, write32_other]

/-- What the backward step of `kfree` writes, with the fields it reads filled in. -/
theorem coalesceBackward_eq {heap : HeapState} {memory : Bytes} {front rest : List Block}
    {last freed : Block} (base : heap.globalBase = kernelHeapBaseBytes)
    (segment : Segment memory kernelHeapBaseBytes (front ++ last :: freed :: rest) 0)
    (enough : front.length < walkFuel heap) :
    coalesceBackward heap memory (endOf kernelHeapBaseBytes (front ++ [last])) =
      .ok (if last.free = true then
        stampCanary (setNext (setSize memory (endOf kernelHeapBaseBytes front)
          (last.size + (metaSize + freed.size))) (endOf kernelHeapBaseBytes front)
          (if rest = [] then 0 else
            endOf kernelHeapBaseBytes front + last.span + freed.span))
          (endOf kernelHeapBaseBytes front)
      else memory) := by
  set previous := endOf kernelHeapBaseBytes front with previousEq
  have low := le_endOf kernelHeapBaseBytes front
  have address : endOf kernelHeapBaseBytes (front ++ [last]) = previous + last.span := by
    rw [endOf_append, endOf_cons, endOf_nil]
  have wide := span_pos last
  have positive : 0 < kernelHeapBaseBytes := by decide
  have nonzero : previous ≠ 0 := by omega
  have apart : heap.globalBase ≠ endOf kernelHeapBaseBytes (front ++ [last]) := by omega
  have found := findPrev_spec segment (by simp) positive.ne' enough
  have standing := segment.at
  have following : BlockAt memory (previous + last.span) freed
      (if rest = [] then 0 else previous + last.span + freed.span) := by
    rw [← address]
    have regrouped : front ++ last :: freed :: rest = front ++ [last] ++ freed :: rest := by
      simp
    rw [regrouped] at segment
    exact segment.at
  rw [← previousEq] at found standing
  have sizeEq : last.span = last.size + metaSize := rfl
  have nextRead : blockNext (setSize memory previous (last.size + (metaSize + freed.size)))
      (previous + last.span) = if rest = [] then 0 else previous + last.span + freed.span :=
    (read32_write32_other _ _ _ _ (by unfold metaSize at *; omega)).trans following.next
  rw [coalesceBackward, if_pos apart, base, found]
  by_cases free : last.free = true
  · have isFree : blockFree memory previous ≠ 0 := by
      rw [standing.free, freeField_ne_zero]
      exact free
    simp only [nonzero, isFree, ne_eq, not_false_eq_true, and_self, if_true, free,
      standing.size, address, following.size, nextRead]
  · have isLive : blockFree memory previous = 0 := by
      rw [standing.free, Block.freeField, if_neg free]
    simp only [isLive, ne_eq, not_true_eq_false, and_false, if_false, free, Bool.false_eq_true]

/-- The backward step of `kfree` restores the coalesced list. -/
theorem coalesceBackward_spec {heap : HeapState} {memory : Bytes} {before rest : List Block}
    {whole : Nat} (base : heap.globalBase = kernelHeapBaseBytes)
    (segment : Segment memory kernelHeapBaseBytes (before ++ ⟨whole, true⟩ :: rest) 0)
    (reach : endOf kernelHeapBaseBytes (before ++ ⟨whole, true⟩ :: rest) ≤ 2 ^ 29)
    (enough : before.length < walkFuel heap) (coalesced : Coalesced before)
    (stop : ∀ block ∈ rest.head?, block.free = false) (tail : Coalesced rest) :
    ∃ memory' blocks',
      coalesceBackward heap memory (endOf kernelHeapBaseBytes before) = .ok memory' ∧
      Segment memory' kernelHeapBaseBytes blocks' 0 ∧ blocks' ≠ [] ∧ Coalesced blocks' ∧
      endOf kernelHeapBaseBytes blocks' =
        endOf kernelHeapBaseBytes (before ++ ⟨whole, true⟩ :: rest) ∧
      payloads kernelHeapBaseBytes blocks' =
        payloads kernelHeapBaseBytes (before ++ ⟨whole, true⟩ :: rest) ∧
      PayloadsKept memory memory' blocks' := by
  rcases List.eq_nil_or_concat before with rfl | ⟨front, ⟨size, free⟩, rfl⟩
  · refine ⟨memory, ⟨whole, true⟩ :: rest, ?_, segment, by simp, ?_, rfl, rfl,
      fun _ _ _ _ _ => rfl⟩
    · simp [coalesceBackward, base]
    · refine List.isChain_cons.mpr ⟨fun next member => ?_, tail⟩
      simp [stop next member]
  rw [List.concat_eq_append] at *
  have shorter : front.length < walkFuel heap := by
    rw [List.length_append] at enough
    omega
  have grouped : Segment memory kernelHeapBaseBytes
      (front ++ ⟨size, free⟩ :: ⟨whole, true⟩ :: rest) 0 := by
    simpa using segment
  rw [coalesceBackward_eq base grouped shorter]
  cases free with
  | false =>
    exact ⟨memory, _, rfl, segment, by simp, coalesced_kept coalesced rfl stop tail, rfl, rfl,
      fun _ _ _ _ _ => rfl⟩
  | true =>
    set previous := endOf kernelHeapBaseBytes front with previousEq
    have standing := grouped.at
    rw [if_neg (by simp), ← previousEq] at standing
    have spanEq : previous + Block.span ⟨size, true⟩ = previous + size + metaSize :=
      (Nat.add_assoc _ _ _).symm
    have wholeEq : previous + Block.span ⟨size, true⟩ + Block.span ⟨whole, true⟩ =
        previous + size + metaSize + whole + metaSize := by
      rw [spanEq]
      exact (Nat.add_assoc _ _ _).symm
    have jointEq : previous + Block.span ⟨size + (metaSize + whole), true⟩ =
        previous + size + metaSize + whole + metaSize := by
      simp only [Block.span]
      omega
    rw [spanEq] at standing
    have beyond := le_endOf (previous + size + metaSize + whole + metaSize) rest
    have extent : endOf kernelHeapBaseBytes (front ++ [⟨size, true⟩] ++ ⟨whole, true⟩ :: rest) =
        endOf (previous + size + metaSize + whole + metaSize) rest := by
      rw [endOf_append, endOf_append, endOf_cons, endOf_cons, endOf_nil, ← previousEq, wholeEq]
    rw [extent] at reach ⊢
    have small : previous + size + metaSize + whole + metaSize ≤ 2 ^ 29 := by omega
    have linked : (if rest = [] then 0 else previous + size + metaSize + whole + metaSize) <
        2 ^ 32 := by
      split_ifs <;> omega
    obtain ⟨joined, outside⟩ := blockAt_joined standing small linked
    rw [if_pos rfl, wholeEq]
    have middle : Segment memory kernelHeapBaseBytes
        (front ++ [⟨size, true⟩, ⟨whole, true⟩] ++ rest) 0 := by
      simpa using segment
    have middleEnd : endOf previous [⟨size, true⟩, ⟨whole, true⟩] =
        previous + size + metaSize + whole + metaSize := wholeEq
    have joinedEnd : endOf previous [⟨size + (metaSize + whole), true⟩] =
        endOf previous [⟨size, true⟩, ⟨whole, true⟩] :=
      jointEq.trans middleEnd.symm
    have inside : Segment (stampCanary (setNext (setSize memory previous
        (size + (metaSize + whole))) previous (if rest = [] then 0 else
        previous + size + metaSize + whole + metaSize)) previous) previous
        [⟨size + (metaSize + whole), true⟩] (if rest = [] then 0 else
        endOf previous [⟨size, true⟩, ⟨whole, true⟩]) := by
      rw [middleEnd]
      exact ⟨by simpa using joined, trivial⟩
    have replaced := middle.replace (by simp) (by simp) joinedEnd
      (fun index apart => outside index (by rwa [← middleEnd])) inside
    refine ⟨_, front ++ [⟨size + (metaSize + whole), true⟩] ++ rest, rfl, replaced, by simp, ?_,
      ?_, ?_, ?_⟩
    · simpa using coalesced_merged coalesced rfl stop tail
    · rw [endOf_append, endOf_append, endOf_cons, endOf_nil, ← previousEq, jointEq]
    · simp only [payloads_append, payloads, endOf_append, endOf_cons, endOf_nil, ← previousEq,
        jointEq, wholeEq, if_true, List.append_nil, List.nil_append]
    · refine payloadsKept_of_outside (by simp [payloads]) fun index apart => outside index ?_
      rwa [endOf_cons, endOf_nil, ← previousEq, jointEq] at apart

/-! ### Release -/

theorem coalesced_tail {before after : List Block} {block : Block}
    (coalesced : Coalesced (before ++ block :: after)) : Coalesced before ∧ Coalesced after := by
  unfold Coalesced at *
  obtain ⟨first, second, -⟩ := List.isChain_append.mp coalesced
  exact ⟨first, (List.isChain_cons.mp second).2⟩

/-- The forward step of `kfree` on the block it marks free. -/
theorem mergeForward_spec {heap : HeapState} {before after : List Block} {block : Block}
    {address : Nat} (layout : Layout heap (before ++ block :: after))
    (addressEq : address = endOf kernelHeapBaseBytes before) :
    ∃ absorbed rest whole merged, after = absorbed ++ rest ∧
      (∀ block ∈ absorbed, block.free = true) ∧ (∀ block ∈ rest.head?, block.free = false) ∧
      coalesceForward (setFree (setMagic heap.memory address heapMagicFree) address 1) address
        (walkFuel heap) = .ok merged ∧
      endOf address [⟨whole, true⟩] = endOf address (block :: absorbed) ∧
      Segment (stampCanary merged address) kernelHeapBaseBytes
        (before ++ [⟨whole, true⟩] ++ rest) 0 ∧
      PayloadsKept heap.memory (stampCanary merged address)
        (before ++ [⟨whole, true⟩] ++ rest) := by
  have standing := layout.segment.at
  have beyond := layout.endOf_le
  have fuel := layout.walkFuel
  have spanEq : address + block.span = address + block.size + metaSize :=
    (Nat.add_assoc _ _ _).symm
  rw [endOf_append, endOf_cons, ← addressEq, spanEq] at beyond
  rw [← addressEq] at standing
  set marked := setFree (setMagic heap.memory address heapMagicFree) address 1 with markedEq
  have others (index : Nat) (notMagic : index < address ∨ address + 4 ≤ index)
      (notFree : index < address + 8 ∨ address + 12 ≤ index) :
      marked index = heap.memory index :=
    (write32_other _ _ _ _ (by omega)).trans (write32_other _ _ _ _ (by omega))
  have tail : Segment heap.memory (address + block.size + metaSize) after 0 := by
    have split := (segment_append.mp layout.segment).2
    rw [← addressEq] at split
    have second := split.2
    rwa [spanEq] at second
  have sizeField : blockSize marked address = block.size := by
    refine Eq.trans ?_ standing.size
    simp (disch := omega) only [markedEq, blockSize, setFree, setMagic, read32_write32_other]
  have follows : blockNext marked address = startOf (address + block.size + metaSize) after := by
    rw [startOf, ← spanEq]
    refine Eq.trans ?_ standing.next
    simp (disch := omega) only [markedEq, blockNext, setFree, setMagic, read32_write32_other]
  have markedTail : Segment marked (address + block.size + metaSize) after 0 :=
    tail.frame fun index low _ => others index (by unfold metaSize at low; omega)
      (by unfold metaSize at low; omega)
  have enough : after.length < walkFuel heap := by
    rw [List.length_append, List.length_cons] at fuel
    omega
  obtain ⟨absorbed, rest, whole, merged, rfl, allFree, stop, extent, run, mergedSize,
    mergedNext, untouched⟩ := coalesceForward_spec sizeField follows markedTail beyond enough
  have magicField : blockMagic merged address = heapMagicFree := by
    refine Eq.trans (read32_congr fun index _ _ => untouched index (by omega) (by omega)) ?_
    refine (read32_write32_other _ _ _ _ (by omega)).trans ?_
    exact read32_write32_of_lt _ _ _ (by decide)
  have freeField : blockFree merged address = 1 := by
    refine Eq.trans (read32_congr fun index _ _ => untouched index (by omega) (by omega)) ?_
    exact read32_write32_of_lt _ _ _ (by decide)
  have stamped : BlockAt (stampCanary merged address) address ⟨whole, true⟩
      (startOf (address + whole + metaSize) rest) :=
    blockAt_stamp magicField mergedSize freeField mergedNext
  have wholeEnd : endOf address [⟨whole, true⟩] = endOf address (block :: absorbed) := by
    rw [endOf_cons, endOf_cons, endOf_nil, spanEq, ← extent]
    exact (Nat.add_assoc _ _ _).symm
  have large : address + block.size + metaSize ≤ address + whole + metaSize := by
    rw [extent]
    exact le_endOf _ _
  have outside (index : Nat) (apart : index < endOf kernelHeapBaseBytes before ∨
      endOf (endOf kernelHeapBaseBytes before) (block :: absorbed) ≤ index) :
      stampCanary merged address index = heap.memory index := by
    rw [← addressEq, endOf_cons, spanEq, ← extent] at apart
    unfold metaSize at apart
    rw [stampCanary, mergedSize]
    unfold sizeofBlockMeta
    rw [write32_other _ _ _ _ (by omega), untouched index (by omega) (by omega)]
    exact others index (by omega) (by omega)
  have whole' : Segment heap.memory kernelHeapBaseBytes
      (before ++ (block :: absorbed) ++ rest) 0 := by
    simpa using layout.segment
  have inside : Segment (stampCanary merged address) (endOf kernelHeapBaseBytes before)
      [⟨whole, true⟩] (if rest = [] then 0 else
        endOf (endOf kernelHeapBaseBytes before) (block :: absorbed)) := by
    rw [← addressEq, endOf_cons, spanEq, ← extent]
    exact ⟨by simpa [startOf] using stamped, trivial⟩
  refine ⟨absorbed, rest, whole, merged, rfl, allFree, stop, run, wholeEnd,
    whole'.replace (by simp) (by simp) (by rw [← addressEq, wholeEnd]) outside inside,
    payloadsKept_of_outside (by simp [payloads]) fun index apart => outside index ?_⟩
  rwa [← addressEq, wholeEnd, addressEq] at apart

theorem payloads_of_free (address : Nat) {blocks : List Block}
    (allFree : ∀ block ∈ blocks, block.free = true) : payloads address blocks = [] := by
  induction blocks generalizing address with
  | nil => rfl
  | cons block rest inductionHypothesis =>
    rw [payloads, if_pos (allFree block (by simp)), List.nil_append]
    exact inductionHypothesis _ fun other member => allFree other (by simp [member])

/-- A release removes one live payload and keeps every byte of the others. -/
def Released (heap heap' : HeapState) (blocks : List Block) (payload : Nat × Nat) : Prop :=
  ∃ blocks', Layout heap' blocks' ∧ heap'.heapMaxBytes = heap.heapMaxBytes ∧
    (payloads kernelHeapBaseBytes blocks).Perm
      (payload :: payloads kernelHeapBaseBytes blocks') ∧
    PayloadsKept heap.memory heap'.memory blocks'

/-- `kfree` of a live payload returns and releases exactly that payload. -/
theorem kfree_spec {heap : HeapState} {blocks : List Block} {payload : Nat × Nat}
    (layout : Layout heap blocks) (member : payload ∈ payloads kernelHeapBaseBytes blocks) :
    ∃ heap', kfree heap payload.1 = .ok heap' ∧ Released heap heap' blocks payload := by
  obtain ⟨before, block, after, rfl, live, rfl⟩ := mem_payloads.mp member
  set address := endOf kernelHeapBaseBytes before with addressEq
  have low := le_endOf kernelHeapBaseBytes before
  have positive : 0 < kernelHeapBaseBytes := by decide
  have reach := layout.endOf_le
  have base : heap.globalBase = kernelHeapBaseBytes := by
    rw [layout.base, startOf, if_neg (by simp)]
  have standing := layout.segment.at
  rw [← addressEq] at standing
  have afterAddress := le_endOf (address + block.span) after
  have spanEq : block.span = block.size + metaSize := rfl
  rw [endOf_append, endOf_cons, ← addressEq] at reach
  have headerAddress : sub32 (address + sizeofBlockMeta) sizeofBlockMeta = address := by
    rw [sub32_of_le (by omega) (by unfold metaSize sizeofBlockMeta at *; omega)]
    omega
  have magic : blockMagic heap.memory address = heapMagicAlloc := by
    rw [standing.magic, Block.magic, live]
    rfl
  obtain ⟨absorbed, rest, whole, merged, rfl, allFree, stop, run, wholeEnd, segment, kept⟩ :=
    mergeForward_spec layout addressEq
  obtain ⟨coalescedBefore, coalescedAfter⟩ := coalesced_tail layout.coalesced
  have extent : endOf kernelHeapBaseBytes (before ++ ⟨whole, true⟩ :: rest) =
      endOf kernelHeapBaseBytes (before ++ block :: (absorbed ++ rest)) := by
    rw [endOf_append, endOf_append, ← addressEq]
    show endOf (endOf address [⟨whole, true⟩]) rest = endOf (address + block.span) _
    rw [wholeEnd, endOf_append]
    rfl
  have enough : before.length < walkFuel heap := by
    have fuel := layout.walkFuel
    rw [List.length_append] at fuel
    omega
  obtain ⟨memory', blocks', backward, segment', someBlocks, coalesced', extent', payloads',
    kept'⟩ := coalesceBackward_spec base (by simpa using segment)
      (by rw [extent]; exact layout.endOf_le) enough coalescedBefore stop
      (List.isChain_append.mp coalescedAfter).2.1
  refine ⟨{ heap with memory := memory', heapFrees := heap.heapFrees + 1 }, ?_, blocks',
    ⟨?_, segment', ?_, layout.ceiling, layout.addressable, coalesced'⟩, rfl, ?_, ?_⟩
  · have nonzero : address + sizeofBlockMeta ≠ 0 := by omega
    rw [← addressEq] at backward
    simp only [kfree, nonzero, headerAddress, magic, standing.blockCanary, run, backward, ne_eq,
      not_true_eq_false, if_false]
  · rw [base, startOf, if_neg someBlocks]
  · rw [extent', extent]
    exact layout.extent
  · have tail : endOf address (⟨whole, true⟩ :: []) = endOf (address + block.span) absorbed :=
      wholeEnd
    rw [payloads', payloads_append, payloads_append, ← addressEq, payloads, payloads,
      payloads_append, payloads_of_free _ allFree, ← tail, endOf_cons, endOf_nil, live]
    simp only [Bool.false_eq_true, if_false, if_true, List.nil_append, List.singleton_append]
    exact List.perm_middle
  · intro other member' index lower upper
    refine (kept' other member' index lower upper).trans (kept other ?_ index lower upper)
    rw [payloads'] at member'
    simpa using member'

end MectovOS.Heap
