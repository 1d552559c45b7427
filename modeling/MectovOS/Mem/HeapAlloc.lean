/-
This file proves what `kmalloc` does to the layout of the arena. A successful
allocation extends the arena or claims a free block and adds exactly one live
payload; it touches no byte of any other live payload, leaves the arena a
coalesced list of blocks laid end to end, and can neither panic nor run forever
on a laid-out arena.
-/

import MectovOS.Mem.HeapLayout

namespace MectovOS.Heap

open ByteMemory

/-! ### Laid-out heaps -/

/-- The pointer to a stretch of blocks that ends the list. -/
def startOf (address : Nat) (blocks : List Block) : Nat := if blocks = [] then 0 else address

/-- The arena of a heap is a coalesced list of blocks laid end to end up to `heapUsed`. -/
structure Layout (heap : HeapState) (blocks : List Block) : Prop where
  base : heap.globalBase = startOf kernelHeapBaseBytes blocks
  segment : Segment heap.memory kernelHeapBaseBytes blocks 0
  extent : endOf kernelHeapBaseBytes blocks = kernelHeapBaseBytes + heap.heapUsed
  ceiling : heap.heapUsed ≤ heap.heapMaxBytes
  addressable : kernelHeapBaseBytes + heap.heapMaxBytes ≤ 2 ^ 29
  coalesced : Coalesced blocks

theorem Layout.walkFuel {heap : HeapState} {blocks : List Block} (layout : Layout heap blocks) :
    blocks.length < walkFuel heap := by
  have count := length_le_endOf kernelHeapBaseBytes blocks
  rw [layout.extent] at count
  unfold Heap.walkFuel
  omega

/-- Every address up to the end of a layout is a 32-bit address. -/
theorem Layout.endOf_le {heap : HeapState} {blocks : List Block} (layout : Layout heap blocks) :
    endOf kernelHeapBaseBytes blocks ≤ 2 ^ 29 := by
  have ceiling := layout.ceiling
  have addressable := layout.addressable
  rw [layout.extent]
  omega

/-- Every byte of the live payloads is kept. -/
def PayloadsKept (memory changed : Bytes) (blocks : List Block) : Prop :=
  ∀ payload ∈ payloads kernelHeapBaseBytes blocks, ∀ index, payload.1 ≤ index →
    index < payload.1 + payload.2 → changed index = memory index

/-- A change inside the extent of a stretch without live payloads keeps every payload. -/
theorem payloadsKept_of_outside {memory changed : Bytes} {before middle after : List Block}
    (unused : payloads (endOf kernelHeapBaseBytes before) middle = [])
    (outside : ∀ index, index < endOf kernelHeapBaseBytes before ∨
      endOf (endOf kernelHeapBaseBytes before) middle ≤ index → changed index = memory index) :
    PayloadsKept memory changed (before ++ middle ++ after) := by
  intro payload member index low high
  rw [payloads_append, payloads_append, unused, List.append_nil, List.mem_append,
    endOf_append] at member
  refine outside index ?_
  rcases member with member | member
  · have bounds := payload_bounds member
    left
    omega
  · have bounds := payload_bounds member
    right
    omega

/-! ### Rounding and stamping -/

theorem u32_of_lt {value : Nat} (small : value < 2 ^ 32) : u32 value = value :=
  Nat.mod_eq_of_lt small

theorem sub32_of_le {left right : Nat} (ordered : right ≤ left) (small : left < 2 ^ 32) :
    sub32 left right = left - right := by
  unfold sub32 u32
  omega

theorem alignSize_spec {request : Nat} (small : request + 4 ≤ 2 ^ 32) :
    request ≤ alignSize request ∧ alignSize request ≤ request + 3 := by
  unfold alignSize
  split_ifs
  · rw [u32_of_lt (by omega)]
    omega
  · omega

/-- A rounded size is a multiple of four below the wrap. -/
theorem alignSize_room {request : Nat} (small : request + 4 ≤ 2 ^ 32) :
    alignSize request + 4 ≤ 2 ^ 32 := by
  unfold alignSize
  split_ifs
  · rw [u32_of_lt (by omega)]
    omega
  · omega

/-- A header in place and a stamped canary make a block. -/
theorem blockAt_stamp {memory : Bytes} {address next : Nat} {block : Block}
    (magic : blockMagic memory address = block.magic)
    (size : blockSize memory address = block.size)
    (free : blockFree memory address = block.freeField)
    (follows : blockNext memory address = next) :
    BlockAt (stampCanary memory address) address block next := by
  rw [stampCanary, size]
  have header (offset : Nat) (inside : offset + 4 ≤ 16) :
      read32 (write32 memory (address + sizeofBlockMeta + block.size) heapCanary)
        (address + offset) = read32 memory (address + offset) :=
    read32_write32_other _ _ _ _ (by unfold sizeofBlockMeta; omega)
  exact {
    magic := (header 0 (by omega)).trans magic
    size := (header 4 (by omega)).trans size
    free := (header 8 (by omega)).trans free
    next := (header 12 (by omega)).trans follows
    canary := read32_write32_of_lt _ _ _ (by decide) }

/-- What `request_space` and `kmalloc` write for a fresh block. -/
theorem blockAt_request {memory : Bytes} {address size : Nat} (small : size < 2 ^ 32) :
    BlockAt (stampCanary (setFree (setNext (setSize (setMagic memory address heapMagicAlloc)
      address size) address 0) address 0) address) address ⟨size, false⟩ 0 := by
  refine blockAt_stamp ?_ ?_ ?_ ?_ <;>
    simp (disch := omega) only [blockMagic, blockSize, blockFree, blockNext, setMagic, setSize,
      setFree, setNext, read32_write32_other, read32_write32_of_lt, Block.magic,
      Block.freeField, Bool.false_eq_true, if_false]
  exact read32_write32_of_lt _ _ _ (by decide)

/-- Linking a block to its successor changes its `next` field only. -/
theorem BlockAt.setNext {memory : Bytes} {address next target : Nat} {block : Block}
    (standing : BlockAt memory address block next) (small : target < 2 ^ 32) :
    BlockAt (setNext memory address target) address block target := by
  have word (other : Nat) (apart : other + 4 ≤ address + 12 ∨ address + 16 ≤ other) :
      read32 (Heap.setNext memory address target) other = read32 memory other :=
    read32_write32_other _ _ _ _ (by omega)
  exact {
    magic := (word address (by omega)).trans standing.magic
    size := (word (address + 4) (by omega)).trans standing.size
    free := (word (address + 8) (by omega)).trans standing.free
    next := read32_write32_of_lt _ _ _ small
    canary := (word _ (by unfold sizeofBlockMeta; omega)).trans standing.canary }

/-! ### The first-fit search -/

/-- Where a walk's `last` pointer stands after a stretch of blocks. -/
def lastOf (last address : Nat) : List Block → Nat
  | [] => last
  | block :: rest => lastOf address (address + block.span) rest

theorem lastOf_concat (last address : Nat) (front : List Block) (block : Block) :
    lastOf last address (front ++ [block]) = endOf address front := by
  induction front generalizing last address with
  | nil => rfl
  | cons head rest inductionHypothesis => exact inductionHypothesis _ _

theorem findFreeBlock_spec {memory : Bytes} {address fuel : Nat}
    {blocks : List Block} (size last : Nat) (segment : Segment memory address blocks 0) (nonzero : address ≠ 0)
    (enough : blocks.length < fuel) :
    (∃ before block after, blocks = before ++ block :: after ∧ block.free = true ∧
      size ≤ block.size ∧ ∃ passed,
        findFreeBlock memory size fuel last (startOf address blocks) =
          .ok (passed, endOf address before)) ∨
    findFreeBlock memory size fuel last (startOf address blocks) =
        .ok (lastOf last address blocks, 0) ∧
      ∀ block ∈ blocks, block.free = true → block.size < size := by
  induction blocks generalizing address fuel last with
  | nil =>
    obtain ⟨fuel, rfl⟩ : ∃ less, fuel = less + 1 := ⟨fuel - 1, by simp at enough; omega⟩
    right
    simp [findFreeBlock, startOf, lastOf]
  | cons block rest inductionHypothesis =>
    obtain ⟨fuel, rfl⟩ : ∃ less, fuel = less + 1 := ⟨fuel - 1, by simp at enough; omega⟩
    obtain ⟨standing, tail⟩ := segment
    have unfolded : findFreeBlock memory size (fuel + 1) last (startOf address (block :: rest)) =
        if ¬ (block.free = true ∧ size ≤ block.size) then
          findFreeBlock memory size fuel address (startOf (address + block.span) rest)
        else .ok (last, address) := by
      simp only [findFreeBlock, startOf, List.cons_ne_nil, if_false, standing.free, standing.size,
        standing.next, freeField_ne_zero, ne_eq, nonzero, not_false_eq_true, true_and]
    rw [unfolded]
    by_cases fits : block.free = true ∧ size ≤ block.size
    · left
      exact ⟨[], block, rest, rfl, fits.1, fits.2, last, by rw [if_neg (not_not.mpr fits)]; rfl⟩
    · rw [if_pos fits]
      rcases inductionHypothesis address tail (by omega) (by simpa using enough) with
        ⟨before, found, after, rfl, free, large, passed, walk⟩ | ⟨walk, small⟩
      · exact Or.inl ⟨block :: before, found, after, rfl, free, large, passed, walk⟩
      · refine Or.inr ⟨walk, fun other member free => ?_⟩
        rcases List.mem_cons.mp member with rfl | behind
        · exact Nat.not_le.mp fun large => fits ⟨free, large⟩
        · exact small other behind free

/-! ### Extending the arena -/

/-- Linking the last block retargets the end of the list and touches no payload. -/
theorem linkLast_spec {memory : Bytes} {blocks : List Block} {last target : Nat}
    (small : target < 2 ^ 32) (segment : Segment memory kernelHeapBaseBytes blocks 0)
    (position : last = lastOf 0 kernelHeapBaseBytes blocks) :
    Segment (linkLast memory last target) kernelHeapBaseBytes blocks target ∧
      PayloadsKept memory (linkLast memory last target) blocks := by
  rcases List.eq_nil_or_concat blocks with rfl | ⟨front, block, rfl⟩
  · exact ⟨trivial, fun payload member => by simp [payloads] at member⟩
  · rw [List.concat_eq_append] at *
    rw [lastOf_concat] at position
    have base := le_endOf kernelHeapBaseBytes front
    have positive : 0 < kernelHeapBaseBytes := by decide
    have nonzero : last ≠ 0 := by omega
    rw [linkLast, if_pos nonzero]
    have others (index : Nat) (apart : index < last + 12 ∨ last + 16 ≤ index) :
        setNext memory last target index = memory index :=
      write32_other _ _ _ _ (by omega)
    rw [segment_concat] at segment ⊢
    subst position
    refine ⟨⟨segment.1.frame fun index _ high => others index (by omega),
      segment.2.setNext small⟩, ?_⟩
    intro payload member index low high
    refine others index ?_
    rw [payloads_append, List.mem_append] at member
    rcases member with member | member
    · have bounds := payload_bounds member
      omega
    · have bounds := payload_bounds member
      unfold sizeofBlockMeta at bounds
      omega

/-- Extending the arena either fails without a trace or appends one block in use. -/
theorem requestSpace_spec {heap : HeapState} {blocks : List Block} {last size : Nat}
    (layout : Layout heap blocks) (position : last = lastOf 0 kernelHeapBaseBytes blocks)
    (small : size < 2 ^ 32) :
    (requestSpace heap last size = (heap, 0) ∧
      heap.heapMaxBytes < heap.heapUsed + size + metaSize) ∨
    ∃ memory, requestSpace heap last size =
        ({ heap with memory := memory, heapUsed := heap.heapUsed + size + metaSize },
          endOf kernelHeapBaseBytes blocks) ∧
      heap.heapUsed + size + metaSize ≤ heap.heapMaxBytes ∧
      Segment (stampCanary memory (endOf kernelHeapBaseBytes blocks)) kernelHeapBaseBytes
        (blocks ++ [⟨size, false⟩]) 0 ∧
      PayloadsKept heap.memory (stampCanary memory (endOf kernelHeapBaseBytes blocks))
        blocks := by
  have used := layout.ceiling
  have addressable := layout.addressable
  have beyond := layout.endOf_le
  unfold requestSpace
  split_ifs with full
  · refine Or.inl ⟨rfl, ?_⟩
    unfold u32 metaSize at full
    unfold metaSize
    omega
  rw [not_or, not_or] at full
  have noWrap : heap.heapUsed + size + metaSize < 2 ^ 32 := by
    unfold metaSize
    omega
  rw [u32_of_lt noWrap] at full ⊢
  rw [← layout.extent]
  set fresh := endOf kernelHeapBaseBytes blocks with freshEq
  have freshSmall : fresh < 2 ^ 32 := by omega
  obtain ⟨linked, kept⟩ := linkLast_spec freshSmall layout.segment position
  set memory := setFree (setNext (setSize (setMagic (linkLast heap.memory last fresh) fresh
    heapMagicAlloc) fresh size) fresh 0) fresh 0 with memoryEq
  have standing : BlockAt (stampCanary memory fresh) fresh ⟨size, false⟩ 0 :=
    blockAt_request small
  have below (index : Nat) (low : index < fresh) :
      stampCanary memory fresh index = linkLast heap.memory last fresh index := by
    simp (disch := omega) only [memoryEq, stampCanary, setFree, setNext, setSize, setMagic,
      write32_other]
  refine Or.inr ⟨memory, rfl, by omega, segment_concat.mpr ⟨?_, standing⟩, ?_⟩
  · exact linked.frame fun index _ high => below index high
  · intro payload member index low high
    have bounds := payload_bounds member
    exact (below index (by omega)).trans (kept payload member index low high)

/-! ### Reusing a free block -/

theorem coalesced_allocate {before after : List Block} {block : Block} (size : Nat)
    (coalesced : Coalesced (before ++ block :: after)) :
    Coalesced (before ++ ⟨size, false⟩ :: after) := by
  unfold Coalesced at *
  rw [List.isChain_append] at coalesced ⊢
  obtain ⟨first, second, -⟩ := coalesced
  refine ⟨first, ?_, by simp⟩
  rw [List.isChain_cons] at second ⊢
  exact ⟨by simp, second.2⟩

theorem coalesced_split {before after : List Block} {block : Block} (size rest : Nat)
    (coalesced : Coalesced (before ++ block :: after)) (free : block.free = true) :
    Coalesced (before ++ ⟨size, false⟩ :: ⟨rest, true⟩ :: after) := by
  unfold Coalesced at *
  rw [List.isChain_append] at coalesced ⊢
  obtain ⟨first, second, -⟩ := coalesced
  refine ⟨first, ?_, by simp⟩
  rw [List.isChain_cons] at second
  refine List.isChain_cons.mpr ⟨by simp, List.isChain_cons.mpr ⟨?_, second.2⟩⟩
  intro next member
  have apart := second.1 next member
  simpa [free] using apart

theorem coalesced_concat {blocks : List Block} (size : Nat) (coalesced : Coalesced blocks) :
    Coalesced (blocks ++ [⟨size, false⟩]) := by
  unfold Coalesced at *
  rw [List.isChain_append]
  exact ⟨coalesced, List.isChain_singleton _, by simp⟩

/-- The block `kmalloc` hands out of a free block, and the remainder it leaves. -/
def carve (block : Block) (size : Nat) : List Block :=
  if size + metaSize + 4 ≤ block.size then
    [⟨size, false⟩, ⟨block.size - size - metaSize, true⟩]
  else [⟨block.size, false⟩]

/-- The memory after `kmalloc` has claimed the free block at an address. -/
def claimMemory (memory : Bytes) (address size : Nat) : Bytes :=
  let split :=
    if u32 (size + metaSize + 4) ≤ blockSize memory address then splitBlock memory address size
    else memory
  stampCanary (setFree (setMagic split address heapMagicAlloc) address 0) address

/-- Claiming a whole free block. -/
theorem blockAt_claim {memory : Bytes} {address next size : Nat}
    (standing : BlockAt memory address ⟨size, true⟩ next) :
    BlockAt (stampCanary (setFree (setMagic memory address heapMagicAlloc) address 0) address)
      address ⟨size, false⟩ next := by
  refine blockAt_stamp ?_ ?_ ?_ ?_ <;>
    simp (disch := omega) only [blockMagic, blockSize, blockFree, blockNext, setMagic, setFree,
      read32_write32_other, read32_write32_of_lt, Block.magic, Block.freeField,
      Bool.false_eq_true, if_false]
  · exact read32_write32_of_lt _ _ _ (by decide)
  · exact standing.size
  · exact standing.next

/-- What `splitBlock` writes, with the fields it reads filled in. -/
theorem splitBlock_eq {memory : Bytes} {address next size whole : Nat}
    (standing : BlockAt memory address ⟨whole, true⟩ next)
    (room : size + metaSize + 4 ≤ whole) (small : whole < 2 ^ 32) :
    splitBlock memory address size =
      setNext (setSize (stampCanary (setNext (setFree (setSize (setMagic memory
        (address + metaSize + size) heapMagicFree) (address + metaSize + size)
        (whole - size - metaSize)) (address + metaSize + size) 1) (address + metaSize + size)
        next) (address + metaSize + size)) address size) address (address + metaSize + size) := by
  have follows := standing.next
  have wholeSize := standing.size
  unfold metaSize at *
  have remainder : sub32 (sub32 whole size) 20 = whole - size - 20 := by
    rw [sub32_of_le (by omega) small, sub32_of_le (by omega) (by omega)]
  have sizeRead : blockSize (setMagic memory (address + 20 + size) heapMagicFree) address =
      whole := (read32_write32_other _ _ _ _ (by omega)).trans wholeSize
  have nextRead : blockNext (setFree (setSize (setMagic memory (address + 20 + size)
      heapMagicFree) (address + 20 + size) (whole - size - 20)) (address + 20 + size) 1) address =
      next := by
    unfold blockNext setFree setSize setMagic
    rw [read32_write32_other _ _ _ _ (by omega), read32_write32_other _ _ _ _ (by omega),
      read32_write32_other _ _ _ _ (by omega)]
    exact follows
  simp only [splitBlock, metaSize, sizeRead, remainder, nextRead]

/-- The remainder `splitBlock` leaves is a free block that keeps the old successor. -/
theorem blockAt_remainder {memory : Bytes} {address next size whole : Nat}
    (standing : BlockAt memory address ⟨whole, true⟩ next)
    (room : size + metaSize + 4 ≤ whole) (small : whole < 2 ^ 32) (linked : next < 2 ^ 32) :
    BlockAt (splitBlock memory address size) (address + metaSize + size)
      ⟨whole - size - metaSize, true⟩ next := by
  rw [splitBlock_eq standing room small]
  unfold metaSize at *
  have stamped : BlockAt (stampCanary (setNext (setFree (setSize (setMagic memory
      (address + 20 + size) heapMagicFree) (address + 20 + size)
      (whole - size - 20)) (address + 20 + size) 1) (address + 20 + size) next)
      (address + 20 + size)) (address + 20 + size) ⟨whole - size - 20, true⟩ next := by
    refine blockAt_stamp ?_ ?_ ?_ ?_ <;>
      simp (disch := omega) only [blockMagic, blockSize, blockFree, blockNext, setMagic, setSize,
        setFree, setNext, read32_write32_other, read32_write32_of_lt, Block.magic,
        Block.freeField, if_true]
    exact read32_write32_of_lt _ _ _ (by decide)
  exact stamped.frame fun index low _ _ => (write32_other _ _ _ _ (by omega)).trans
    (write32_other _ _ _ _ (by omega))

/-- The front of a split block is in use and points to the remainder. -/
theorem blockAt_front {memory : Bytes} {address next size whole : Nat}
    (standing : BlockAt memory address ⟨whole, true⟩ next)
    (room : size + metaSize + 4 ≤ whole) (small : whole < 2 ^ 32)
    (position : address + metaSize + size < 2 ^ 32) :
    BlockAt (stampCanary (setFree (setMagic (splitBlock memory address size) address
      heapMagicAlloc) address 0) address) address ⟨size, false⟩ (address + metaSize + size) := by
  rw [splitBlock_eq standing room small]
  unfold metaSize at *
  refine blockAt_stamp ?_ ?_ ?_ ?_ <;>
    simp (disch := omega) only [blockMagic, blockSize, blockFree, blockNext, setMagic, setSize,
      setFree, setNext, read32_write32_other, read32_write32_of_lt, Block.magic,
      Block.freeField, Bool.false_eq_true, if_false]
  exact read32_write32_of_lt _ _ _ (by decide)

/-- Claiming the front of a split block writes inside the block only. -/
theorem claimMemory_split {memory : Bytes} {address next size whole : Nat}
    (standing : BlockAt memory address ⟨whole, true⟩ next)
    (room : size + metaSize + 4 ≤ whole) (position : address + whole + metaSize ≤ 2 ^ 29)
    (linked : next < 2 ^ 32) :
    Segment (claimMemory memory address size) address
        [⟨size, false⟩, ⟨whole - size - metaSize, true⟩] next ∧
      ∀ index, index < address ∨ address + whole + metaSize ≤ index →
        claimMemory memory address size index = memory index := by
  have small : whole < 2 ^ 32 := by omega
  have front := blockAt_front standing room small (by omega)
  have remainder := blockAt_remainder standing room small linked
  have bound : u32 (size + metaSize + 4) = size + metaSize + 4 := u32_of_lt (by omega)
  have follows : address + Block.span ⟨size, false⟩ = address + metaSize + size := by
    simp only [Block.span]
    omega
  simp only [claimMemory, bound, standing.size, room, if_true]
  have frontSize : blockSize (setFree (setMagic (splitBlock memory address size) address
      heapMagicAlloc) address 0) address = size := by
    rw [splitBlock_eq standing room small]
    unfold metaSize at *
    simp (disch := omega) only [blockSize, setMagic, setSize, setFree, setNext,
      read32_write32_other, read32_write32_of_lt]
  have untouched (index : Nat) (apart : index < address ∨ address + 16 ≤ index)
      (canary : index < address + 16 + size ∨ address + 20 + size ≤ index) :
      stampCanary (setFree (setMagic (splitBlock memory address size) address heapMagicAlloc)
        address 0) address index = splitBlock memory address size index := by
    rw [stampCanary, frontSize]
    unfold sizeofBlockMeta
    refine (write32_other _ _ _ _ (by omega)).trans ?_
    exact (write32_other _ _ _ _ (by omega)).trans (write32_other _ _ _ _ (by omega))
  refine ⟨⟨?_, ?_, trivial⟩, fun index apart => ?_⟩
  · rw [if_neg (by simp), follows]
    exact front
  · rw [follows, if_pos rfl]
    refine remainder.frame fun index low _ _ => untouched index ?_ ?_ <;>
      unfold metaSize at low <;> omega
  · unfold metaSize at *
    rw [untouched index (by omega) (by omega), splitBlock_eq standing room small]
    have newSize : blockSize (setNext (setFree (setSize (setMagic memory
        (address + 20 + size) heapMagicFree) (address + 20 + size)
        (whole - size - 20)) (address + 20 + size) 1) (address + 20 + size) next)
        (address + 20 + size) = whole - size - 20 := by
      simp (disch := omega) only [blockSize, setMagic, setSize, setFree, setNext,
        read32_write32_other, read32_write32_of_lt]
    simp only [metaSize, stampCanary, newSize, sizeofBlockMeta]
    simp (disch := omega) only [setMagic, setSize, setFree, setNext, write32_other]

/-- Claiming a whole free block writes inside the block only. -/
theorem claimMemory_whole {memory : Bytes} {address next size whole : Nat}
    (standing : BlockAt memory address ⟨whole, true⟩ next) (fits : size ≤ whole)
    (tight : ¬ size + metaSize + 4 ≤ whole) (position : address + whole + metaSize ≤ 2 ^ 29) :
    Segment (claimMemory memory address size) address [⟨whole, false⟩] next ∧
      ∀ index, index < address ∨ address + whole + metaSize ≤ index →
        claimMemory memory address size index = memory index := by
  have bound : u32 (size + metaSize + 4) = size + metaSize + 4 :=
    u32_of_lt (by unfold metaSize at *; omega)
  simp only [claimMemory, bound, standing.size, tight, if_false]
  refine ⟨⟨by simpa using blockAt_claim standing, trivial⟩, fun index apart => ?_⟩
  have sameSize : blockSize (setFree (setMagic memory address heapMagicAlloc) address 0)
      address = whole := by
    refine Eq.trans ?_ standing.size
    simp (disch := omega) only [blockSize, setMagic, setFree, read32_write32_other]
  rw [stampCanary, sameSize]
  unfold metaSize at apart
  unfold sizeofBlockMeta
  simp (disch := omega) only [setMagic, setFree, write32_other]

/-- Claiming a free block leaves what `carve` says, in place of the block. -/
theorem claimMemory_spec {memory : Bytes} {address next size whole : Nat}
    (standing : BlockAt memory address ⟨whole, true⟩ next) (fits : size ≤ whole)
    (position : address + whole + metaSize ≤ 2 ^ 29) (linked : next < 2 ^ 32) :
    Segment (claimMemory memory address size) address (carve ⟨whole, true⟩ size) next ∧
      ∀ index, index < address ∨ address + whole + metaSize ≤ index →
        claimMemory memory address size index = memory index := by
  unfold carve
  split_ifs with room
  · exact claimMemory_split standing room position linked
  · exact claimMemory_whole standing fits room position

theorem endOf_carve (address size : Nat) (block : Block) :
    endOf address (carve block size) = address + block.span := by
  unfold carve
  split_ifs with room
  · simp only [endOf_cons, endOf_nil, Block.span]
    omega
  · rfl

/-- What carving a free block adds to the live payloads. -/
theorem payloads_carve (address size : Nat) (block : Block) (fits : size ≤ block.size) :
    ∃ granted, size ≤ granted ∧
      payloads address (carve block size) = [(address + sizeofBlockMeta, granted)] := by
  unfold carve
  split_ifs with room
  · exact ⟨size, le_rfl, by simp [payloads]⟩
  · exact ⟨block.size, fits, by simp [payloads]⟩

theorem coalesced_carve {before after : List Block} {block : Block} (size : Nat)
    (coalesced : Coalesced (before ++ block :: after)) (free : block.free = true) :
    Coalesced (before ++ carve block size ++ after) := by
  unfold carve
  split_ifs with room
  · simpa using coalesced_split size _ coalesced free
  · simpa using coalesced_allocate block.size coalesced

/-! ### Allocation -/

/-- An allocation either fails, leaving the arena as it was, or adds one live payload of at
least the requested size and keeps every byte of the others. -/
def Granted (heap heap' : HeapState) (blocks : List Block) (request pointer : Nat) : Prop :=
  ∃ blocks', Layout heap' blocks' ∧ heap'.heapMaxBytes = heap.heapMaxBytes ∧
    ((pointer = 0 ∧ blocks' = blocks ∧ heap'.memory = heap.memory) ∨
      (pointer ≠ 0 ∧ PayloadsKept heap.memory heap'.memory blocks ∧
        ∃ size, request ≤ size ∧ (payloads kernelHeapBaseBytes blocks').Perm
          ((pointer, size) :: payloads kernelHeapBaseBytes blocks)))

/-- The counters are no part of the layout. -/
theorem Layout.failAlloc {heap : HeapState} {blocks : List Block} (layout : Layout heap blocks)
    (request : Nat) : Granted heap (failAlloc heap).1 blocks request 0 :=
  ⟨blocks, ⟨layout.base, layout.segment, layout.extent, layout.ceiling, layout.addressable,
    layout.coalesced⟩, rfl, Or.inl ⟨rfl, rfl, rfl⟩⟩

/-- A fresh block at the end of the arena. -/
theorem Layout.extend {heap : HeapState} {blocks : List Block} {memory : Bytes}
    {globalBase size request fresh : Nat} (layout : Layout heap blocks)
    (position : fresh = endOf kernelHeapBaseBytes blocks)
    (base : globalBase = startOf kernelHeapBaseBytes (blocks ++ [⟨size, false⟩]))
    (room : heap.heapUsed + size + metaSize ≤ heap.heapMaxBytes) (enough : request ≤ size)
    (segment : Segment (stampCanary memory fresh) kernelHeapBaseBytes
      (blocks ++ [⟨size, false⟩]) 0)
    (kept : PayloadsKept heap.memory (stampCanary memory fresh) blocks) :
    Granted heap (finishAlloc { heap with
        memory := memory, globalBase := globalBase,
        heapUsed := heap.heapUsed + size + metaSize } fresh).1 blocks request
      (fresh + sizeofBlockMeta) := by
  refine ⟨blocks ++ [Block.mk size false], ⟨base, segment, ?_, room, layout.addressable,
    coalesced_concat size layout.coalesced⟩, rfl, Or.inr ⟨by simp [sizeofBlockMeta], kept, size,
    enough, ?_⟩⟩
  · rw [endOf_append, layout.extent]
    simp only [endOf_cons, endOf_nil, Block.span, finishAlloc]
    omega
  · rw [payloads_append, position]
    simp [payloads]

/-- A free block of the list, claimed. -/
theorem Layout.claim {heap : HeapState} {before after : List Block} {block : Block}
    {size request : Nat} (layout : Layout heap (before ++ block :: after))
    (free : block.free = true) (fits : size ≤ block.size) (enough : request ≤ size) :
    Granted heap { heap with
        memory := claimMemory heap.memory (endOf kernelHeapBaseBytes before) size,
        heapAllocs := heap.heapAllocs + 1 } (before ++ block :: after) request
      (endOf kernelHeapBaseBytes before + sizeofBlockMeta) := by
  obtain ⟨whole, isFree⟩ := block
  subst free
  set address := endOf kernelHeapBaseBytes before with addressEq
  have beyond := layout.endOf_le
  have later := le_endOf (address + Block.span ⟨whole, true⟩) after
  rw [endOf_append, endOf_cons, ← addressEq] at beyond
  have spanEq : address + Block.span ⟨whole, true⟩ = address + whole + metaSize := by
    simp only [Block.span]
    omega
  have standing := layout.segment.at
  rw [← addressEq] at standing
  obtain ⟨segment, outside⟩ := claimMemory_spec standing fits (by omega)
    (by split_ifs <;> omega)
  obtain ⟨granted, large, gained⟩ := payloads_carve address size ⟨whole, true⟩ fits
  have nonempty : carve ⟨whole, true⟩ size ≠ [] := by
    unfold carve
    split_ifs <;> simp
  have extent := endOf_carve address size ⟨whole, true⟩
  have standingSegment : Segment heap.memory kernelHeapBaseBytes
      (before ++ [⟨whole, true⟩] ++ after) 0 := by
    simpa using layout.segment
  have outside' (index : Nat) (apart : index < endOf kernelHeapBaseBytes before ∨
      endOf (endOf kernelHeapBaseBytes before) [⟨whole, true⟩] ≤ index) :
      claimMemory heap.memory address size index = heap.memory index := by
    rw [← addressEq, endOf_cons, endOf_nil, spanEq] at apart
    exact outside index apart
  refine ⟨before ++ carve ⟨whole, true⟩ size ++ after, ⟨?_, ?_, ?_, layout.ceiling,
    layout.addressable, coalesced_carve size layout.coalesced rfl⟩, rfl, Or.inr ⟨?_, ?_,
    granted, enough.trans large, ?_⟩⟩
  · simpa [startOf, nonempty] using layout.base
  · exact standingSegment.replace (by simp) nonempty extent outside' segment
  · rw [← layout.extent, endOf_append, endOf_append, endOf_append, extent, endOf_cons]
  · simp [sizeofBlockMeta]
  · have kept : PayloadsKept heap.memory (claimMemory heap.memory address size)
        (before ++ [⟨whole, true⟩] ++ after) :=
      payloadsKept_of_outside (by simp [payloads]) outside'
    simpa using kept
  · rw [payloads_append, payloads_append, gained, payloads_append, endOf_append, extent]
    simp only [payloads, if_true, List.nil_append, List.append_assoc, List.singleton_append,
      ← addressEq]
    exact List.perm_middle

/-- No free block is large enough, and there is no room for a new one. -/
def Full (heap : HeapState) (blocks : List Block) (size : Nat) : Prop :=
  (∀ block ∈ blocks, block.free = true → block.size < size) ∧
    heap.heapMaxBytes < heap.heapUsed + size + metaSize

/-- `kmalloc` always returns, with a fresh live payload of the rounded size, or with nothing if
nothing was asked for or the heap is full. -/
theorem kmalloc_rounded {heap : HeapState} {blocks : List Block} {request bound : Nat}
    (layout : Layout heap blocks) (enough : bound ≤ alignSize request)
    (aligned : alignSize request < 2 ^ 32) :
    ∃ heap' pointer, kmalloc heap request = .ok (heap', pointer) ∧
      Granted heap heap' blocks bound pointer ∧
      (pointer = 0 ↔ request = 0 ∨ Full heap blocks (alignSize request)) := by
  have baseNonzero : kernelHeapBaseBytes ≠ 0 := by decide
  have low := le_endOf kernelHeapBaseBytes blocks
  have endNonzero : endOf kernelHeapBaseBytes blocks ≠ 0 := by omega
  unfold kmalloc
  split_ifs with nothing empty
  · exact ⟨heap, 0, rfl, ⟨blocks, layout, rfl, Or.inl ⟨rfl, rfl, rfl⟩⟩,
      iff_of_true rfl (Or.inl nothing)⟩
  · have noBlocks : blocks = [] := by
      by_contra some
      rw [layout.base, startOf, if_neg some] at empty
      exact baseNonzero empty
    subst noBlocks
    rcases requestSpace_spec layout (show 0 = lastOf 0 kernelHeapBaseBytes [] from rfl)
      aligned with ⟨failed, full⟩ | ⟨memory, extended, room, segment, kept⟩
    · simp only [failed, ne_eq, not_true_eq_false, if_false]
      exact ⟨_, _, rfl, layout.failAlloc bound, iff_of_true rfl
        (Or.inr ⟨fun block member => absurd member List.not_mem_nil, full⟩)⟩
    · simp only [extended, ne_eq, endNonzero, not_false_eq_true, if_true]
      exact ⟨_, _, rfl, layout.extend rfl rfl room enough segment kept, iff_of_false
        (fun zero => endNonzero (Nat.eq_zero_of_add_eq_zero_right zero))
        fun either => either.elim nothing fun full => Nat.not_lt.mpr room full.2⟩
  · have someBlocks : blocks ≠ [] := by
      rintro rfl
      exact empty layout.base
    have base := layout.base
    have walk := findFreeBlock_spec (alignSize request) heap.globalBase layout.segment
      baseNonzero layout.walkFuel
    rw [← base] at walk
    rcases walk with ⟨before, block, after, rfl, free, fits, passed, walk⟩ | ⟨walk, small⟩
    · have found : endOf kernelHeapBaseBytes before ≠ 0 := by
        have := le_endOf kernelHeapBaseBytes before
        omega
      have magic : blockMagic heap.memory (endOf kernelHeapBaseBytes before) =
          heapMagicFree := by
        rw [layout.segment.at.magic, Block.magic, free, if_pos rfl]
      simp only [walk, found, magic, ne_eq, not_true_eq_false, if_false]
      refine ⟨_, _, rfl, layout.claim free fits enough, iff_of_false
        (fun zero => found (Nat.eq_zero_of_add_eq_zero_right zero))
        fun either => either.elim nothing fun full => ?_⟩
      exact Nat.not_lt.mpr fits (full.1 block (List.mem_append_right _ List.mem_cons_self) free)
    · have fromStart : lastOf heap.globalBase kernelHeapBaseBytes blocks =
          lastOf 0 kernelHeapBaseBytes blocks := by
        cases blocks with
        | nil => exact absurd rfl someBlocks
        | cons block rest => rfl
      simp only [walk, if_true]
      rcases requestSpace_spec layout fromStart aligned with
        ⟨failed, full⟩ | ⟨memory, extended, room, segment, kept⟩
      · simp only [failed, ne_eq, not_true_eq_false, if_false]
        exact ⟨_, _, rfl, layout.failAlloc bound, iff_of_true rfl (Or.inr ⟨small, full⟩)⟩
      · simp only [extended, ne_eq, endNonzero, not_false_eq_true, if_true]
        refine ⟨_, _, rfl, layout.extend rfl ?_ room enough segment kept, iff_of_false
          (fun zero => endNonzero (Nat.eq_zero_of_add_eq_zero_right zero))
          fun either => either.elim nothing fun full => Nat.not_lt.mpr room full.2⟩
        rw [base, startOf, startOf, if_neg someBlocks, if_neg (by simp)]

/-- `kmalloc` always returns, with nothing or with a fresh live payload. -/
theorem kmalloc_spec {heap : HeapState} {blocks : List Block} {request : Nat}
    (layout : Layout heap blocks) (small : request + 4 ≤ 2 ^ 32) :
    ∃ heap' pointer, kmalloc heap request = .ok (heap', pointer) ∧
      Granted heap heap' blocks request pointer := by
  obtain ⟨enough, little⟩ := alignSize_spec small
  obtain ⟨heap', pointer, run, granted, -⟩ := kmalloc_rounded layout enough (by omega)
  exact ⟨heap', pointer, run, granted⟩

end MectovOS.Heap
