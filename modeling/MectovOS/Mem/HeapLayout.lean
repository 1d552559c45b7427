/-
This file gives the heap arena its meaning: a list of blocks, laid end to end
from the heap base, each with its header and its canary in memory and its
`next` field naming the block that follows. The facts proved here are about
layouts alone: a layout of a concatenation is a layout of the parts, a stretch
of blocks can be exchanged for another stretch of the same extent without
touching the rest, and the live payloads of a layout are pairwise disjoint.
-/

import MectovOS.Mem.Heap

namespace MectovOS.Heap

open ByteMemory

/-! ### Blocks and their extents -/

/-- A block of the arena. -/
structure Block where
  size : Nat
  free : Bool
  deriving DecidableEq

/-- The bytes a block occupies: header, payload and canary. -/
def Block.span (block : Block) : Nat := block.size + metaSize

/-- The address just past a stretch of blocks. -/
def endOf (address : Nat) : List Block → Nat
  | [] => address
  | block :: rest => endOf (address + block.span) rest

@[simp] theorem endOf_nil (address : Nat) : endOf address [] = address := rfl

@[simp] theorem endOf_cons (address : Nat) (block : Block) (rest : List Block) :
    endOf address (block :: rest) = endOf (address + block.span) rest := rfl

theorem endOf_append (address : Nat) (first second : List Block) :
    endOf address (first ++ second) = endOf (endOf address first) second := by
  induction first generalizing address with
  | nil => rfl
  | cons block rest inductionHypothesis => exact inductionHypothesis _

theorem le_endOf (address : Nat) (blocks : List Block) : address ≤ endOf address blocks := by
  induction blocks generalizing address with
  | nil => exact le_rfl
  | cons block rest inductionHypothesis =>
    exact le_trans (Nat.le_add_right _ _) (inductionHypothesis _)

theorem span_pos (block : Block) : 20 ≤ block.span := Nat.le_add_left _ _

theorem length_le_endOf (address : Nat) (blocks : List Block) :
    address + 20 * blocks.length ≤ endOf address blocks := by
  induction blocks generalizing address with
  | nil => exact le_rfl
  | cons block rest inductionHypothesis =>
    have tail := inductionHypothesis (address + block.span)
    have positive := span_pos block
    rw [endOf_cons, List.length_cons]
    omega

/-! ### Blocks in memory -/

/-- The magic a block carries. -/
def Block.magic (block : Block) : Nat := if block.free then heapMagicFree else heapMagicAlloc

/-- The value of a block's free field. -/
def Block.freeField (block : Block) : Nat := if block.free then 1 else 0

/-- A block's header and canary stand at an address. -/
structure BlockAt (memory : Bytes) (address : Nat) (block : Block) (next : Nat) : Prop where
  magic : blockMagic memory address = block.magic
  size : blockSize memory address = block.size
  free : blockFree memory address = block.freeField
  next : blockNext memory address = next
  canary : read32 memory (address + sizeofBlockMeta + block.size) = heapCanary

/-- A stretch of blocks laid end to end from an address. Every block's `next` is the
address where the block ends, the last one's is `stop`. -/
def Segment (memory : Bytes) : Nat → List Block → Nat → Prop
  | _, [], _ => True
  | address, block :: rest, stop =>
    BlockAt memory address block (if rest = [] then stop else address + block.span) ∧
      Segment memory (address + block.span) rest stop

theorem freeField_ne_zero (block : Block) : block.freeField ≠ 0 ↔ block.free = true := by
  unfold Block.freeField
  cases block.free <;> simp

theorem BlockAt.blockCanary {memory : Bytes} {address next : Nat} {block : Block}
    (standing : BlockAt memory address block next) : blockCanary memory address = heapCanary := by
  rw [Heap.blockCanary, standing.size, standing.canary]

/-- A block survives any memory change outside its own metadata. -/
theorem BlockAt.frame {memory changed : Bytes} {address next : Nat} {block : Block}
    (standing : BlockAt memory address block next)
    (agree : ∀ index, address ≤ index → index < address + block.span →
      (index < address + sizeofBlockMeta ∨ address + sizeofBlockMeta + block.size ≤ index) →
      changed index = memory index) : BlockAt changed address block next := by
  unfold Block.span metaSize sizeofBlockMeta at agree
  have header (offset : Nat) (inside : offset + 4 ≤ 16) :
      read32 changed (address + offset) = read32 memory (address + offset) :=
    read32_congr fun index low high => agree index (by omega) (by omega) (by omega)
  exact {
    magic := (header 0 (by omega)).trans standing.magic
    size := (header 4 (by omega)).trans standing.size
    free := (header 8 (by omega)).trans standing.free
    next := (header 12 (by omega)).trans standing.next
    canary := (read32_congr fun index low high => agree index
      (by unfold sizeofBlockMeta at low; omega) (by unfold sizeofBlockMeta at high; omega)
      (by unfold sizeofBlockMeta at low; omega)).trans standing.canary }

theorem Segment.frame {memory changed : Bytes} {address stop : Nat} {blocks : List Block}
    (segment : Segment memory address blocks stop)
    (agree : ∀ index, address ≤ index → index < endOf address blocks →
      changed index = memory index) : Segment changed address blocks stop := by
  induction blocks generalizing address with
  | nil => trivial
  | cons block rest inductionHypothesis =>
    have beyond := le_endOf (address + block.span) rest
    refine ⟨segment.1.frame fun index low high _ => agree index low ?_,
      inductionHypothesis segment.2 fun index low high => agree index ?_ high⟩
    · rw [endOf_cons]; omega
    · omega

/-- A layout of a concatenation is a layout of its parts. -/
theorem segment_append {memory : Bytes} {address stop : Nat} {first second : List Block} :
    Segment memory address (first ++ second) stop ↔
      Segment memory address first (if second = [] then stop else endOf address first) ∧
        Segment memory (endOf address first) second stop := by
  induction first generalizing address with
  | nil => simp [Segment]
  | cons block rest inductionHypothesis =>
    simp only [List.cons_append, Segment, inductionHypothesis, endOf_cons, and_assoc,
      List.append_eq_nil_iff]
    refine and_congr_left fun _ => ?_
    by_cases emptyRest : rest = []
    · subst emptyRest
      by_cases emptySecond : second = [] <;> simp [emptySecond]
    · simp [emptyRest]

/-- The last block of a nonempty layout may be retargeted: it alone holds `stop`. -/
theorem segment_concat {memory : Bytes} {address stop : Nat} {blocks : List Block}
    {block : Block} :
    Segment memory address (blocks ++ [block]) stop ↔
      Segment memory address blocks (endOf address blocks) ∧
        BlockAt memory (endOf address blocks) block stop := by
  rw [segment_append]
  simp [Segment]

/-- A stretch of blocks may be exchanged for another of the same extent, when memory
changes only inside that extent. -/
theorem Segment.replace {memory changed : Bytes} {address stop : Nat}
    {before middle middle' after : List Block}
    (segment : Segment memory address (before ++ middle ++ after) stop)
    (nonempty : middle ≠ []) (nonempty' : middle' ≠ [])
    (extent : endOf (endOf address before) middle' = endOf (endOf address before) middle)
    (outside : ∀ index, index < endOf address before ∨
      endOf (endOf address before) middle ≤ index → changed index = memory index)
    (inside : Segment changed (endOf address before) middle'
      (if after = [] then stop else endOf (endOf address before) middle)) :
    Segment changed address (before ++ middle' ++ after) stop := by
  rw [List.append_assoc, segment_append, segment_append] at segment ⊢
  obtain ⟨first, -, third⟩ := segment
  simp only [List.append_eq_nil_iff, nonempty, nonempty', false_and, if_false, extent] at *
  exact ⟨first.frame fun index _ high => outside index (Or.inl high), inside,
    third.frame fun index low _ => outside index (Or.inr low)⟩

/-- The block in the middle of a layout. -/
theorem Segment.at {memory : Bytes} {address stop : Nat} {before after : List Block}
    {block : Block} (segment : Segment memory address (before ++ block :: after) stop) :
    BlockAt memory (endOf address before) block
      (if after = [] then stop else endOf address before + block.span) := by
  rw [segment_append] at segment
  exact segment.2.1

/-! ### Live payloads -/

/-- The payloads of the blocks in use, as address and size. -/
def payloads (address : Nat) : List Block → List (Nat × Nat)
  | [] => []
  | block :: rest =>
    (if block.free then [] else [(address + sizeofBlockMeta, block.size)]) ++
      payloads (address + block.span) rest

theorem payloads_append (address : Nat) (first second : List Block) :
    payloads address (first ++ second) =
      payloads address first ++ payloads (endOf address first) second := by
  induction first generalizing address with
  | nil => rfl
  | cons block rest inductionHypothesis =>
    rw [List.cons_append, payloads, payloads, inductionHypothesis, endOf_cons,
      List.append_assoc]

theorem mem_payloads {address : Nat} {blocks : List Block} {payload : Nat × Nat} :
    payload ∈ payloads address blocks ↔
      ∃ before block after, blocks = before ++ block :: after ∧ block.free = false ∧
        payload = (endOf address before + sizeofBlockMeta, block.size) := by
  induction blocks generalizing address with
  | nil => simp [payloads]
  | cons head rest inductionHypothesis =>
    rw [payloads, List.mem_append, inductionHypothesis]
    constructor
    · rintro (here | ⟨before, block, after, rfl, live, rfl⟩)
      · cases free : head.free with
        | true => simp [free] at here
        | false =>
          simp only [free, Bool.false_eq_true, if_false, List.mem_singleton] at here
          exact ⟨[], head, rest, rfl, free, here⟩
      · exact ⟨head :: before, block, after, rfl, live, rfl⟩
    · rintro ⟨before, block, after, split, live, rfl⟩
      cases before with
      | nil =>
        obtain ⟨rfl, rfl⟩ := List.cons.inj split
        exact Or.inl (by simp [live])
      | cons first before =>
        obtain ⟨rfl, rfl⟩ := List.cons.inj split
        exact Or.inr ⟨before, block, after, rfl, live, rfl⟩

/-- A payload lies inside the stretch its block belongs to, past the header. -/
theorem payload_bounds {address : Nat} {blocks : List Block} {payload : Nat × Nat}
    (member : payload ∈ payloads address blocks) :
    address + sizeofBlockMeta ≤ payload.1 ∧ payload.1 + payload.2 + 4 ≤ endOf address blocks := by
  obtain ⟨before, block, after, rfl, -, rfl⟩ := mem_payloads.mp member
  have low := le_endOf address before
  have high := le_endOf (endOf address before + block.span) after
  rw [endOf_append, endOf_cons]
  refine ⟨?_, ?_⟩
  · simpa using low
  · unfold Block.span metaSize sizeofBlockMeta at *
    show endOf address before + 16 + block.size + 4 ≤ _
    omega

/-- Two payloads overlap nowhere, with room for a header between them. -/
def Apart (first second : Nat × Nat) : Prop :=
  first.1 + first.2 + metaSize ≤ second.1 ∨ second.1 + second.2 + metaSize ≤ first.1

theorem payloads_pairwise (address : Nat) (blocks : List Block) :
    (payloads address blocks).Pairwise Apart := by
  induction blocks generalizing address with
  | nil => exact List.Pairwise.nil
  | cons block rest inductionHypothesis =>
    rw [payloads, List.pairwise_append]
    refine ⟨?_, inductionHypothesis _, ?_⟩
    · cases block.free <;> simp
    · intro first memberFirst second memberSecond
      cases free : block.free with
      | true => simp [free] at memberFirst
      | false =>
        simp only [free, Bool.false_eq_true, if_false, List.mem_singleton] at memberFirst
        subst memberFirst
        have bounds := (payload_bounds memberSecond).1
        left
        unfold Block.span metaSize sizeofBlockMeta at *
        show address + 16 + block.size + 20 ≤ second.1
        omega

/-- No two neighbours are both free. -/
def Coalesced (blocks : List Block) : Prop :=
  blocks.IsChain fun left right => ¬ (left.free = true ∧ right.free = true)

end MectovOS.Heap
