/-
This file is a small library of ring buffers. A ring is an array of fixed
capacity read from one position on; its contents are the items from the read
position forward, in the order they were written. Writing at the end of the
contents appends an item, advancing the read position drops the first one. A
ring that keeps a read and a write position instead of a count holds their
distance around the array.
-/

import Mathlib

namespace Ring

open Function

variable {Item : Type}

/-- The items of a ring, oldest first. -/
def contents (buffer : Nat → Item) (capacity readPos count : Nat) : List Item :=
  (List.range count).map fun offset => buffer ((readPos + offset) % capacity)

@[simp] theorem length_contents (buffer : Nat → Item) (capacity readPos count : Nat) :
    (contents buffer capacity readPos count).length = count := by
  unfold contents
  rw [List.length_map, List.length_range]

@[simp] theorem contents_zero (buffer : Nat → Item) (capacity readPos : Nat) :
    contents buffer capacity readPos 0 = [] := rfl

/-- Two cells less than one revolution apart are different. -/
theorem mod_ne_of_lt {capacity readPos first second : Nat} (before : first < second)
    (short : second < first + capacity) :
    (readPos + first) % capacity ≠ (readPos + second) % capacity := by
  intro same
  have distance := (Nat.modEq_iff_dvd' (Nat.add_le_add_left before.le readPos)).mp same
  rw [Nat.add_sub_add_left] at distance
  have := Nat.le_of_dvd (Nat.sub_pos_of_lt before) distance
  omega

/-- Writing the cell after the last item appends it. -/
theorem contents_push (buffer : Nat → Item) {capacity readPos count : Nat}
    (room : count < capacity) (item : Item) :
    contents (update buffer ((readPos + count) % capacity) item) capacity readPos
      (count + 1) = contents buffer capacity readPos count ++ [item] := by
  unfold contents
  rw [List.range_succ, List.map_append, List.map_singleton, update_self]
  congr 1
  refine List.map_congr_left fun offset member => ?_
  have before := List.mem_range.mp member
  have apart : (readPos + offset) % capacity ≠ (readPos + count) % capacity :=
    mod_ne_of_lt before (by omega)
  exact update_of_ne apart item buffer

/-- Advancing the read position drops the oldest item. -/
theorem contents_pop (buffer : Nat → Item) (capacity readPos count : Nat) :
    contents buffer capacity readPos (count + 1) =
      buffer (readPos % capacity) :: contents buffer capacity ((readPos + 1) % capacity) count := by
  unfold contents
  rw [List.range_succ_eq_map, List.map_cons, List.map_map, Nat.add_zero]
  congr 1
  refine List.map_congr_left fun offset _ => ?_
  show buffer ((readPos + (offset + 1)) % capacity) = _
  rw [Nat.mod_add_mod, Nat.add_right_comm, Nat.add_assoc]

/-! ### Rings with two positions -/

/-- How many items lie between the read and the write position. -/
def held (capacity readPos writePos : Nat) : Nat :=
  (writePos + capacity - readPos) % capacity

theorem held_lt {capacity : Nat} (positive : 0 < capacity) (readPos writePos : Nat) :
    held capacity readPos writePos < capacity :=
  Nat.mod_lt _ positive

/-- A ring whose positions meet holds nothing. -/
@[simp] theorem held_self (capacity position : Nat) : held capacity position position = 0 := by
  unfold held
  rw [Nat.add_sub_cancel_left, Nat.mod_self]

/-- The write position is the read position advanced by what is held. -/
theorem readPos_add_held {capacity readPos writePos : Nat} (reads : readPos < capacity)
    (writes : writePos < capacity) :
    (readPos + held capacity readPos writePos) % capacity = writePos := by
  unfold held
  rw [Nat.add_mod_mod]
  have : readPos + (writePos + capacity - readPos) = writePos + capacity := by omega
  rw [this, Nat.add_mod_right, Nat.mod_eq_of_lt writes]

/-- A ring whose positions differ holds something. -/
theorem held_pos {capacity readPos writePos : Nat} (reads : readPos < capacity)
    (writes : writePos < capacity) (apart : readPos ≠ writePos) :
    0 < held capacity readPos writePos := by
  refine Nat.pos_of_ne_zero fun empty => apart ?_
  have leads := readPos_add_held reads writes
  rwa [empty, Nat.add_zero, Nat.mod_eq_of_lt reads] at leads

/-- There is room for one more when the cell after the write position is not the read position. -/
theorem held_room {capacity readPos writePos : Nat} (reads : readPos < capacity)
    (writes : writePos < capacity) (apart : (writePos + 1) % capacity ≠ readPos) :
    held capacity readPos writePos + 1 < capacity := by
  have positive : 0 < capacity := Nat.lt_of_le_of_lt (Nat.zero_le _) reads
  refine lt_of_le_of_ne (held_lt positive readPos writePos) fun full => apart ?_
  rw [← readPos_add_held reads writes, Nat.mod_add_mod, Nat.add_assoc, full, Nat.add_mod_right,
    Nat.mod_eq_of_lt reads]

/-- The distance of two positions is the number of items that leads from one to the other. -/
theorem held_eq {capacity readPos writePos count : Nat} (reads : readPos < capacity)
    (fits : count < capacity) (leads : (readPos + count) % capacity = writePos) :
    held capacity readPos writePos = count := by
  unfold held
  rw [← leads]
  have wraps : readPos + count < capacity ∨ capacity ≤ readPos + count := by omega
  rcases wraps with straight | wrapped
  · rw [Nat.mod_eq_of_lt straight]
    have : readPos + count + capacity - readPos = count + capacity := by omega
    rw [this, Nat.add_mod_right, Nat.mod_eq_of_lt fits]
  · have short : (readPos + count) % capacity = readPos + count - capacity := by
      rw [Nat.mod_eq_sub_mod wrapped, Nat.mod_eq_of_lt (by omega)]
    have : readPos + count - capacity + capacity - readPos = count := by omega
    rw [short, this, Nat.mod_eq_of_lt fits]

/-- Pushing an item moves the write position on by one. -/
theorem held_push {capacity readPos writePos : Nat} (reads : readPos < capacity)
    (writes : writePos < capacity)
    (room : held capacity readPos writePos + 1 < capacity) :
    held capacity readPos ((writePos + 1) % capacity) = held capacity readPos writePos + 1 := by
  refine held_eq reads room ?_
  rw [← Nat.add_assoc, ← Nat.mod_add_mod, readPos_add_held reads writes]

/-- Popping an item moves the read position on by one. -/
theorem held_pop {capacity readPos writePos : Nat} (reads : readPos < capacity)
    (writes : writePos < capacity) (some' : 0 < held capacity readPos writePos) :
    held capacity ((readPos + 1) % capacity) writePos + 1 = held capacity readPos writePos := by
  have positive : 0 < capacity := Nat.lt_of_le_of_lt (Nat.zero_le _) reads
  have bounded := held_lt positive readPos writePos
  have leads := readPos_add_held reads writes
  have onward : ((readPos + 1) % capacity + (held capacity readPos writePos - 1)) % capacity =
      writePos := by
    rw [Nat.mod_add_mod]
    have : readPos + 1 + (held capacity readPos writePos - 1) =
        readPos + held capacity readPos writePos := by omega
    rw [this, leads]
  rw [held_eq (Nat.mod_lt _ positive) (by omega) onward]
  omega

end Ring
