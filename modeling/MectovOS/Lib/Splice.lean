/-
This file is a small library of writes into sequences: a write over a part of a
buffer, and a write into a growing array that fills the gap before it. A buffer
that is longer than its contents, with anything behind them, serves as such an
array when the gap is cleared before each write.
-/

import Mathlib.Data.List.Basic

namespace Splice

variable {Item : Type}

/-- The sequence with the data written over it from a position on. -/
def overwrite (items : List Item) (position : Nat) (data : List Item) : List Item :=
  items.take position ++ data ++ items.drop (position + data.length)

/-- The array with the data stored at a position; a gap before it is filled. -/
def storeAt (fill : Item) (items : List Item) (position : Nat) (data : List Item) : List Item :=
  overwrite (items ++ List.replicate (position - items.length) fill) position data

/-- The buffer with the gap between the contents and a position cleared. -/
def clearGap (fill : Item) (buffer : List Item) (size position : Nat) : List Item :=
  overwrite buffer size (List.replicate (position - size) fill)

theorem overwrite_length {items data : List Item} {position : Nat}
    (room : position + data.length ≤ items.length) :
    (overwrite items position data).length = items.length := by
  unfold overwrite
  rw [List.length_append, List.length_append, List.length_take, List.length_drop]
  omega

theorem clearGap_length {fill : Item} {buffer : List Item} {size position : Nat}
    (room : position ≤ buffer.length) (within : size ≤ buffer.length) :
    (clearGap fill buffer size position).length = buffer.length := by
  refine overwrite_length ?_
  rw [List.length_replicate]
  omega

theorem overwrite_take {items data : List Item} {position : Nat}
    (within : position ≤ items.length) :
    (overwrite items position data).take (position + data.length) = items.take position ++ data := by
  unfold overwrite
  refine List.take_left' ?_
  rw [List.length_append, List.length_take]
  omega

theorem storeAt_length (fill : Item) (items : List Item) (position : Nat) (data : List Item) :
    (storeAt fill items position data).length = max items.length (position + data.length) := by
  unfold storeAt overwrite
  rw [List.length_append, List.length_append, List.length_take, List.length_drop,
    List.length_append, List.length_replicate]
  omega

/-- The buffer before the position, once the gap is cleared. -/
theorem clearGap_take {fill : Item} {buffer : List Item} {size position : Nat}
    (within : size ≤ buffer.length) :
    (clearGap fill buffer size position).take position =
      (buffer.take size ++ List.replicate (position - size) fill).take position := by
  unfold clearGap overwrite
  rw [List.length_replicate]
  by_cases before : position ≤ size
  · rw [show position - size = 0 from by omega, List.replicate_zero, List.append_nil,
      Nat.add_zero, List.take_append_drop, List.take_take, Nat.min_eq_left before]
  · refine List.take_append_of_le_length ?_
    rw [List.length_append, List.length_take, List.length_replicate]
    omega

/-- The buffer behind the write, as far as the contents reach. -/
theorem clearGap_drop {fill : Item} {buffer : List Item} {size position : Nat}
    (before : position ≤ size) : clearGap fill buffer size position = buffer := by
  unfold clearGap overwrite
  rw [show position - size = 0 from by omega, List.replicate_zero, List.append_nil,
    List.length_nil, Nat.add_zero, List.take_append_drop]

/-- A buffer serves as a growing array: the gap is cleared, the data are written, and the contents
reach as far as the longer of the two. -/
theorem storeAt_buffer (fill : Item) {buffer data : List Item} {size position : Nat}
    (within : size ≤ buffer.length) (room : position + data.length ≤ buffer.length) :
    (overwrite (clearGap fill buffer size position) position data).take
        (max size (position + data.length)) =
      storeAt fill (buffer.take size) position data := by
  have length := @clearGap_length _ fill buffer size position (by omega) within
  have sized : (buffer.take size).length = size := by
    rw [List.length_take, Nat.min_eq_left within]
  unfold storeAt
  rw [sized]
  by_cases reaches : size ≤ position + data.length
  · rw [Nat.max_eq_right reaches, overwrite_take (by omega), clearGap_take within]
    unfold overwrite
    rw [List.drop_of_length_le, List.append_nil]
    rw [List.length_append, sized, List.length_replicate]
    omega
  · rw [Nat.max_eq_left (by omega), clearGap_drop (by omega),
      show position - size = 0 from by omega, List.replicate_zero, List.append_nil]
    unfold overwrite
    rw [List.take_take, Nat.min_eq_left (by omega), List.take_append, List.length_append,
      List.length_take, Nat.min_eq_left (by omega), List.take_of_length_le, List.drop_take]
    rw [List.length_append, List.length_take]
    omega

/-- Before its position a write changes nothing. -/
theorem overwrite_before {items data : List Item} {position : Nat}
    (within : position ≤ items.length) :
    (overwrite items position data).take position = items.take position := by
  unfold overwrite
  have front : position ≤ (items.take position).length := by
    rw [List.length_take]
    omega
  rw [List.append_assoc, List.take_append_of_le_length front, List.take_take, Nat.min_self]

/-- An item of the array behind a store. -/
theorem storeAt_getElem? (fill : Item) (items data : List Item) (position index : Nat) :
    (storeAt fill items position data)[index]? =
      if index < position then
        if index < items.length then items[index]? else some fill
      else if index < position + data.length then data[index - position]?
      else items[index]? := by
  unfold storeAt overwrite
  have filled : (items ++ List.replicate (position - items.length) fill).length =
      max items.length position := by
    rw [List.length_append, List.length_replicate]
    omega
  have front : ((items ++ List.replicate (position - items.length) fill).take position).length =
      position := by
    rw [List.length_take, filled]
    omega
  rw [List.append_assoc]
  by_cases before : index < position
  · rw [if_pos before, List.getElem?_append_left (by omega), List.getElem?_take_of_lt before]
    by_cases inside : index < items.length
    · rw [if_pos inside, List.getElem?_append_left inside]
    · rw [if_neg inside, List.getElem?_append_right (by omega),
        List.getElem?_replicate_of_lt (by omega)]
  · rw [if_neg before, List.getElem?_append_right (by omega), front]
    by_cases written : index < position + data.length
    · rw [if_pos written, List.getElem?_append_left (by omega)]
    · rw [if_neg written, List.getElem?_append_right (by omega), List.getElem?_drop,
        show position + data.length + (index - position - data.length) = index by omega]
      by_cases inside : index < items.length
      · rw [List.getElem?_append_left inside]
      · rw [List.getElem?_eq_none (by omega : items.length ≤ index),
          List.getElem?_eq_none (by rw [filled]; omega)]

/-- Two arrays of one length agree behind the same store when they agree outside of it. -/
theorem storeAt_eq_iff (fill : Item) {items others data : List Item} {position : Nat}
    (same : items.length = others.length) :
    storeAt fill items position data = storeAt fill others position data ↔
      ∀ index < others.length, index < position ∨ position + data.length ≤ index →
        items[index]? = others[index]? := by
  refine ⟨fun equal index inside outside => ?_, fun agree => List.ext_getElem? fun index => ?_⟩
  · have item := congrArg (fun list => list[index]?) equal
    rw [storeAt_getElem?, storeAt_getElem?] at item
    rcases outside with before | behind
    · rwa [if_pos before, if_pos before, if_pos (by omega), if_pos inside] at item
    · rwa [if_neg (by omega), if_neg (by omega), if_neg (by omega), if_neg (by omega)] at item
  · rw [storeAt_getElem?, storeAt_getElem?, same]
    by_cases inside : index < others.length
    · rw [if_pos inside, if_pos inside]
      split
      · rename_i before
        exact agree index inside (Or.inl before)
      split
      · rfl
      · exact agree index inside (Or.inr (by omega))
    · rw [List.getElem?_eq_none (by omega : items.length ≤ index),
        List.getElem?_eq_none (by omega : others.length ≤ index)]

end Splice
