/-
This file is a library of numbers as bytes with the lowest first: the number of a
text, the bytes of a number, and how both follow a cut of the text.
-/

import Mathlib

namespace LittleEndian

/-- The number of a text. -/
def number (text : List UInt8) : Nat := Nat.ofDigits 256 (text.map UInt8.toNat)

/-- The lowest bytes of a number. -/
def bytes : Nat → Nat → List UInt8
  | 0, _ => []
  | count + 1, value => UInt8.ofNat value :: bytes count (value / 256)

@[simp] theorem number_nil : number [] = 0 := rfl

theorem number_cons (byte : UInt8) (text : List UInt8) :
    number (byte :: text) = byte.toNat + 256 * number text := by
  unfold number
  rw [List.map_cons, Nat.ofDigits_cons]

theorem number_append (text behind : List UInt8) :
    number (text ++ behind) = number text + 256 ^ text.length * number behind := by
  unfold number
  rw [List.map_append, Nat.ofDigits_append, List.length_map]

theorem number_lt (text : List UInt8) : number text < 256 ^ text.length := by
  unfold number
  have digits : ∀ digit ∈ text.map UInt8.toNat, digit < 256 := by
    intro digit member
    obtain ⟨byte, -, rfl⟩ := List.mem_map.mp member
    exact UInt8.toNat_lt byte
  have below := Nat.ofDigits_lt_base_pow_length (by omega) digits
  rwa [List.length_map] at below

theorem number_zeros (count : Nat) : number (List.replicate count 0) = 0 := by
  induction count with
  | zero => rfl
  | succ count induction =>
    rw [List.replicate_succ, number_cons, induction]
    rfl

/-- The first byte, as 0 where there is none. -/
theorem number_head (text : List UInt8) (offset : Nat) :
    number (text.drop offset) =
      (text.getD offset 0).toNat + 256 * number (text.drop (offset + 1)) := by
  by_cases inside : offset < text.length
  · rw [List.drop_eq_getElem_cons inside, number_cons, List.getD_eq_getElem _ _ inside]
  · rw [List.drop_of_length_le (by omega), List.drop_of_length_le (by omega),
      List.getD_eq_default _ _ (by omega)]
    rfl

theorem number_drop (text : List UInt8) (count : Nat) :
    number (text.drop count) = number text / 256 ^ count := by
  induction count with
  | zero => rw [List.drop_zero, Nat.pow_zero, Nat.div_one]
  | succ count induction =>
    have head := number_head text count
    have small := UInt8.toNat_lt (text.getD count 0)
    rw [Nat.pow_succ, ← Nat.div_div_eq_div_mul, ← induction]
    omega

theorem number_take (text : List UInt8) (count : Nat) :
    number (text.take count) = number text % 256 ^ count := by
  by_cases inside : count ≤ text.length
  · have cut := number_append (text.take count) (text.drop count)
    have small := number_lt (text.take count)
    rw [List.take_append_drop, List.length_take, Nat.min_eq_left inside] at cut
    rw [List.length_take, Nat.min_eq_left inside] at small
    rw [cut, Nat.add_mul_mod_self_left, Nat.mod_eq_of_lt small]
  · have small := number_lt text
    have wider : 256 ^ text.length ≤ 256 ^ count := Nat.pow_le_pow_right (by omega) (by omega)
    rw [List.take_of_length_le (by omega), Nat.mod_eq_of_lt (by omega)]

@[simp] theorem bytes_length (count value : Nat) : (bytes count value).length = count := by
  induction count generalizing value with
  | zero => rfl
  | succ count induction => rw [bytes, List.length_cons, induction]

theorem number_bytes (count value : Nat) : number (bytes count value) = value % 256 ^ count := by
  induction count generalizing value with
  | zero => rw [bytes, number_nil, Nat.pow_zero, Nat.mod_one]
  | succ count induction =>
    have split := @Nat.mod_mul 256 (256 ^ count) value
    rw [bytes, number_cons, induction, UInt8.toNat_ofNat', @Nat.pow_succ' 256 count, split]

theorem bytes_number (text : List UInt8) : bytes text.length (number text) = text := by
  induction text with
  | nil => rfl
  | cons byte text induction =>
    have small := UInt8.toNat_lt byte
    rw [List.length_cons, bytes, number_cons]
    have low : UInt8.ofNat (byte.toNat + 256 * number text) = byte := by
      apply UInt8.toNat_inj.mp
      rw [UInt8.toNat_ofNat']
      omega
    rw [low, show (byte.toNat + 256 * number text) / 256 = number text by omega, induction]

/-- Texts of one length are told apart by their numbers. -/
theorem number_inj {text other : List UInt8} (same : text.length = other.length)
    (equal : number text = number other) : text = other := by
  rw [← bytes_number text, ← bytes_number other, same, equal]

/-- A word laid above another. -/
theorem or_shift {low place : Nat} (high : Nat) (small : low < 2 ^ place) :
    low ||| high <<< place = low + 2 ^ place * high := by
  rw [Nat.or_comm, ← Nat.shiftLeft_add_eq_or_of_lt small, Nat.shiftLeft_eq, Nat.mul_comm,
    Nat.add_comm]

end LittleEndian
