/-
This file is a library of modular arithmetic without division: the inverse of an odd
word by Newton steps, products reduced one digit at a time by adding multiples of the
modulus, and powers by squaring along the bits of the exponent.
-/

import Mathlib

namespace Montgomery

/-! ### Inverses modulo a power of two -/

/-- A Newton step makes an inverse modulo a number one modulo its square. -/
theorem newton_step {modulus value inverse : Int} (holds : modulus ∣ value * inverse - 1) :
    modulus * modulus ∣ value * (inverse * (2 - value * inverse)) - 1 := by
  obtain ⟨factor, isFactor⟩ := holds
  refine ⟨-(factor * factor), ?_⟩
  have value_eq : value * inverse = 1 + modulus * factor := by omega
  calc value * (inverse * (2 - value * inverse)) - 1
      = value * inverse * (2 - value * inverse) - 1 := by ring
    _ = (1 + modulus * factor) * (2 - (1 + modulus * factor)) - 1 := by rw [value_eq]
    _ = modulus * modulus * -(factor * factor) := by ring

/-! ### Reduction by digits -/

variable {base modulus inverse : Nat}

/-- The multiple of the modulus that clears the lowest digit. -/
def quotient (base inverse sum : Nat) : Nat := sum % base * inverse % base

/-- One round: add a digit's product, clear the lowest digit, and drop it. -/
def round (base modulus inverse factor total digit : Nat) : Nat :=
  (total + digit * factor + quotient base inverse (total + digit * factor) * modulus) / base

/-- The lowest digit is cleared where the inverse is that of the negated modulus. -/
theorem quotient_clears (isInverse : base ∣ inverse * modulus + 1) (sum : Nat) :
    base ∣ sum + quotient base inverse sum * modulus := by
  have same : sum + quotient base inverse sum * modulus ≡
      sum + sum * inverse * modulus [MOD base] := by
    refine Nat.ModEq.add_left _ (Nat.ModEq.mul_right _ ?_)
    exact (Nat.mod_modEq _ _).trans ((Nat.mod_modEq _ _).mul_right _)
  have multiple : sum + sum * inverse * modulus = sum * (inverse * modulus + 1) := by ring
  rw [multiple] at same
  exact (Nat.modEq_zero_iff_dvd.mp (same.trans
    (Nat.modEq_zero_iff_dvd.mpr (Dvd.dvd.mul_left isInverse sum))))

theorem round_exact (isInverse : base ∣ inverse * modulus + 1) (factor total digit : Nat) :
    base * round base modulus inverse factor total digit =
      total + digit * factor + quotient base inverse (total + digit * factor) * modulus :=
  Nat.mul_div_cancel' (quotient_clears isInverse _)

/-- All rounds: the total is the product, and less than as many multiples of the modulus as there
are digit sequences. -/
theorem rounds_exact (positive : 0 < base) (isInverse : base ∣ inverse * modulus + 1) (factor : Nat)
    (digits : List Nat) :
    ∃ multiple, multiple < base ^ digits.length ∧
      base ^ digits.length * digits.foldl (round base modulus inverse factor) 0 =
        factor * Nat.ofDigits base digits + multiple * modulus := by
  induction digits using List.reverseRecOn with
  | nil => exact ⟨0, by rw [List.length_nil, Nat.pow_zero]; omega, by simp⟩
  | append_singleton digits digit induction =>
    obtain ⟨multiple, small, total⟩ := induction
    have clears := round_exact isInverse factor
      (digits.foldl (round base modulus inverse factor) 0) digit
    have least : quotient base inverse
        (digits.foldl (round base modulus inverse factor) 0 + digit * factor) < base :=
      Nat.mod_lt _ positive
    generalize quotient base inverse
      (digits.foldl (round base modulus inverse factor) 0 + digit * factor) = added at clears least
    refine ⟨multiple + base ^ digits.length * added, ?_, ?_⟩
    · rw [List.length_append, List.length_singleton, Nat.pow_succ]
      calc multiple + base ^ digits.length * added
          < base ^ digits.length + base ^ digits.length * added := by omega
        _ = base ^ digits.length * (added + 1) := by ring
        _ ≤ base ^ digits.length * base := Nat.mul_le_mul_left _ least
    · rw [List.foldl_append, List.foldl_cons, List.foldl_nil, List.length_append,
        List.length_singleton, Nat.pow_succ, Nat.mul_assoc, clears, Nat.ofDigits_append,
        Nat.ofDigits_singleton]
      calc base ^ digits.length * (digits.foldl (round base modulus inverse factor) 0 +
            digit * factor + added * modulus)
          = base ^ digits.length * digits.foldl (round base modulus inverse factor) 0 +
              base ^ digits.length * (digit * factor + added * modulus) := by ring
        _ = _ := by rw [total]; ring

/-- The total needs one subtraction at most. -/
theorem total_lt {range total product multiple : Nat}
    (exact' : range * total = product + multiple * modulus) (few : multiple < range)
    (small : product < range * modulus) : total < 2 * modulus := by
  have upper : multiple * modulus ≤ range * modulus := Nat.mul_le_mul_right _ few.le
  have below : range * total < range * (2 * modulus) := by
    calc range * total = product + multiple * modulus := exact'
      _ < range * modulus + range * modulus := by omega
      _ = range * (2 * modulus) := by ring
  exact Nat.lt_of_mul_lt_mul_left below

/-! ### Powers along the bits -/

/-- Squaring for every bit and multiplying where it is set raises to the number of the bits. -/
theorem ladder {Value : Type*} [Monoid Value] (value : Value) (bits : List Bool) :
    bits.foldl (fun power bit => if bit then power * power * value else power * power) 1 =
      value ^ bits.foldl (fun number bit => 2 * number + bit.toNat) 0 := by
  induction bits using List.reverseRecOn with
  | nil => rw [List.foldl_nil, List.foldl_nil, pow_zero]
  | append_singleton bits bit induction =>
    rw [List.foldl_append, List.foldl_append, List.foldl_cons, List.foldl_nil, List.foldl_cons,
      List.foldl_nil, induction]
    cases bit with
    | false => rw [if_neg (by decide), ← pow_add, Bool.toNat_false, Nat.add_zero, Nat.two_mul]
    | true => rw [if_pos rfl, ← pow_add, ← pow_succ, Bool.toNat_true, Nat.two_mul]

end Montgomery
