/-
This file is a small library of serial numbers: numbers of a fixed width whose
order is read modulo the width. One number has reached another when it lies less
than half the space behind it. A comparison as plain integers gives the same
answer exactly when the two do not lie half the space apart.
-/

import Mathlib.Data.BitVec

namespace Serial

variable {width : Nat}

/-- The number is at the other one or less than half the space past it. -/
def Reached (number target : BitVec width) : Prop :=
  (number - target).toNat < 2 ^ (width - 1)

instance (number target : BitVec width) : Decidable (Reached number target) :=
  inferInstanceAs (Decidable (_ < _))

/-- As integers the numbers lie less than half the space apart. -/
def Near (number target : BitVec width) : Prop :=
  number.toNat < target.toNat + 2 ^ (width - 1) ∧ target.toNat ≤ number.toNat + 2 ^ (width - 1)

instance (number target : BitVec width) : Decidable (Near number target) :=
  inferInstanceAs (Decidable (_ ∧ _))

theorem two_pow_half (wide : 0 < width) : 2 ^ width = 2 ^ (width - 1) + 2 ^ (width - 1) := by
  obtain ⟨rest, rfl⟩ := Nat.exists_eq_succ_of_ne_zero wide.ne'
  rw [Nat.succ_sub_one, pow_succ, mul_two]

/-- The difference of two serial numbers. -/
theorem toNat_sub_cases (number target : BitVec width) :
    (target.toNat ≤ number.toNat ∧
      (number - target).toNat = number.toNat - target.toNat) ∨
    (number.toNat < target.toNat ∧
      (number - target).toNat = 2 ^ width + number.toNat - target.toNat) := by
  have small := number.isLt
  have bound := target.isLt
  rw [BitVec.toNat_sub]
  rcases Nat.lt_or_ge number.toNat target.toNat with less | enough
  · refine Or.inr ⟨less, ?_⟩
    rw [Nat.mod_eq_of_lt (by omega)]
    omega
  · refine Or.inl ⟨enough, ?_⟩
    have sum : 2 ^ width - target.toNat + number.toNat =
        number.toNat - target.toNat + 2 ^ width := by omega
    rw [sum, Nat.add_mod_right, Nat.mod_eq_of_lt (by omega)]

/-- Plain comparison is the order of serial numbers exactly when they are near. -/
theorem near_iff (wide : 0 < width) (number target : BitVec width) :
    Near number target ↔ (target ≤ number ↔ Reached number target) := by
  have small := number.isLt
  have bound := target.isLt
  have half := two_pow_half wide
  unfold Near Reached
  rw [BitVec.le_def]
  rcases toNat_sub_cases number target with ⟨enough, is⟩ | ⟨less, is⟩
  · rw [is]
    constructor
    · rintro ⟨near, _⟩
      exact ⟨fun _ => by omega, fun _ => enough⟩
    · intro same
      have close := same.mp enough
      exact ⟨by omega, by omega⟩
  · rw [is]
    constructor
    · rintro ⟨_, near⟩
      exact ⟨fun reached => by omega, fun close => by omega⟩
    · intro same
      by_contra far
      have close : 2 ^ width + number.toNat - target.toNat < 2 ^ (width - 1) := by
        by_contra large
        exact far ⟨by omega, by omega⟩
      exact absurd (same.mpr close) (by omega)

end Serial
