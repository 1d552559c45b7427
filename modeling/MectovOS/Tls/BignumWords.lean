/-
This file proves what the loops over 32-bit words are worth as numbers: comparison,
subtraction with a borrow, doubling, and the product of a word added to a row.
-/

import MectovOS.Tls.Bignum
import MectovOS.Lib.Montgomery

namespace MectovOS.Tls

/-! ### The number of words -/

/-- The number of words, the lowest first. -/
def wordsValue (words : List UInt32) : Nat := Nat.ofDigits (2 ^ 32) (words.map UInt32.toNat)

/-- What one more word is worth. -/
def range (words : List UInt32) : Nat := (2 ^ 32) ^ words.length

theorem wordsValue_nil : wordsValue [] = 0 := rfl

theorem wordsValue_cons (x : UInt32) (xs : List UInt32) :
    wordsValue (x :: xs) = x.toNat + 2 ^ 32 * wordsValue xs := by
  unfold wordsValue
  rw [List.map_cons, Nat.ofDigits_cons]

theorem wordsValue_append (xs ys : List UInt32) :
    wordsValue (xs ++ ys) = wordsValue xs + range xs * wordsValue ys := by
  unfold wordsValue range
  rw [List.map_append, Nat.ofDigits_append, List.length_map]

theorem wordsValue_lt (xs : List UInt32) : wordsValue xs < range xs := by
  have digits : ∀ digit ∈ xs.map UInt32.toNat, digit < 2 ^ 32 := by
    intro digit member
    obtain ⟨word, -, rfl⟩ := List.mem_map.mp member
    exact UInt32.toNat_lt word
  have below := Nat.ofDigits_lt_base_pow_length (by omega) digits
  rwa [List.length_map] at below

theorem range_cons (x : UInt32) (xs : List UInt32) : range (x :: xs) = 2 ^ 32 * range xs := by
  unfold range
  rw [List.length_cons, Nat.pow_succ']

theorem wordsValue_zeros (count : Nat) : wordsValue (List.replicate count 0) = 0 := by
  induction count with
  | zero => rfl
  | succ count induction =>
    rw [List.replicate_succ, wordsValue_cons, induction]
    rfl

/-! ### 64-bit words -/

theorem high64 (v : UInt64) : (v >>> 32).toNat = v.toNat / 2 ^ 32 := by
  rw [UInt64.toNat_shiftRight, Nat.shiftRight_eq_div_pow]
  rfl

/-- The largest sum of the loops: a product of two words and two words more. -/
theorem product_fits (x y : UInt32) {t carry : Nat} (small : t < 2 ^ 32) (few : carry < 2 ^ 32) :
    x.toNat * y.toNat + t + carry < 2 ^ 64 := by
  have top : x.toNat * y.toNat ≤ (2 ^ 32 - 1) * (2 ^ 32 - 1) :=
    Nat.mul_le_mul (Nat.le_pred_of_lt (UInt32.toNat_lt x)) (Nat.le_pred_of_lt (UInt32.toNat_lt y))
  omega

theorem mulAdd_toNat {x y t : UInt32} {carry : UInt64} (few : carry.toNat < 2 ^ 32) :
    (x.toUInt64 * y.toUInt64 + t.toUInt64 + carry).toNat =
      x.toNat * y.toNat + t.toNat + carry.toNat := by
  have fits := product_fits x y (UInt32.toNat_lt t) few
  rw [UInt64.toNat_add, UInt64.toNat_add, UInt64.toNat_mul, UInt32.toNat_toUInt64,
    UInt32.toNat_toUInt64, UInt32.toNat_toUInt64]
  generalize x.toNat * y.toNat = product at fits ⊢
  omega

/-! ### Comparison -/

theorem geFrom_iff {xs ys : List UInt32} (same : xs.length = ys.length) :
    geFrom xs ys = true ↔ wordsValue ys.reverse ≤ wordsValue xs.reverse := by
  induction xs generalizing ys with
  | nil =>
    obtain rfl := List.length_eq_zero_iff.mp same.symm
    exact ⟨fun _ => le_rfl, fun _ => rfl⟩
  | cons x xs induction =>
    obtain ⟨y, ys, rfl⟩ := List.exists_cons_of_length_eq_add_one same.symm
    have tails : xs.length = ys.length := Nat.succ.inj same
    have lowX := wordsValue_lt xs.reverse
    have lowY := wordsValue_lt ys.reverse
    have single : ∀ word : UInt32, wordsValue [word] = word.toNat := fun word => by
      rw [wordsValue_cons, wordsValue_nil, Nat.mul_zero, Nat.add_zero]
    have ranges : range xs.reverse = range ys.reverse := by
      unfold range
      rw [List.length_reverse, List.length_reverse, tails]
    rw [List.reverse_cons, List.reverse_cons, wordsValue_append, wordsValue_append, single, single,
      ranges]
    rw [ranges] at lowX
    unfold geFrom
    by_cases equal : x = y
    · rw [if_neg (not_not.mpr equal), induction tails, equal]
      omega
    · rw [if_pos equal, decide_eq_true_iff, UInt32.lt_iff_toNat_lt]
      constructor
      · intro above
        have step : range ys.reverse * (y.toNat + 1) ≤ range ys.reverse * x.toNat :=
          Nat.mul_le_mul_left _ above
        rw [Nat.mul_add_one] at step
        omega
      · intro above
        by_contra below
        have less : x.toNat + 1 ≤ y.toNat := by
          have different : x.toNat ≠ y.toNat := fun eq => equal (UInt32.toNat_inj.mp eq)
          omega
        have step : range ys.reverse * (x.toNat + 1) ≤ range ys.reverse * y.toNat :=
          Nat.mul_le_mul_left _ less
        rw [Nat.mul_add_one] at step
        omega

/-- The comparison of two numbers of as many words. -/
theorem bnGeN_iff {a b : List UInt32} (same : a.length = b.length) :
    bnGeN a b = true ↔ wordsValue b ≤ wordsValue a := by
  unfold bnGeN
  rw [geFrom_iff (by rw [List.length_reverse, List.length_reverse, same]), List.reverse_reverse,
    List.reverse_reverse]

/-! ### Subtraction -/

/-- A difference with a borrow. -/
theorem subBorrow_toNat (x y : UInt32) {borrow : UInt64} (few : borrow.toNat ≤ 1) :
    let v := x.toUInt64 - y.toUInt64 - borrow
    let next : UInt64 := if v >>> 32 ≠ 0 then 1 else 0
    next.toNat ≤ 1 ∧
      v.toUInt32.toNat + y.toNat + borrow.toNat = x.toNat + 2 ^ 32 * next.toNat := by
  intro v next
  have lowX := UInt32.toNat_lt x
  have lowY := UInt32.toNat_lt y
  have value : v.toNat = (2 ^ 64 - borrow.toNat + (2 ^ 64 - y.toNat + x.toNat) % 2 ^ 64) % 2 ^ 64 := by
    rw [UInt64.toNat_sub, UInt64.toNat_sub, UInt32.toNat_toUInt64, UInt32.toNat_toUInt64]
  have low : v.toUInt32.toNat = v.toNat % 2 ^ 32 := UInt64.toNat_toUInt32 v
  have high := high64 v
  by_cases borrows : v >>> 32 ≠ 0
  · have isOne : next = 1 := if_pos borrows
    have top : v.toNat / 2 ^ 32 ≠ 0 := fun zero =>
      borrows (UInt64.toNat_inj.mp (high.trans zero))
    rw [isOne]
    refine ⟨le_rfl, ?_⟩
    show _ = _ + 2 ^ 32 * 1
    omega
  · have isZero : next = 0 := if_neg borrows
    rw [not_not.mp borrows] at high
    have top : 0 = v.toNat / 2 ^ 32 := high
    rw [isZero]
    refine ⟨Nat.zero_le _, ?_⟩
    show _ = _ + 2 ^ 32 * 0
    omega

/-- The difference of two numbers, but for a borrow out of the top. -/
theorem bnSubFrom_value {a b : List UInt32} (same : a.length = b.length) {borrow : UInt64}
    (few : borrow.toNat ≤ 1) :
    (bnSubFrom borrow a b).length = a.length ∧ ∃ last ≤ 1,
      wordsValue (bnSubFrom borrow a b) + wordsValue b + borrow.toNat =
        wordsValue a + range a * last := by
  induction a generalizing b borrow with
  | nil =>
    obtain rfl := List.length_eq_zero_iff.mp same.symm
    refine ⟨rfl, borrow.toNat, few, ?_⟩
    show 0 + 0 + _ = 0 + 1 * _
    omega
  | cons x xs induction =>
    obtain ⟨y, ys, rfl⟩ := List.exists_cons_of_length_eq_add_one same.symm
    obtain ⟨fewer, word⟩ := subBorrow_toNat x y few
    obtain ⟨length, last, small, rest⟩ := induction (Nat.succ.inj same) fewer
    refine ⟨?_, last, small, ?_⟩
    · rw [bnSubFrom, List.length_cons, List.length_cons, length]
    · rw [bnSubFrom, wordsValue_cons, wordsValue_cons, wordsValue_cons, range_cons, Nat.mul_assoc]
      omega

/-- A difference below the range, where the minuend may have lost a bit above its words. -/
theorem bnSub_value {t m : List UInt32} (same : t.length = m.length) {top : Nat}
    (above : wordsValue m ≤ wordsValue t + range t * top)
    (below : wordsValue t + range t * top < 2 * wordsValue m) :
    (bnSub t m).length = t.length ∧
      wordsValue (bnSub t m) + wordsValue m = wordsValue t + range t * top := by
  obtain ⟨length, last, -, difference⟩ := @bnSubFrom_value _ _ same 0 (Nat.zero_le 1)
  refine ⟨length, ?_⟩
  have small := wordsValue_lt (bnSubFrom 0 t m)
  have smallM := wordsValue_lt m
  have rangeOut : range (bnSubFrom 0 t m) = range t := by
    unfold range
    rw [length]
  have rangeM : range m = range t := by
    unfold range
    rw [same]
  rw [rangeOut] at small
  rw [rangeM] at smallM
  have zero : (0 : UInt64).toNat = 0 := rfl
  rw [zero, Nat.add_zero] at difference
  unfold bnSub
  -- both differences lie below the range, so what was lost is what was borrowed
  suffices equal : last = top by rw [difference, equal]
  rcases Nat.lt_trichotomy last top with less | equal | more
  · have step : range t * (last + 1) ≤ range t * top := Nat.mul_le_mul_left _ less
    rw [Nat.mul_add_one] at step
    omega
  · exact equal
  · have step : range t * (top + 1) ≤ range t * last := Nat.mul_le_mul_left _ more
    rw [Nat.mul_add_one] at step
    omega

/-- The subtraction behind a sum below twice the modulus. -/
theorem reduceWords {t m : List UInt32} (same : t.length = m.length) {top : Nat} {carries : Prop}
    [Decidable carries] (isTop : carries ↔ top ≠ 0)
    (below : wordsValue t + range t * top < 2 * wordsValue m) :
    (if carries ∨ bnGeN t m = true then bnSub t m else t).length = t.length ∧
      wordsValue (if carries ∨ bnGeN t m = true then bnSub t m else t) < wordsValue m ∧
      wordsValue (if carries ∨ bnGeN t m = true then bnSub t m else t) ≡
        wordsValue t + range t * top [MOD wordsValue m] := by
  have smallM := wordsValue_lt m
  have rangeM : range m = range t := by
    unfold range
    rw [same]
  by_cases subtracts : carries ∨ bnGeN t m = true
  · rw [if_pos subtracts]
    have above : wordsValue m ≤ wordsValue t + range t * top := by
      rcases subtracts with carry | ge
      · have one : range t * 1 ≤ range t * top :=
          Nat.mul_le_mul_left _ (Nat.pos_of_ne_zero (isTop.mp carry))
        omega
      · have plain := (bnGeN_iff same).mp ge
        omega
    obtain ⟨length, value⟩ := bnSub_value same above below
    refine ⟨length, by omega, ?_⟩
    rw [← value]
    exact (Nat.add_modEq_right).symm
  · rw [if_neg subtracts]
    have no := not_or.mp subtracts
    have zero : top = 0 := not_not.mp fun nonzero => no.1 (isTop.mpr nonzero)
    have less : wordsValue t < wordsValue m :=
      Nat.lt_of_not_le fun ge => no.2 ((bnGeN_iff same).mpr ge)
    rw [zero, Nat.mul_zero, Nat.add_zero]
    exact ⟨rfl, less, Nat.ModEq.refl _⟩

/-! ### Rows -/

/-- The sums of a row fit their words. -/
def RowFits (x : UInt32) (carry : UInt64) : List UInt32 → List UInt32 → Prop
  | y :: ys, t :: ts =>
    y.toNat * x.toNat + t.toNat + carry.toNat < 2 ^ 64 ∧
      RowFits x ((y.toUInt64 * x.toUInt64 + t.toUInt64 + carry) >>> 32) ys ts
  | _, _ => True

/-- The product of a word and a row, added to another row. -/
theorem mulAddWords_value (x : UInt32) {carry : UInt64} (few : carry.toNat < 2 ^ 32)
    {ys ts : List UInt32} (same : ys.length = ts.length) :
    RowFits x carry ys ts ∧ (mulAddWords x carry ys ts).1.length = ts.length ∧
      (mulAddWords x carry ys ts).2.toNat < 2 ^ 32 ∧
      wordsValue (mulAddWords x carry ys ts).1 + range ts * (mulAddWords x carry ys ts).2.toNat =
        wordsValue ts + x.toNat * wordsValue ys + carry.toNat := by
  induction ys generalizing ts carry with
  | nil =>
    obtain rfl := List.length_eq_zero_iff.mp same.symm
    refine ⟨trivial, rfl, few, ?_⟩
    show 0 + 1 * carry.toNat = 0 + _ * 0 + carry.toNat
    omega
  | cons y ys induction =>
    obtain ⟨t, ts, rfl⟩ := List.exists_cons_of_length_eq_add_one same.symm
    have fits := product_fits y x (UInt32.toNat_lt t) few
    have word := @mulAdd_toNat y x t carry few
    have high := high64 (y.toUInt64 * x.toUInt64 + t.toUInt64 + carry)
    have low : (y.toUInt64 * x.toUInt64 + t.toUInt64 + carry).toUInt32.toNat = _ % 2 ^ 32 :=
      UInt64.toNat_toUInt32 _
    have fewer : ((y.toUInt64 * x.toUInt64 + t.toUInt64 + carry) >>> 32).toNat < 2 ^ 32 := by
      rw [high, word]
      omega
    obtain ⟨rows, length, small, rest⟩ := induction fewer (Nat.succ.inj same)
    refine ⟨⟨fits, rows⟩, ?_, small, ?_⟩
    · rw [mulAddWords, List.length_cons, List.length_cons, length]
    · have expand : x.toNat * (y.toNat + 2 ^ 32 * wordsValue ys) =
          y.toNat * x.toNat + 2 ^ 32 * (x.toNat * wordsValue ys) := by ring
      rw [mulAddWords, wordsValue_cons, wordsValue_cons, wordsValue_cons, range_cons, Nat.mul_assoc,
        expand]
      dsimp only
      rw [high] at rest
      rw [word] at low rest
      generalize x.toNat * wordsValue ys = product at rest ⊢
      generalize y.toNat * x.toNat = square at rest low ⊢
      generalize range ts * _ = top at rest ⊢
      omega

/-- A row doubled. -/
theorem doubleWords_value {carry : UInt64} (few : carry.toNat ≤ 1) (xs : List UInt32) :
    (doubleWords carry xs).1.length = xs.length ∧ (doubleWords carry xs).2.toNat ≤ 1 ∧
      wordsValue (doubleWords carry xs).1 + range xs * (doubleWords carry xs).2.toNat =
        2 * wordsValue xs + carry.toNat := by
  induction xs generalizing carry with
  | nil =>
    refine ⟨rfl, few, ?_⟩
    show 0 + 1 * carry.toNat = 2 * 0 + carry.toNat
    omega
  | cons x xs induction =>
    have lowX := UInt32.toNat_lt x
    have shifted : (x.toUInt64 <<< 1).toNat = 2 * x.toNat := by
      rw [UInt64.toNat_shiftLeft, UInt32.toNat_toUInt64]
      show x.toNat <<< 1 % 2 ^ 64 = _
      rw [Nat.shiftLeft_eq]
      omega
    have word : ((x.toUInt64 <<< 1) ||| carry).toNat = 2 * x.toNat + carry.toNat := by
      rw [UInt64.toNat_or, shifted]
      exact (@Nat.two_pow_add_eq_or_of_lt 1 carry.toNat (by omega) x.toNat).symm
    have high := high64 ((x.toUInt64 <<< 1) ||| carry)
    have low : ((x.toUInt64 <<< 1) ||| carry).toUInt32.toNat = _ % 2 ^ 32 :=
      UInt64.toNat_toUInt32 _
    have fewer : (((x.toUInt64 <<< 1) ||| carry) >>> 32).toNat ≤ 1 := by
      rw [high, word]
      omega
    obtain ⟨length, small, rest⟩ := induction fewer
    refine ⟨?_, small, ?_⟩
    · rw [doubleWords, List.length_cons, List.length_cons, length]
    · rw [doubleWords, wordsValue_cons, wordsValue_cons, range_cons, Nat.mul_assoc]
      dsimp only
      rw [high] at rest
      rw [word] at low rest
      generalize range xs * _ = top at rest ⊢
      omega

end MectovOS.Tls
