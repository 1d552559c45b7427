/-
This file proves what the words of Poly1305 are worth as numbers: the limbs of a
block and of `r`, the folded products, the carries, the choice of the
representative below the prime, and the words of the tag. No sum on the way
leaves its word.
-/

import MectovOS.Tls.Poly1305
import MectovOS.Lib.LittleEndian

namespace MectovOS.Tls

open LittleEndian

/-! ### Words -/

theorem byteAt_number (p : Bytes) (offset : Nat) :
    number (p.drop offset) = byteAt p offset + 256 * number (p.drop (offset + 1)) :=
  number_head p offset

theorem le32_bytes (p : Bytes) (offset : Nat) :
    (le32 p offset).toNat = byteAt p offset + 2 ^ 8 * byteAt p (offset + 1) +
      2 ^ 16 * byteAt p (offset + 2) + 2 ^ 24 * byteAt p (offset + 3) := by
  have byte : ∀ index, byteAt p index < 2 ^ 8 := fun index => UInt8.toNat_lt _
  have b0 := byte offset
  have b1 := byte (offset + 1)
  have b2 := byte (offset + 2)
  have b3 := byte (offset + 3)
  have placed : ∀ index (shift : UInt32), shift.toNat ≤ 24 →
      ((p.getD index 0).toUInt32 <<< shift).toNat = byteAt p index <<< shift.toNat := by
    intro index shift low
    have small : byteAt p index * 2 ^ shift.toNat < 2 ^ 8 * 2 ^ 24 :=
      Nat.mul_lt_mul_of_lt_of_le (byte index) (Nat.pow_le_pow_right (by omega) low) (by omega)
    rw [UInt32.toNat_shiftLeft, UInt8.toNat_toUInt32, Nat.mod_eq_of_lt (by omega : _ < 32)]
    show (byteAt p index) <<< _ % _ = _
    rw [Nat.shiftLeft_eq, Nat.mod_eq_of_lt (by omega)]
  unfold le32
  rw [UInt32.toNat_or, UInt32.toNat_or, UInt32.toNat_or, placed _ 8 (by decide),
    placed _ 16 (by decide), placed _ 24 (by decide), UInt8.toNat_toUInt32]
  show byteAt p offset ||| _ <<< 8 ||| _ <<< 16 ||| _ <<< 24 = _
  rw [@or_shift _ 8 _ b0, @or_shift _ 16 _ (by omega), @or_shift _ 24 _ (by omega)]

/-- A word is cut out of the number of the text. -/
theorem le32_toNat (p : Bytes) (offset : Nat) :
    (le32 p offset).toNat = number p / 256 ^ offset % 2 ^ 32 := by
  have h0 := byteAt_number p offset
  have h1 : _ = _ + 256 * number (p.drop (offset + 2)) := byteAt_number p (offset + 1)
  have h2 : _ = _ + 256 * number (p.drop (offset + 3)) := byteAt_number p (offset + 2)
  have h3 := byteAt_number p (offset + 3)
  have byte : ∀ index, byteAt p index < 2 ^ 8 := fun index => UInt8.toNat_lt _
  have b0 := byte offset
  have b1 := byte (offset + 1)
  have b2 := byte (offset + 2)
  have b3 := byte (offset + 3)
  rw [le32_bytes, ← number_drop]
  omega

theorem low26_toNat (x : UInt32) : (low26 x).toNat = x.toNat % 2 ^ 26 := by
  unfold low26
  rw [UInt32.toNat_and]
  exact Nat.and_two_pow_sub_one_eq_mod _ 26

theorem shr_toNat (x shift : UInt32) (small : shift.toNat < 32) :
    (x >>> shift).toNat = x.toNat / 2 ^ shift.toNat := by
  rw [UInt32.toNat_shiftRight, Nat.mod_eq_of_lt small, Nat.shiftRight_eq_div_pow]

theorem add_toNat {x y : UInt32} (fits : x.toNat + y.toNat < 2 ^ 32) :
    (x + y).toNat = x.toNat + y.toNat := by
  rw [UInt32.toNat_add, Nat.mod_eq_of_lt fits]

theorem five_toNat {x : UInt32} (fits : x.toNat * 5 < 2 ^ 32) : (x * 5).toNat = x.toNat * 5 := by
  rw [UInt32.toNat_mul]
  exact Nat.mod_eq_of_lt fits

theorem mul64_toNat (x y : UInt32) : (mul64 x y).toNat = x.toNat * y.toNat := by
  have fits : x.toNat * y.toNat < 2 ^ 32 * 2 ^ 32 :=
    Nat.mul_lt_mul'' (UInt32.toNat_lt x) (UInt32.toNat_lt y)
  unfold mul64
  rw [UInt64.toNat_mul, UInt32.toNat_toUInt64, UInt32.toNat_toUInt64]
  exact Nat.mod_eq_of_lt fits

/-- A sum of five in 64 bits. -/
theorem sum64_toNat {a b c d e : UInt64}
    (fits : a.toNat + b.toNat + c.toNat + d.toNat + e.toNat < 2 ^ 64) :
    (a + b + c + d + e).toNat = a.toNat + b.toNat + c.toNat + d.toNat + e.toNat := by
  rw [UInt64.toNat_add, UInt64.toNat_add, UInt64.toNat_add, UInt64.toNat_add]
  omega

theorem carryOf_toNat (d : UInt64) : (carryOf d).toNat = d.toNat / 2 ^ 26 % 2 ^ 32 := by
  unfold carryOf
  rw [UInt64.toNat_toUInt32, UInt64.toNat_shiftRight, Nat.shiftRight_eq_div_pow]
  rfl

theorem limbOf_toNat (d : UInt64) : (limbOf d).toNat = d.toNat % 2 ^ 26 := by
  unfold limbOf
  rw [low26_toNat, UInt64.toNat_toUInt32]
  omega

/-! ### What five limbs are worth -/

/-- The prime 2^130 - 5. -/
def prime1305 : Nat := 2 ^ 130 - 5

/-- The number of five limbs. -/
def Limbs.value (h : Limbs) : Nat :=
  h.l0.toNat + 2 ^ 26 * h.l1.toNat + 2 ^ 52 * h.l2.toNat + 2 ^ 78 * h.l3.toNat +
    2 ^ 104 * h.l4.toNat

/-- The number of five products. -/
def Wide.value (d : Wide) : Nat :=
  d.d0.toNat + 2 ^ 26 * d.d1.toNat + 2 ^ 52 * d.d2.toNat + 2 ^ 78 * d.d3.toNat +
    2 ^ 104 * d.d4.toNat

/-- Limbs of 26 bits. -/
structure Tight (h : Limbs) : Prop where
  l0 : h.l0.toNat < 2 ^ 26
  l1 : h.l1.toNat < 2 ^ 26
  l2 : h.l2.toNat < 2 ^ 26
  l3 : h.l3.toNat < 2 ^ 26
  l4 : h.l4.toNat < 2 ^ 26

/-- Limbs between two blocks: the second may hold a carry of its own. -/
structure Loose (h : Limbs) : Prop where
  l0 : h.l0.toNat < 2 ^ 26
  l1 : h.l1.toNat < 2 ^ 26 + 2 ^ 6
  l2 : h.l2.toNat < 2 ^ 26
  l3 : h.l3.toNat < 2 ^ 26
  l4 : h.l4.toNat < 2 ^ 26

theorem loose_zero : Loose ⟨0, 0, 0, 0, 0⟩ :=
  ⟨by decide, by decide, by decide, by decide, by decide⟩

theorem tight_value {h : Limbs} (tight : Tight h) : h.value < 2 ^ 130 := by
  have l0 := tight.l0
  have l1 := tight.l1
  have l2 := tight.l2
  have l3 := tight.l3
  have l4 := tight.l4
  unfold Limbs.value
  omega

/-! ### A block is added -/

/-- The sums of a block fit their words. -/
structure AddFits (h : Limbs) (m : Bytes) (hibit : UInt32) : Prop where
  l0 : h.l0.toNat + (low26 (le32 m 0)).toNat < 2 ^ 32
  l1 : h.l1.toNat + (low26 (le32 m 3 >>> 2)).toNat < 2 ^ 32
  l2 : h.l2.toNat + (low26 (le32 m 6 >>> 4)).toNat < 2 ^ 32
  l3 : h.l3.toNat + (low26 (le32 m 9 >>> 6)).toNat < 2 ^ 32
  l4 : h.l4.toNat + ((le32 m 12 >>> 8) ||| hibit).toNat < 2 ^ 32

/-- Limbs a block has been added to. -/
structure Added (h : Limbs) : Prop where
  l0 : h.l0.toNat < 2 ^ 27
  l1 : h.l1.toNat < 2 ^ 27 + 2 ^ 6
  l2 : h.l2.toNat < 2 ^ 27
  l3 : h.l3.toNat < 2 ^ 27
  l4 : h.l4.toNat < 2 ^ 27

/-- The one behind a block, as the bit above its 16 bytes: whole blocks have it. -/
def IsHibit (hibit : UInt32) : Prop := hibit = 0 ∨ hibit = 0x1000000

/-- The limbs of a block. -/
theorem block_limbs (m : Bytes) :
    (low26 (le32 m 0)).toNat = number m % 2 ^ 26 ∧
      (low26 (le32 m 3 >>> 2)).toNat = number m / 2 ^ 26 % 2 ^ 26 ∧
      (low26 (le32 m 6 >>> 4)).toNat = number m / 2 ^ 52 % 2 ^ 26 ∧
      (low26 (le32 m 9 >>> 6)).toNat = number m / 2 ^ 78 % 2 ^ 26 ∧
      (le32 m 12 >>> 8).toNat = number m / 2 ^ 104 % 2 ^ 24 := by
  refine ⟨?_, ?_, ?_, ?_, ?_⟩
  · rw [low26_toNat, le32_toNat]
    omega
  · rw [low26_toNat, shr_toNat _ 2 (by decide), le32_toNat]
    show number m / 256 ^ 3 % 2 ^ 32 / 2 ^ 2 % 2 ^ 26 = _
    omega
  · rw [low26_toNat, shr_toNat _ 4 (by decide), le32_toNat]
    show number m / 256 ^ 6 % 2 ^ 32 / 2 ^ 4 % 2 ^ 26 = _
    omega
  · rw [low26_toNat, shr_toNat _ 6 (by decide), le32_toNat]
    show number m / 256 ^ 9 % 2 ^ 32 / 2 ^ 6 % 2 ^ 26 = _
    omega
  · rw [shr_toNat _ 8 (by decide), le32_toNat]
    show number m / 256 ^ 12 % 2 ^ 32 / 2 ^ 8 = _
    omega

theorem hibit_or (m : Bytes) {hibit : UInt32} (isHibit : IsHibit hibit) :
    ((le32 m 12 >>> 8) ||| hibit).toNat = number m / 2 ^ 104 % 2 ^ 24 + hibit.toNat := by
  have high := (block_limbs m).2.2.2.2
  rw [UInt32.toNat_or, high]
  rcases isHibit with rfl | rfl
  · exact Nat.or_zero _
  · exact @or_shift _ 24 1 (Nat.mod_lt _ (by omega))

theorem addBlock_fits {h : Limbs} (loose : Loose h) (m : Bytes) {hibit : UInt32}
    (isHibit : IsHibit hibit) : AddFits h m hibit := by
  obtain ⟨m0, m1, m2, m3, -⟩ := block_limbs m
  have m4 := hibit_or m isHibit
  have bit : hibit.toNat ≤ 2 ^ 24 := by
    rcases isHibit with rfl | rfl <;> decide
  obtain ⟨l0, l1, l2, l3, l4⟩ := loose
  exact ⟨by omega, by omega, by omega, by omega, by omega⟩

/-- The accumulator grows by the number of the block and its one. -/
theorem addBlock_value {h : Limbs} (loose : Loose h) {m : Bytes} {hibit : UInt32}
    (isHibit : IsHibit hibit) (short : m.length = 16) :
    Added (addBlock h m hibit) ∧
      (addBlock h m hibit).value = h.value + (number m + 2 ^ 104 * hibit.toNat) := by
  have fits := addBlock_fits loose m isHibit
  obtain ⟨m0, m1, m2, m3, -⟩ := block_limbs m
  have m4 := hibit_or m isHibit
  have small : number m < 256 ^ 16 := short ▸ number_lt m
  have bit : hibit.toNat ≤ 2 ^ 24 := by
    rcases isHibit with rfl | rfl <;> decide
  have n0 := add_toNat fits.l0
  have n1 := add_toNat fits.l1
  have n2 := add_toNat fits.l2
  have n3 := add_toNat fits.l3
  have n4 := add_toNat fits.l4
  obtain ⟨l0, l1, l2, l3, l4⟩ := loose
  rw [m0] at n0
  rw [m1] at n1
  rw [m2] at n2
  rw [m3] at n3
  rw [m4] at n4
  unfold Limbs.value addBlock
  refine ⟨⟨?_, ?_, ?_, ?_, ?_⟩, ?_⟩
  all_goals dsimp only
  all_goals omega

/-! ### The products -/

/-- The lowest column of the product, with what is above 2^130 folded down. -/
def column0 (h r : Limbs) : Nat :=
  h.l0.toNat * r.l0.toNat + h.l1.toNat * (r.l4.toNat * 5) + h.l2.toNat * (r.l3.toNat * 5) +
    h.l3.toNat * (r.l2.toNat * 5) + h.l4.toNat * (r.l1.toNat * 5)

/-- The second column of the product, with what is above 2^130 folded down. -/
def column1 (h r : Limbs) : Nat :=
  h.l0.toNat * r.l1.toNat + h.l1.toNat * r.l0.toNat + h.l2.toNat * (r.l4.toNat * 5) +
    h.l3.toNat * (r.l3.toNat * 5) + h.l4.toNat * (r.l2.toNat * 5)

/-- The third column of the product, with what is above 2^130 folded down. -/
def column2 (h r : Limbs) : Nat :=
  h.l0.toNat * r.l2.toNat + h.l1.toNat * r.l1.toNat + h.l2.toNat * r.l0.toNat +
    h.l3.toNat * (r.l4.toNat * 5) + h.l4.toNat * (r.l3.toNat * 5)

/-- The fourth column of the product, with what is above 2^130 folded down. -/
def column3 (h r : Limbs) : Nat :=
  h.l0.toNat * r.l3.toNat + h.l1.toNat * r.l2.toNat + h.l2.toNat * r.l1.toNat +
    h.l3.toNat * r.l0.toNat + h.l4.toNat * (r.l4.toNat * 5)

/-- The highest column of the product, with what is above 2^130 folded down. -/
def column4 (h r : Limbs) : Nat :=
  h.l0.toNat * r.l4.toNat + h.l1.toNat * r.l3.toNat + h.l2.toNat * r.l2.toNat +
    h.l3.toNat * r.l1.toNat + h.l4.toNat * r.l0.toNat

/-- The sums of the products fit their words. -/
structure ProductsFit (h r : Limbs) : Prop where
  s1 : r.l1.toNat * 5 < 2 ^ 32
  s2 : r.l2.toNat * 5 < 2 ^ 32
  s3 : r.l3.toNat * 5 < 2 ^ 32
  s4 : r.l4.toNat * 5 < 2 ^ 32
  d0 : column0 h r < 2 ^ 64
  d1 : column1 h r < 2 ^ 64
  d2 : column2 h r < 2 ^ 64
  d3 : column3 h r < 2 ^ 64
  d4 : column4 h r < 2 ^ 64

/-- Products whose carries fit. -/
structure Bounded (d : Wide) : Prop where
  d0 : d.d0.toNat < 2 ^ 58 - 2 ^ 32
  d1 : d.d1.toNat < 2 ^ 58 - 2 ^ 32
  d2 : d.d2.toNat < 2 ^ 58 - 2 ^ 32
  d3 : d.d3.toNat < 2 ^ 58 - 2 ^ 32
  d4 : d.d4.toNat < 2 ^ 55 + 2 ^ 54

/-- A product of a limb of the accumulator and one of `r`. -/
theorem product_le {x y : Nat} (low : x < 2 ^ 27 + 2 ^ 6) (small : y < 2 ^ 26) :
    x * y ≤ (2 ^ 27 + 2 ^ 6) * 2 ^ 26 ∧ x * (y * 5) = x * y * 5 :=
  ⟨Nat.mul_le_mul low.le small.le, (Nat.mul_assoc _ _ _).symm⟩

theorem columns_lt {h r : Limbs} (added : Added h) (tight : Tight r) :
    column0 h r < 2 ^ 58 - 2 ^ 32 ∧ column1 h r < 2 ^ 58 - 2 ^ 32 ∧
      column2 h r < 2 ^ 58 - 2 ^ 32 ∧ column3 h r < 2 ^ 58 - 2 ^ 32 ∧
        column4 h r < 2 ^ 55 + 2 ^ 54 := by
  obtain ⟨a0, a1, a2, a3, a4⟩ := added
  obtain ⟨r0, r1, r2, r3, r4⟩ := tight
  have all : ∀ x ∈ [h.l0.toNat, h.l1.toNat, h.l2.toNat, h.l3.toNat, h.l4.toNat],
      ∀ y ∈ [r.l0.toNat, r.l1.toNat, r.l2.toNat, r.l3.toNat, r.l4.toNat],
        x * y ≤ (2 ^ 27 + 2 ^ 6) * 2 ^ 26 ∧ x * (y * 5) = x * y * 5 := by
    intro x memberX y memberY
    refine product_le ?_ ?_
    · simp only [List.mem_cons, List.not_mem_nil, or_false] at memberX
      omega
    · simp only [List.mem_cons, List.not_mem_nil, or_false] at memberY
      omega
  simp only [List.mem_cons, List.not_mem_nil, or_false, forall_eq_or_imp, forall_eq] at all
  unfold column0 column1 column2 column3 column4
  refine ⟨?_, ?_, ?_, ?_, ?_⟩ <;> omega

theorem products_fit {h r : Limbs} (added : Added h) (tight : Tight r) : ProductsFit h r := by
  obtain ⟨d0, d1, d2, d3, d4⟩ := columns_lt added tight
  obtain ⟨r0, r1, r2, r3, r4⟩ := tight
  exact ⟨by omega, by omega, by omega, by omega, by omega, by omega, by omega, by omega, by omega⟩

/-- A product with a limb that stands above 2^130. -/
theorem mul64_five {x y : UInt32} (fits : y.toNat * 5 < 2 ^ 32) :
    (mul64 x (y * 5)).toNat = x.toNat * (y.toNat * 5) := by
  rw [mul64_toNat, five_toNat fits]

theorem products_columns {h r : Limbs} (fits : ProductsFit h r) :
    (products h r).d0.toNat = column0 h r ∧ (products h r).d1.toNat = column1 h r ∧
      (products h r).d2.toNat = column2 h r ∧ (products h r).d3.toNat = column3 h r ∧
        (products h r).d4.toNat = column4 h r := by
  refine ⟨?_, ?_, ?_, ?_, ?_⟩
  · refine (sum64_toNat ?_).trans ?_
    all_goals rw [mul64_toNat, mul64_five fits.s4, mul64_five fits.s3, mul64_five fits.s2,
      mul64_five fits.s1]
    · exact fits.d0
    · rfl
  · refine (sum64_toNat ?_).trans ?_
    all_goals rw [mul64_toNat, mul64_toNat, mul64_five fits.s4, mul64_five fits.s3,
      mul64_five fits.s2]
    · exact fits.d1
    · rfl
  · refine (sum64_toNat ?_).trans ?_
    all_goals rw [mul64_toNat, mul64_toNat, mul64_toNat, mul64_five fits.s4, mul64_five fits.s3]
    · exact fits.d2
    · rfl
  · refine (sum64_toNat ?_).trans ?_
    all_goals rw [mul64_toNat, mul64_toNat, mul64_toNat, mul64_toNat, mul64_five fits.s4]
    · exact fits.d3
    · rfl
  · refine (sum64_toNat ?_).trans ?_
    all_goals rw [mul64_toNat, mul64_toNat, mul64_toNat, mul64_toNat, mul64_toNat]
    · exact fits.d4
    · rfl

/-- The columns above 2^130, as they are before the fold. -/
def upperColumns (h r : Limbs) : Nat :=
  h.l1.toNat * r.l4.toNat + h.l2.toNat * r.l3.toNat + h.l3.toNat * r.l2.toNat +
      h.l4.toNat * r.l1.toNat +
    2 ^ 26 * (h.l2.toNat * r.l4.toNat + h.l3.toNat * r.l3.toNat + h.l4.toNat * r.l2.toNat) +
    2 ^ 52 * (h.l3.toNat * r.l4.toNat + h.l4.toNat * r.l3.toNat) +
    2 ^ 78 * (h.l4.toNat * r.l4.toNat)

/-- The products are the product of the two numbers but for a multiple of the prime. -/
theorem products_value {h r : Limbs} (added : Added h) (tight : Tight r) :
    Bounded (products h r) ∧
      (products h r).value + prime1305 * upperColumns h r = h.value * r.value := by
  obtain ⟨b0, b1, b2, b3, b4⟩ := columns_lt added tight
  obtain ⟨d0, d1, d2, d3, d4⟩ := products_columns (products_fit added tight)
  refine ⟨⟨d0 ▸ b0, d1 ▸ b1, d2 ▸ b2, d3 ▸ b3, d4 ▸ b4⟩, ?_⟩
  unfold Wide.value
  rw [d0, d1, d2, d3, d4]
  unfold column0 column1 column2 column3 column4 upperColumns Limbs.value
  rw [show prime1305 = 1361129467683753853853498429727072845819 from rfl]
  ring

/-! ### The carries -/

/-- The carries fit their words, and so do the sums that take them. -/
structure CarriesFit (d : Wide) : Prop where
  c0 : d.d0.toNat / 2 ^ 26 < 2 ^ 32
  d1 : d.d1.toNat + (carryOf d.d0).toNat < 2 ^ 64
  c1 : (carryProducts d).d1.toNat / 2 ^ 26 < 2 ^ 32
  d2 : d.d2.toNat + (carryOf (carryProducts d).d1).toNat < 2 ^ 64
  c2 : (carryProducts d).d2.toNat / 2 ^ 26 < 2 ^ 32
  d3 : d.d3.toNat + (carryOf (carryProducts d).d2).toNat < 2 ^ 64
  c3 : (carryProducts d).d3.toNat / 2 ^ 26 < 2 ^ 32
  d4 : d.d4.toNat + (carryOf (carryProducts d).d3).toNat < 2 ^ 64
  c4 : (carryProducts d).d4.toNat / 2 ^ 26 < 2 ^ 32
  five : (carryOf (carryProducts d).d4).toNat * 5 < 2 ^ 32
  l0 : (limbOf d.d0).toNat + (carryOf (carryProducts d).d4 * 5).toNat < 2 ^ 32
  l1 : (limbOf (carryProducts d).d1).toNat + (foldedLow (carryProducts d) >>> 26).toNat < 2 ^ 32

/-- A product that takes a carry. -/
theorem take_carry {d before : UInt64} (low : d.toNat < 2 ^ 58 - 2 ^ 32)
    (lowBefore : before.toNat < 2 ^ 58) :
    before.toNat / 2 ^ 26 < 2 ^ 32 ∧ d.toNat + (carryOf before).toNat < 2 ^ 64 ∧
      (d + (carryOf before).toUInt64).toNat = d.toNat + before.toNat / 2 ^ 26 ∧
        (d + (carryOf before).toUInt64).toNat < 2 ^ 58 := by
  have carry := carryOf_toNat before
  have sum : (d + (carryOf before).toUInt64).toNat = d.toNat + before.toNat / 2 ^ 26 := by
    rw [UInt64.toNat_add, UInt32.toNat_toUInt64, carry]
    omega
  exact ⟨by omega, by omega, sum, by omega⟩

/-- The carries of the products, as numbers. -/
theorem carryProducts_toNat {d : Wide} (bounded : Bounded d) :
    CarriesFit d ∧
      (carryProducts d).d1.toNat = d.d1.toNat + d.d0.toNat / 2 ^ 26 ∧
      (carryProducts d).d2.toNat = d.d2.toNat + (carryProducts d).d1.toNat / 2 ^ 26 ∧
      (carryProducts d).d3.toNat = d.d3.toNat + (carryProducts d).d2.toNat / 2 ^ 26 ∧
      (carryProducts d).d4.toNat = d.d4.toNat + (carryProducts d).d3.toNat / 2 ^ 26 ∧
      (foldedLow (carryProducts d)).toNat =
        d.d0.toNat % 2 ^ 26 + (carryProducts d).d4.toNat / 2 ^ 26 * 5 ∧
      (foldedLow (carryProducts d)).toNat < 2 ^ 32 - 2 ^ 27 := by
  obtain ⟨b0, b1, b2, b3, b4⟩ := bounded
  obtain ⟨c0, f1, e1, s1⟩ := take_carry b1 (b0.trans (by omega))
  obtain ⟨c1, f2, e2, s2⟩ := take_carry b2 s1
  obtain ⟨c2, f3, e3, s3⟩ := take_carry b3 s2
  have b4' : d.d4.toNat < 2 ^ 58 - 2 ^ 32 := b4.trans (by omega)
  obtain ⟨c3, f4, e4, s4⟩ := take_carry b4' s3
  have last := carryOf_toNat (carryProducts d).d4
  have last4 : (carryProducts d).d4.toNat = d.d4.toNat + (carryProducts d).d3.toNat / 2 ^ 26 := e4
  have limb := limbOf_toNat d.d0
  have third : (carryProducts d).d3.toNat < 2 ^ 58 := s3
  have top : (carryOf (carryProducts d).d4).toNat = (carryProducts d).d4.toNat / 2 ^ 26 := by
    rw [last, Nat.mod_eq_of_lt (by omega)]
  have five : (carryOf (carryProducts d).d4).toNat * 5 < 2 ^ 32 - 2 ^ 28 + 2 ^ 10 := by omega
  have times := five_toNat (five.trans (by omega))
  have l0 : (limbOf d.d0).toNat + (carryOf (carryProducts d).d4 * 5).toNat < 2 ^ 32 := by omega
  have folded : (foldedLow (carryProducts d)).toNat =
      d.d0.toNat % 2 ^ 26 + (carryProducts d).d4.toNat / 2 ^ 26 * 5 := by
    refine (add_toNat l0).trans ?_
    rw [limb, times, top]
  have limb1 := limbOf_toNat (carryProducts d).d1
  have shifted := shr_toNat (foldedLow (carryProducts d)) 26 (by decide)
  have l1 : (limbOf (carryProducts d).d1).toNat +
      (foldedLow (carryProducts d) >>> 26).toNat < 2 ^ 32 := by
    rw [shifted, limb1]
    show _ + _ / 2 ^ 26 < 2 ^ 32
    omega
  exact ⟨⟨c0, f1, c1, f2, c2, f3, c3, f4, by omega, five.trans (by omega), l0, l1⟩, e1, e2, e3, e4,
    folded, by omega⟩

/-- The carried limbs are the products but for a multiple of the prime. -/
theorem limbsOf_value {d : Wide} (bounded : Bounded d) :
    Loose (limbsOf (carryProducts d)) ∧
      (limbsOf (carryProducts d)).value + prime1305 * ((carryProducts d).d4.toNat / 2 ^ 26) =
        d.value := by
  obtain ⟨fits, e1, e2, e3, e4, folded, low⟩ := carryProducts_toNat bounded
  have l0 : (limbsOf (carryProducts d)).l0.toNat = (foldedLow (carryProducts d)).toNat % 2 ^ 26 :=
    low26_toNat _
  have l1 : (limbsOf (carryProducts d)).l1.toNat = (carryProducts d).d1.toNat % 2 ^ 26 +
      (foldedLow (carryProducts d)).toNat / 2 ^ 26 := by
    refine (add_toNat fits.l1).trans ?_
    rw [limbOf_toNat, shr_toNat _ 26 (by decide)]
    rfl
  have l2 : (limbsOf (carryProducts d)).l2.toNat = (carryProducts d).d2.toNat % 2 ^ 26 :=
    limbOf_toNat _
  have l3 : (limbsOf (carryProducts d)).l3.toNat = (carryProducts d).d3.toNat % 2 ^ 26 :=
    limbOf_toNat _
  have l4 : (limbsOf (carryProducts d)).l4.toNat = (carryProducts d).d4.toNat % 2 ^ 26 :=
    limbOf_toNat _
  refine ⟨⟨by omega, by omega, by omega, by omega, by omega⟩, ?_⟩
  unfold Limbs.value Wide.value
  rw [show prime1305 = 1361129467683753853853498429727072845819 from rfl]
  omega

end MectovOS.Tls
