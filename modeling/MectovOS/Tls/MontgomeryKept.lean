/-
This file proves the Montgomery products of the big integers: a round of the code is a
round of the reduction, a product lies below the modulus after one subtraction, the
inverse and the square of the range are what they are named for, and no sum leaves
its word.
-/

import MectovOS.Tls.BignumWords

namespace MectovOS.Tls

/-! ### A round -/

/-- The number of `t` with the word above it. -/
def accValue (t : List UInt32 × UInt32) : Nat := wordsValue t.1 + range t.1 * t.2.toNat

/-- The sums of a round fit their words. -/
structure RoundFits (mb : List UInt32) (n0inv : UInt32) (a : List UInt32)
    (t : List UInt32 × UInt32) (bi : UInt32) : Prop where
  row : RowFits bi 0 a t.1
  top : t.2.toNat + (productRow a t bi).2.toNat < 2 ^ 64
  cleared : (clearingWord n0inv (productRow a t bi).1).toNat * (mb.headD 0).toNat +
    ((productRow a t bi).1.headD 0).toNat < 2 ^ 64
  rest : RowFits (clearingWord n0inv (productRow a t bi).1)
    (clearedWord mb (clearingWord n0inv (productRow a t bi).1) (productRow a t bi).1 >>> 32) mb.tail
    (productRow a t bi).1.tail
  last : (productTop a t bi).toUInt32.toNat +
    (clearedRow mb (clearingWord n0inv (productRow a t bi).1) (productRow a t bi).1).2.toNat < 2 ^ 64
  above : (productTop a t bi >>> 32).toUInt32.toNat +
    (((productTop a t bi).toUInt32.toUInt64 +
      (clearedRow mb (clearingWord n0inv (productRow a t bi).1) (productRow a t bi).1).2) >>>
        32).toUInt32.toNat < 2 ^ 32

/-- A sum of a word and a carry. -/
theorem addCarry64 (x : UInt32) {carry : UInt64} (few : carry.toNat < 2 ^ 32) :
    (x.toUInt64 + carry).toNat = x.toNat + carry.toNat ∧
      ((x.toUInt64 + carry) >>> 32).toUInt32.toNat = (x.toNat + carry.toNat) / 2 ^ 32 ∧
      (x.toUInt64 + carry).toUInt32.toNat = (x.toNat + carry.toNat) % 2 ^ 32 := by
  have low := UInt32.toNat_lt x
  have sum : (x.toUInt64 + carry).toNat = x.toNat + carry.toNat := by
    rw [UInt64.toNat_add, UInt32.toNat_toUInt64]
    omega
  refine ⟨sum, ?_, ?_⟩
  · rw [UInt64.toNat_toUInt32, high64, sum]
    omega
  · rw [UInt64.toNat_toUInt32, sum]

theorem clearingWord_toNat (n0inv : UInt32) (words : List UInt32) :
    (clearingWord n0inv words).toNat = (words.headD 0).toNat * n0inv.toNat % 2 ^ 32 := by
  unfold clearingWord
  have fits := product_fits (words.headD 0) n0inv (show 0 < 2 ^ 32 by omega)
    (show 0 < 2 ^ 32 by omega)
  rw [UInt64.toNat_toUInt32, UInt64.toNat_mul, UInt32.toNat_toUInt64, UInt32.toNat_toUInt64]
  generalize (words.headD 0).toNat * n0inv.toNat = product at fits ⊢
  omega

/-- A round of the code is a round of the reduction. -/
theorem montRound_value {mb a : List UInt32} {n0inv : UInt32} {t : List UInt32 × UInt32}
    (some : 0 < mb.length) (lengthA : a.length = mb.length) (lengthT : t.1.length = mb.length)
    (isInverse : 2 ^ 32 ∣ n0inv.toNat * wordsValue mb + 1) (bi : UInt32) :
    RoundFits mb n0inv a t bi ∧ (montRound mb n0inv a t bi).1.length = mb.length ∧
      accValue (montRound mb n0inv a t bi) =
        Montgomery.round (2 ^ 32) (wordsValue mb) n0inv.toNat (wordsValue a) (accValue t)
          bi.toNat := by
  obtain ⟨words, tn⟩ := t
  dsimp only at lengthT
  have zero : (0 : UInt64).toNat = 0 := rfl
  obtain ⟨rowFits, lengthRow, fewRow, row⟩ :=
    @mulAddWords_value bi 0 (by decide) a words (lengthA.trans lengthT.symm)
  obtain ⟨m0, ms, rfl⟩ := List.exists_cons_of_length_pos some
  obtain ⟨t0, ts, isRow⟩ := List.exists_cons_of_length_pos
    (show 0 < (mulAddWords bi 0 a words).1.length by rw [lengthRow]; omega)
  have tails : ms.length = ts.length := by
    have both := lengthRow
    rw [isRow, List.length_cons] at both
    rw [List.length_cons] at lengthT
    omega
  have head : (productRow a (words, tn) bi).1 = t0 :: ts := isRow
  have rowRange : range words = 2 ^ 32 * range ts := by
    rw [← range_cons t0 ts, ← isRow]
    unfold range
    rw [lengthRow]
  rw [isRow, wordsValue_cons, zero, Nat.add_zero, rowRange] at row
  -- the two words above the row
  obtain ⟨topSum, topHigh, topLow⟩ := addCarry64 tn fewRow
  have topSum' : (productTop a (words, tn) bi).toNat = _ := topSum
  have lowTn := UInt32.toNat_lt tn
  have lowM := UInt32.toNat_lt m0
  have lowT := UInt32.toNat_lt t0
  -- the word that clears the lowest one
  have isFactor : (clearingWord n0inv (t0 :: ts)).toNat = t0.toNat * n0inv.toNat % 2 ^ 32 :=
    clearingWord_toNat n0inv (t0 :: ts)
  generalize isMm : clearingWord n0inv (t0 :: ts) = mm at isFactor
  have firstFits := product_fits mm m0 lowT (show 0 < 2 ^ 32 by omega)
  have firstSum : (clearedWord (m0 :: ms) mm (t0 :: ts)).toNat = mm.toNat * m0.toNat + t0.toNat := by
    have exactly := @mulAdd_toNat mm m0 t0 0 (by decide)
    rw [UInt64.add_zero, zero, Nat.add_zero] at exactly
    exact exactly
  have firstHigh := high64 (clearedWord (m0 :: ms) mm (t0 :: ts))
  have fewFirst : (clearedWord (m0 :: ms) mm (t0 :: ts) >>> 32).toNat < 2 ^ 32 := by
    rw [firstHigh, firstSum]
    omega
  obtain ⟨restFits, lengthRest, fewRest, rest⟩ := mulAddWords_value mm fewFirst tails
  have cleared : clearedRow (m0 :: ms) mm (t0 :: ts) =
      mulAddWords mm (clearedWord (m0 :: ms) mm (t0 :: ts) >>> 32) ms ts := rfl
  rw [← cleared] at lengthRest fewRest rest
  have lowTop := UInt32.toNat_lt (productTop a (words, tn) bi).toUInt32
  obtain ⟨lastSum, lastHigh, lastLow⟩ :=
    addCarry64 (productTop a (words, tn) bi).toUInt32 fewRest
  have topLow' : (productTop a (words, tn) bi).toUInt32.toNat = _ := topLow
  have topHigh' : (productTop a (words, tn) bi >>> 32).toUInt32.toNat = _ := topHigh
  have fewRow' : (productRow a (words, tn) bi).2.toNat < 2 ^ 32 := fewRow
  have above : (productTop a (words, tn) bi >>> 32).toUInt32.toNat +
      (((productTop a (words, tn) bi).toUInt32.toUInt64 + (clearedRow (m0 :: ms) mm (t0 :: ts)).2) >>>
        32).toUInt32.toNat < 2 ^ 32 := by
    rw [topHigh', lastHigh]
    omega
  refine ⟨⟨rowFits, ?_, ?_, ?_, ?_, ?_⟩, ?_, ?_⟩
  · dsimp only
    omega
  · rw [head, isMm]
    exact firstFits
  · rw [head, isMm]
    exact restFits
  · rw [head, isMm]
    omega
  · rw [head, isMm]
    exact above
  · unfold montRound
    dsimp only
    rw [head, isMm, List.length_append, List.length_singleton, List.length_cons, lengthRest, tails]
  -- the total before the round, with the word's product
  have total : accValue (words, tn) + bi.toNat * wordsValue a =
      t0.toNat + 2 ^ 32 * (wordsValue ts + range ts * (productTop a (words, tn) bi).toNat) := by
    unfold accValue
    rw [topSum', rowRange]
    have carried : range ts * (tn.toNat + (mulAddWords bi 0 a words).2.toNat) =
        range ts * tn.toNat + range ts * (mulAddWords bi 0 a words).2.toNat := Nat.mul_add _ _ _
    have place : (2 ^ 32 * range ts) * tn.toNat = 2 ^ 32 * (range ts * tn.toNat) :=
      Nat.mul_assoc _ _ _
    have place' : (2 ^ 32 * range ts) * (mulAddWords bi 0 a words).2.toNat =
      2 ^ 32 * (range ts * (mulAddWords bi 0 a words).2.toNat) := Nat.mul_assoc _ _ _
    dsimp only
    rw [place'] at row
    rw [carried, place]
    omega
  have isQuotient : Montgomery.quotient (2 ^ 32) n0inv.toNat
      (accValue (words, tn) + bi.toNat * wordsValue a) = mm.toNat := by
    unfold Montgomery.quotient
    rw [isFactor, total, Nat.add_mul_mod_self_left, Nat.mod_eq_of_lt lowT]
  have clears := Montgomery.quotient_clears isInverse
    (accValue (words, tn) + bi.toNat * wordsValue a)
  have exactly := Montgomery.round_exact isInverse (wordsValue a) (accValue (words, tn)) bi.toNat
  rw [isQuotient, total, wordsValue_cons] at clears exactly
  -- the total after it, with the two words above the row joined again
  have after : accValue (montRound (m0 :: ms) n0inv a (words, tn) bi) =
      wordsValue (clearedRow (m0 :: ms) mm (t0 :: ts)).1 +
        range ts * ((productTop a (words, tn) bi).toNat +
          (clearedRow (m0 :: ms) mm (t0 :: ts)).2.toNat) := by
    have sum : ((productTop a (words, tn) bi >>> 32).toUInt32 +
        (((productTop a (words, tn) bi).toUInt32.toUInt64 +
          (clearedRow (m0 :: ms) mm (t0 :: ts)).2) >>> 32).toUInt32).toNat = _ :=
      (UInt32.toNat_add _ _).trans (Nat.mod_eq_of_lt above)
    have same : range (clearedRow (m0 :: ms) mm (t0 :: ts)).1 = range ts := by
      unfold range
      rw [lengthRest]
    have single : ∀ word : UInt32, wordsValue [word] = word.toNat := fun word => by
      rw [wordsValue_cons, wordsValue_nil, Nat.mul_zero, Nat.add_zero]
    have longer : range ((clearedRow (m0 :: ms) mm (t0 :: ts)).1 ++
        [((productTop a (words, tn) bi).toUInt32.toUInt64 +
          (clearedRow (m0 :: ms) mm (t0 :: ts)).2).toUInt32]) = 2 ^ 32 * range ts := by
      unfold range
      rw [List.length_append, List.length_singleton, lengthRest, Nat.pow_succ, Nat.mul_comm]
    unfold accValue montRound
    dsimp only
    rw [head, isMm, wordsValue_append, single, longer, same, sum, topHigh', lastHigh, lastLow,
      topLow', topSum', Nat.mul_comm (2 ^ 32) (range ts), Nat.mul_assoc, Nat.add_assoc, ← Nat.mul_add]
    congr 2
    omega
  have divides : 2 ^ 32 ∣ mm.toNat * m0.toNat + t0.toNat := by
    have split : t0.toNat + 2 ^ 32 * (wordsValue ts + range ts * (productTop a (words, tn) bi).toNat) +
        mm.toNat * (m0.toNat + 2 ^ 32 * wordsValue ms) = (mm.toNat * m0.toNat + t0.toNat) +
          2 ^ 32 * (wordsValue ts + range ts * (productTop a (words, tn) bi).toNat +
            mm.toNat * wordsValue ms) := by ring
    rw [split] at clears
    exact (Nat.dvd_add_left (Nat.dvd_mul_right _ _)).mp clears
  have moved := Nat.mul_div_cancel' divides
  rw [firstHigh, firstSum] at rest
  apply Nat.eq_of_mul_eq_mul_left (show 0 < 2 ^ 32 by omega)
  rw [wordsValue_cons, exactly, after, Nat.mul_add (range ts), Nat.add_left_comm, rest]
  calc 2 ^ 32 * (range ts * (productTop a (words, tn) bi).toNat + (wordsValue ts +
        mm.toNat * wordsValue ms + (mm.toNat * m0.toNat + t0.toNat) / 2 ^ 32))
      = 2 ^ 32 * (range ts * (productTop a (words, tn) bi).toNat + wordsValue ts +
          mm.toNat * wordsValue ms) + 2 ^ 32 * ((mm.toNat * m0.toNat + t0.toNat) / 2 ^ 32) := by ring
    _ = _ := by rw [moved]; ring

/-! ### A product -/

/-- The code's rounds are the rounds of the reduction. -/
theorem montRounds_value {mb a : List UInt32} {n0inv : UInt32} (some : 0 < mb.length)
    (lengthA : a.length = mb.length) (isInverse : 2 ^ 32 ∣ n0inv.toNat * wordsValue mb + 1)
    (b : List UInt32) {t : List UInt32 × UInt32} (lengthT : t.1.length = mb.length) :
    (b.foldl (montRound mb n0inv a) t).1.length = mb.length ∧
      accValue (b.foldl (montRound mb n0inv a) t) = (b.map UInt32.toNat).foldl
        (Montgomery.round (2 ^ 32) (wordsValue mb) n0inv.toNat (wordsValue a)) (accValue t) := by
  induction b generalizing t with
  | nil => exact ⟨lengthT, rfl⟩
  | cons bi b induction =>
    obtain ⟨-, length, value⟩ := montRound_value some lengthA lengthT isInverse bi
    rw [List.foldl_cons, List.map_cons, List.foldl_cons, ← value]
    exact induction length

/-- Every round of a product fits its words. -/
def ProductFits (mb : List UInt32) (n0inv : UInt32) (a b : List UInt32) : Prop :=
  ∀ before bi behind, b = before ++ bi :: behind →
    RoundFits mb n0inv a (before.foldl (montRound mb n0inv a) (List.replicate mb.length 0, 0)) bi

theorem accValue_start (count : Nat) : accValue (List.replicate count 0, 0) = 0 := by
  unfold accValue
  rw [wordsValue_zeros]
  show 0 + _ * 0 = 0
  omega

/-- A product lies below the modulus, and is the product divided by the range. -/
theorem montWords_value {mb a b : List UInt32} {n0inv : UInt32} (some : 0 < mb.length)
    (lengthA : a.length = mb.length) (lengthB : b.length = mb.length)
    (isInverse : 2 ^ 32 ∣ n0inv.toNat * wordsValue mb + 1)
    (small : wordsValue a * wordsValue b < range mb * wordsValue mb) :
    ProductFits mb n0inv a b ∧ (montWords mb n0inv a b).length = mb.length ∧
      wordsValue (montWords mb n0inv a b) < wordsValue mb ∧
      range mb * wordsValue (montWords mb n0inv a b) ≡ wordsValue a * wordsValue b
        [MOD wordsValue mb] := by
  have start : (List.replicate mb.length (0 : UInt32)).length = mb.length :=
    List.length_replicate
  refine ⟨fun before bi behind _ => ?_, ?_⟩
  · exact (montRound_value some lengthA
      (montRounds_value some lengthA isInverse before start).1 isInverse bi).1
  obtain ⟨length, value⟩ :=
    @montRounds_value mb a n0inv some lengthA isInverse b (List.replicate mb.length 0, 0) start
  obtain ⟨multiple, few, total⟩ := Montgomery.rounds_exact (by omega : 0 < 2 ^ 32) isInverse
    (wordsValue a) (b.map UInt32.toNat)
  rw [accValue_start] at value
  rw [← value, List.length_map, lengthB] at total
  rw [List.length_map, lengthB] at few
  have below := Montgomery.total_lt total few small
  unfold montWords
  generalize b.foldl (montRound mb n0inv a) (List.replicate mb.length 0, 0) = t at *
  have isTop : t.2 ≠ 0 ↔ t.2.toNat ≠ 0 :=
    not_congr ⟨fun zero => by rw [zero]; rfl, fun zero => UInt32.toNat_inj.mp zero⟩
  obtain ⟨same, less, congruent⟩ := reduceWords length isTop below
  refine ⟨same.trans length, less, ?_⟩
  refine (congruent.mul_left (range mb)).trans ?_
  show range mb * accValue t ≡ _ [MOD wordsValue mb]
  unfold range
  rw [total]
  exact Nat.add_mul_mod_self_right _ _ _

/-! ### The inverse -/

/-- Sums and products of words, as integers. -/
theorem newtonWord (m inv : UInt32) :
    ((inv * (2 - m * inv)).toNat : Int) ≡ inv.toNat * (2 - m.toNat * inv.toNat) [ZMOD 2 ^ 32] := by
  have product : ∀ x y : UInt32, ((x * y).toNat : Int) ≡ x.toNat * y.toNat [ZMOD 2 ^ 32] := by
    intro x y
    rw [UInt32.toNat_mul]
    push_cast
    exact Int.mod_modEq _ _
  have difference : ((2 - m * inv).toNat : Int) ≡ 2 - (m * inv).toNat [ZMOD 2 ^ 32] := by
    have low := UInt32.toNat_lt (m * inv)
    have two : (2 : UInt32).toNat = 2 := rfl
    rw [UInt32.toNat_sub, two]
    unfold Int.ModEq
    omega
  refine (product _ _).trans (Int.ModEq.mul_left _ (difference.trans ?_))
  exact Int.ModEq.sub_left _ (product m inv)

/-- A step of the code doubles the bits of the inverse. -/
theorem newtonWord_step {m inv : UInt32} {bits : Nat} (few : bits + bits ≤ 32)
    (holds : (2 : Int) ^ bits ∣ m.toNat * inv.toNat - 1) :
    (2 : Int) ^ (bits + bits) ∣ m.toNat * (inv * (2 - m * inv)).toNat - 1 := by
  have stepped := Montgomery.newton_step holds
  rw [← pow_add] at stepped
  have word := (newtonWord m inv).of_dvd (pow_dvd_pow 2 few)
  have congruent := (word.mul_left (m.toNat : Int)).sub_right 1
  exact Int.modEq_zero_iff_dvd.mp (congruent.trans (Int.modEq_zero_iff_dvd.mpr stepped))

theorem tlsBnMontN0inv_inverse {m : TlsBn} (odd : (m.word 0).toNat % 2 = 1) :
    2 ^ 32 ∣ (tlsBnMontN0inv m).toNat * (m.word 0).toNat + 1 := by
  have b1 : (2 : Int) ^ 1 ∣ (m.word 0).toNat * (1 : UInt32).toNat - 1 := by
    show (2 : Int) ∣ (m.word 0).toNat * 1 - 1
    omega
  have b2 := newtonWord_step (by decide) b1
  have b4 := newtonWord_step (by decide) b2
  have b8 := newtonWord_step (by decide) b4
  have b16 := newtonWord_step (by decide) b8
  have b32 := newtonWord_step (by decide) b16
  have negated : ∀ inv : UInt32, (2 : Int) ^ 32 ∣ (m.word 0).toNat * inv.toNat - 1 →
      2 ^ 32 ∣ (0 - inv).toNat * (m.word 0).toNat + 1 := by
    intro inv ⟨factor, isInverse⟩
    have low := UInt32.toNat_lt inv
    have zero : (0 : UInt32).toNat = 0 := rfl
    have value : ((0 - inv).toNat : Int) = 2 ^ 32 * ((2 ^ 32 - inv.toNat) / 2 ^ 32 * -1 + 1) -
        inv.toNat := by
      rw [UInt32.toNat_sub, zero]
      omega
    generalize ((2 ^ 32 - inv.toNat : Int) / 2 ^ 32 * -1 + 1) = turns at value
    refine Int.natCast_dvd_natCast.mp ⟨turns * (m.word 0).toNat - factor, ?_⟩
    push_cast
    rw [value]
    calc (2 ^ 32 * turns - inv.toNat) * ((m.word 0).toNat : Int) + 1
        = 2 ^ 32 * turns * (m.word 0).toNat - ((m.word 0).toNat * inv.toNat - 1) := by ring
      _ = 2 ^ 32 * (turns * (m.word 0).toNat - factor) := by rw [isInverse]; ring
  exact negated _ b32

/-! ### The square of the range -/

/-- A doubling below the modulus. -/
theorem doubleStep_value {m r : List UInt32} (same : r.length = m.length)
    (small : wordsValue r < wordsValue m) :
    (doubleStep m r).length = m.length ∧ wordsValue (doubleStep m r) < wordsValue m ∧
      wordsValue (doubleStep m r) ≡ 2 * wordsValue r [MOD wordsValue m] := by
  obtain ⟨length, -, value⟩ := @doubleWords_value 0 (Nat.zero_le 1) r
  have zero : (0 : UInt64).toNat = 0 := rfl
  have ranges : range (doubleWords 0 r).1 = range r := by
    unfold range
    rw [length]
  rw [zero, Nat.add_zero, ← ranges] at value
  have isTop : (doubleWords 0 r).2 ≠ 0 ↔ (doubleWords 0 r).2.toNat ≠ 0 :=
    not_congr ⟨fun zero => by rw [zero]; rfl, fun zero => UInt64.toNat_inj.mp zero⟩
  obtain ⟨length', less, congruent⟩ :=
    reduceWords (length.trans same) isTop (by rw [value]; omega)
  rw [value] at congruent
  exact ⟨length'.trans (length.trans same), less, congruent⟩

/-- Doubling so many times. -/
theorem doubleSteps_value {m r : List UInt32} (same : r.length = m.length)
    (small : wordsValue r < wordsValue m) (count : Nat) :
    ((doubleStep m)^[count] r).length = m.length ∧
      wordsValue ((doubleStep m)^[count] r) < wordsValue m ∧
      wordsValue ((doubleStep m)^[count] r) ≡ 2 ^ count * wordsValue r [MOD wordsValue m] := by
  induction count with
  | zero =>
    rw [Nat.pow_zero, Nat.one_mul]
    exact ⟨same, small, Nat.ModEq.refl _⟩
  | succ count induction =>
    obtain ⟨length, less, congruent⟩ := induction
    obtain ⟨length', less', congruent'⟩ := doubleStep_value length less
    rw [Function.iterate_succ_apply']
    refine ⟨length', less', congruent'.trans ?_⟩
    rw [Nat.pow_succ', Nat.mul_assoc]
    exact congruent.mul_left 2

end MectovOS.Tls
