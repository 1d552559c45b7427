/-
This file proves modular powers: numbers in Montgomery form are multiplied in that
form, the bits of the exponent are the bits of its number, and the code raises the
base to the number of the bytes that its loop reaches.
-/

import MectovOS.Tls.MontgomeryKept
import MectovOS.Lib.LittleEndian

namespace MectovOS.Tls

/-! ### Numbers and their words -/

/-- The number of a big integer. -/
def TlsBn.value (a : TlsBn) : Nat := wordsValue a.w.toList

theorem padWords_toList {words : List UInt32} (inside : words.length ≤ bnLimbs) :
    (padWords words).toList = words ++ List.replicate (bnLimbs - words.length) 0 := by
  unfold padWords
  apply List.ext_getElem
  · rw [Vector.length_toList, List.length_append, List.length_replicate]
    omega
  · intro i inVector inAppend
    rw [Vector.getElem_toList, Vector.getElem_ofFn]
    show words.getD i 0 = _
    by_cases low : i < words.length
    · rw [List.getElem_append_left low, List.getD_eq_getElem _ _ low]
    · rw [List.getElem_append_right (by omega), List.getElem_replicate,
        List.getD_eq_default _ _ (by omega)]

theorem padWords_value {words : List UInt32} (inside : words.length ≤ bnLimbs) :
    wordsValue (padWords words).toList = wordsValue words := by
  rw [padWords_toList inside, wordsValue_append, wordsValue_zeros, Nat.mul_zero, Nat.add_zero]

theorem low_length (a : TlsBn) {n : Nat} (inside : n ≤ bnLimbs) : (a.low n).length = n := by
  unfold TlsBn.low
  rw [List.length_take, Vector.length_toList, Nat.min_eq_left inside]

/-- The lowest words are worth the number below their range. -/
theorem low_value (a : TlsBn) {n : Nat} (inside : n ≤ bnLimbs) :
    wordsValue (a.low n) = a.value % (2 ^ 32) ^ n := by
  have cut := wordsValue_append (a.w.toList.take n) (a.w.toList.drop n)
  have small := wordsValue_lt (a.low n)
  have isRange : range (a.w.toList.take n) = (2 ^ 32) ^ n := by
    have length := low_length a inside
    unfold TlsBn.low at length
    unfold range
    rw [length]
  unfold TlsBn.low at small ⊢
  unfold TlsBn.value
  rw [List.take_append_drop, isRange] at cut
  rw [isRange] at small
  rw [cut, Nat.add_mul_mod_self_left, Nat.mod_eq_of_lt small]

theorem low_of_lt (a : TlsBn) {n : Nat} (inside : n ≤ bnLimbs) (small : a.value < (2 ^ 32) ^ n) :
    wordsValue (a.low n) = a.value := by
  rw [low_value a inside, Nat.mod_eq_of_lt small]

theorem tlsBnSetU32_value (v : UInt32) : (tlsBnSetU32 v).value = v.toNat := by
  unfold tlsBnSetU32
  by_cases zero : v = 0
  · rw [if_neg (not_not.mpr zero), zero]
    exact padWords_value (Nat.zero_le _)
  · rw [if_pos zero]
    refine (@padWords_value [v] (show 1 ≤ bnLimbs by decide)).trans ?_
    rw [wordsValue_cons, wordsValue_nil, Nat.mul_zero, Nat.add_zero]

/-- The lowest word. -/
theorem word_zero (a : TlsBn) : (a.word 0).toNat = a.value % 2 ^ 32 := by
  have low := low_value a (show 1 ≤ bnLimbs by decide)
  obtain ⟨x, xs, cut⟩ := List.exists_cons_of_length_pos
    (show 0 < a.w.toList.length by rw [Vector.length_toList]; decide)
  unfold TlsBn.low at low
  unfold TlsBn.word
  rw [cut, List.take_succ_cons, List.take_zero, wordsValue_cons, wordsValue_nil] at low
  rw [cut]
  show x.toNat = _
  omega

/-! ### The modulus -/

/-- A modulus that the products take: odd, at least 3, with all its words in use counted. -/
structure IsModulus (m : TlsBn) : Prop where
  inside : m.n ≤ bnLimbs
  small : m.value < (2 ^ 32) ^ m.n
  odd : m.value % 2 = 1
  three : 3 ≤ m.value

/-- The range of a modulus: what lies above its words. -/
def TlsBn.range (m : TlsBn) : Nat := (2 ^ 32) ^ m.n

variable {m : TlsBn}

theorem IsModulus.words (isModulus : IsModulus m) :
    (m.low m.n).length = m.n ∧ wordsValue (m.low m.n) = m.value :=
  ⟨low_length m isModulus.inside, low_of_lt m isModulus.inside isModulus.small⟩

theorem IsModulus.some (isModulus : IsModulus m) : 0 < m.n := by
  have small := isModulus.small
  have three := isModulus.three
  rcases Nat.eq_zero_or_pos m.n with zero | positive
  · rw [zero, Nat.pow_zero] at small
    omega
  · exact positive

theorem IsModulus.inverse (isModulus : IsModulus m) :
    2 ^ 32 ∣ (tlsBnMontN0inv m).toNat * wordsValue (m.low m.n) + 1 := by
  have word := word_zero m
  have odd := isModulus.odd
  have low := @tlsBnMontN0inv_inverse m (by omega)
  obtain ⟨-, value⟩ := isModulus.words
  rw [value]
  have same : (tlsBnMontN0inv m).toNat * m.value + 1 ≡
      (tlsBnMontN0inv m).toNat * (m.word 0).toNat + 1 [MOD 2 ^ 32] := by
    refine Nat.ModEq.add_right 1 (Nat.ModEq.mul_left _ ?_)
    rw [word]
    exact (Nat.mod_modEq _ _).symm
  exact Nat.modEq_zero_iff_dvd.mp (same.trans (Nat.modEq_zero_iff_dvd.mpr low))

/-- The range and an odd number have no common factor. -/
theorem IsModulus.coprime (isModulus : IsModulus m) : Nat.Coprime m.value m.range := by
  have odd : Nat.Coprime m.value 2 := (Nat.coprime_two_right.mpr (Nat.odd_iff.mpr isModulus.odd))
  unfold TlsBn.range
  exact (odd.pow_right 32).pow_right m.n

/-! ### Products -/

/-- A product of two numbers by the code. -/
theorem montMulCtx_value (isModulus : IsModulus m) {a b : TlsBn} (smallA : a.value < m.range)
    (smallB : b.value < m.range) (small : a.value * b.value < m.range * m.value) :
    ProductFits (m.low m.n) (tlsBnMontN0inv m) (a.low m.n) (b.low m.n) ∧
      (montMulCtx (montInit m) a b).value < m.value ∧
      m.range * (montMulCtx (montInit m) a b).value ≡ a.value * b.value [MOD m.value] := by
  obtain ⟨length, value⟩ := isModulus.words
  have ranges : MectovOS.Tls.range (m.low m.n) = m.range := by
    unfold MectovOS.Tls.range TlsBn.range
    rw [length]
  have wordsA := low_of_lt a isModulus.inside smallA
  have wordsB := low_of_lt b isModulus.inside smallB
  obtain ⟨fits, lengthT, less, congruent⟩ := @montWords_value (m.low m.n)
    (a.low m.n) (b.low m.n) (tlsBnMontN0inv m) (by rw [length]; exact isModulus.some)
    ((low_length a isModulus.inside).trans length.symm)
    ((low_length b isModulus.inside).trans length.symm) isModulus.inverse
    (by rw [wordsA, wordsB, ranges, value]; exact small)
  have padded := padWords_value (lengthT.trans length ▸ isModulus.inside)
  have isProduct : (montMulCtx (montInit m) a b).w = padWords
    (montWords (m.low m.n) (tlsBnMontN0inv m) (a.low m.n) (b.low m.n)) := rfl
  rw [← isProduct] at padded
  rw [TlsBn.value, padded]
  rw [value] at less
  rw [ranges, value, wordsA, wordsB] at congruent
  exact ⟨fits, less, congruent⟩

/-- The square of the range that the context holds. -/
theorem montInit_r2 (isModulus : IsModulus m) :
    (montInit m).r2.value = m.range ^ 2 % m.value := by
  obtain ⟨length, value⟩ := isModulus.words
  have some := isModulus.some
  have three := isModulus.three
  have one : (tlsBnSetU32 1).value = 1 := tlsBnSetU32_value 1
  have wide : 1 < (2 ^ 32) ^ m.n := Nat.one_lt_pow (by omega) (by omega)
  have start := low_of_lt (tlsBnSetU32 1) isModulus.inside (by rw [one]; exact wide)
  rw [one] at start
  obtain ⟨lengthR, less, congruent⟩ := doubleSteps_value
    ((low_length (tlsBnSetU32 1) isModulus.inside).trans length.symm)
    (by rw [start, value]; omega) (64 * m.n)
  rw [start, Nat.mul_one, value] at congruent
  rw [value] at less
  have padded := padWords_value (lengthR.trans length ▸ isModulus.inside)
  have isSquare : (montInit m).r2.w = padWords
    ((doubleStep (m.low m.n))^[64 * m.n] ((tlsBnSetU32 1).low m.n)) := rfl
  rw [← isSquare] at padded
  have square : m.range ^ 2 = 2 ^ (64 * m.n) := by
    have exponent : 32 * (m.n * 2) = 64 * m.n := by omega
    unfold TlsBn.range
    rw [← Nat.pow_mul, ← Nat.pow_mul, exponent]
  unfold Nat.ModEq at congruent
  rw [Nat.mod_eq_of_lt less] at congruent
  rw [TlsBn.value, padded, square, congruent]

/-! ### Montgomery form -/

/-- A big integer in Montgomery form of a number. -/
structure Form (m a : TlsBn) (x : Nat) : Prop where
  small : a.value < m.value
  same : a.value ≡ x * m.range [MOD m.value]

theorem IsModulus.below (isModulus : IsModulus m) : m.value < m.range := isModulus.small

/-- A product in Montgomery form. -/
theorem Form.mul (isModulus : IsModulus m) {a b : TlsBn} {x y : Nat} (formA : Form m a x)
    (formB : Form m b y) : Form m (montMulCtx (montInit m) a b) (x * y) := by
  have below := isModulus.below
  have product : a.value * b.value < m.range * m.value := Nat.mul_lt_mul'' (formA.small.trans below)
    formB.small
  obtain ⟨-, less, congruent⟩ := montMulCtx_value isModulus (formA.small.trans below)
    (formB.small.trans below) product
  refine ⟨less, Nat.ModEq.cancel_left_of_coprime isModulus.coprime ?_⟩
  calc m.range * (montMulCtx (montInit m) a b).value
      ≡ a.value * b.value [MOD m.value] := congruent
    _ ≡ (x * m.range) * (y * m.range) [MOD m.value] := formA.same.mul formB.same
    _ = m.range * (x * y * m.range) := by ring

/-- A number is put into Montgomery form by the square of the range. -/
theorem Form.enter (isModulus : IsModulus m) {a : TlsBn} (small : a.value < m.range) :
    Form m (montMulCtx (montInit m) a (montInit m).r2) a.value := by
  have below := isModulus.below
  have square := montInit_r2 isModulus
  have positive : 0 < m.value := by
    have three := isModulus.three
    omega
  have least : (montInit m).r2.value < m.value := by
    rw [square]
    exact Nat.mod_lt _ positive
  have product : a.value * (montInit m).r2.value < m.range * m.value :=
    Nat.mul_lt_mul'' small least
  obtain ⟨-, less, congruent⟩ := montMulCtx_value isModulus small (least.trans below) product
  refine ⟨less, Nat.ModEq.cancel_left_of_coprime isModulus.coprime ?_⟩
  calc m.range * (montMulCtx (montInit m) a (montInit m).r2).value
      ≡ a.value * (montInit m).r2.value [MOD m.value] := congruent
    _ ≡ a.value * m.range ^ 2 [MOD m.value] := by
      rw [square]
      exact (Nat.mod_modEq _ _).mul_left _
    _ = m.range * (a.value * m.range) := by ring

/-- And taken out of it by one. -/
theorem Form.leave (isModulus : IsModulus m) {a : TlsBn} {x : Nat} (form : Form m a x) :
    (montMulCtx (montInit m) a (tlsBnSetU32 1)).value = x % m.value := by
  have below := isModulus.below
  have three := isModulus.three
  have one : (tlsBnSetU32 1).value = 1 := tlsBnSetU32_value 1
  have product : a.value * (tlsBnSetU32 1).value < m.range * m.value := by
    rw [one]
    exact Nat.mul_lt_mul'' (form.small.trans below) (by omega)
  obtain ⟨-, less, congruent⟩ := montMulCtx_value isModulus (form.small.trans below)
    (by rw [one]; omega) product
  have same : (montMulCtx (montInit m) a (tlsBnSetU32 1)).value ≡ x [MOD m.value] := by
    refine Nat.ModEq.cancel_left_of_coprime isModulus.coprime ?_
    calc m.range * (montMulCtx (montInit m) a (tlsBnSetU32 1)).value
        ≡ a.value * (tlsBnSetU32 1).value [MOD m.value] := congruent
      _ ≡ x * m.range [MOD m.value] := by
        rw [one, Nat.mul_one]
        exact form.same
      _ = m.range * x := Nat.mul_comm _ _
  exact (Nat.mod_eq_of_lt less).symm.trans same

/-- The bits of the exponent, one after another. -/
theorem Form.ladder (isModulus : IsModulus m) {bm : TlsBn} {base : Nat} (formBase : Form m bm base)
    (bits : List Bool) {acc : TlsBn} {x : Nat} (form : Form m acc x) :
    Form m (bits.foldl (modexpStep (montInit m) bm) acc) (bits.foldl
      (fun power bit => if bit then power * power * base else power * power) x) := by
  induction bits generalizing acc x with
  | nil => exact form
  | cons bit bits induction =>
    rw [List.foldl_cons, List.foldl_cons]
    refine induction ?_
    have squared := Form.mul isModulus form form
    unfold modexpStep
    cases bit with
    | false => exact squared
    | true => exact Form.mul isModulus squared formBase

/-! ### The bits of the exponent -/

/-- The number of a text, the highest byte first. -/
def beNumber (be : Bytes) : Nat := be.foldl (fun number byte => number * 256 + byte.toNat) 0

theorem beNumber_append (be behind : Bytes) :
    beNumber (be ++ behind) = beNumber be * 256 ^ behind.length + beNumber behind := by
  have grown : ∀ number, behind.foldl (fun number byte => number * 256 + byte.toNat) number =
      number * 256 ^ behind.length + beNumber behind := by
    unfold beNumber
    induction behind with
    | nil =>
      intro number
      rw [List.foldl_nil, List.foldl_nil, List.length_nil, Nat.pow_zero, Nat.mul_one, Nat.add_zero]
    | cons byte behind induction =>
      intro number
      rw [List.foldl_cons, List.foldl_cons, induction, induction (0 * 256 + byte.toNat),
        List.length_cons, Nat.pow_succ]
      ring
  unfold beNumber
  rw [List.foldl_append]
  exact grown _

/-- A bit of a byte, the highest first. -/
theorem beBit_byte {be : Bytes} {len k : Nat} (inside : k < len * 8 % 2 ^ 32) :
    (beBit be len k).toNat = (be.getD (k / 8) 0).toNat / 2 ^ (7 - k % 8) % 2 := by
  have shift : (UInt8.ofNat (7 - k % 8)).toNat = 7 - k % 8 := by
    rw [UInt8.toNat_ofNat']
    omega
  have bit : ((be.getD (k / 8) 0 >>> UInt8.ofNat (7 - k % 8)) &&& 1).toNat =
      (be.getD (k / 8) 0).toNat / 2 ^ (7 - k % 8) % 2 := by
    rw [UInt8.toNat_and, UInt8.toNat_shiftRight, shift, Nat.mod_eq_of_lt (by omega),
      Nat.shiftRight_eq_div_pow]
    exact Nat.and_one_is_mod _
  unfold beBit
  rw [if_neg (by omega), ← bit]
  by_cases zero : (be.getD (k / 8) 0 >>> UInt8.ofNat (7 - k % 8)) &&& 1 = 0
  · rw [zero]
    rfl
  · have one : ((be.getD (k / 8) 0 >>> UInt8.ofNat (7 - k % 8)) &&& 1).toNat = 1 := by
      have nonzero : ((be.getD (k / 8) 0 >>> UInt8.ofNat (7 - k % 8)) &&& 1).toNat ≠ 0 :=
        fun isZero => zero (UInt8.toNat_inj.mp isZero)
      rw [bit] at nonzero ⊢
      omega
    rw [one, decide_eq_true zero]
    rfl

/-- The eight bits of a byte behind a number, the highest first. -/
theorem byte_bits (number : Nat) {byte : Nat} (small : byte < 256) :
    2 * (2 * (2 * (2 * (2 * (2 * (2 * (2 * number + byte / 2 ^ 7 % 2) + byte / 2 ^ 6 % 2) +
      byte / 2 ^ 5 % 2) + byte / 2 ^ 4 % 2) + byte / 2 ^ 3 % 2) + byte / 2 ^ 2 % 2) +
      byte / 2 ^ 1 % 2) + byte / 2 ^ 0 % 2 = number * 256 + byte := by
  have first : 2 * number + byte / 2 ^ 7 % 2 = 2 * number + byte / 2 ^ 7 := by omega
  have next : ∀ front place, 2 * (front + byte / 2 ^ (place + 1)) + byte / 2 ^ place % 2 =
      2 * front + byte / 2 ^ place := by
    intro front place
    rw [Nat.pow_succ, ← Nat.div_div_eq_div_mul]
    omega
  rw [first, next _ 6, next _ 5, next _ 4, next _ 3, next _ 2, next _ 1, next _ 0, Nat.pow_zero,
    Nat.div_one]
  ring

/-- The bits that the loop reads are those of the bytes it reaches. -/
theorem beBits_number {be : Bytes} {len : Nat} (count : Nat) (inside : count * 8 ≤ len * 8 % 2 ^ 32)
    (short : count ≤ be.length) :
    ((List.range (count * 8)).map (beBit be len)).foldl
      (fun number bit => 2 * number + bit.toNat) 0 = beNumber (be.take count) := by
  induction count with
  | zero => rfl
  | succ count induction =>
    have byte : ∀ place < 8, (beBit be len (count * 8 + place)).toNat =
        (be.getD count 0).toNat / 2 ^ (7 - place) % 2 := by
      intro place few
      rw [beBit_byte (by omega), show (count * 8 + place) / 8 = count by omega,
        show (count * 8 + place) % 8 = place by omega]
    have low := UInt8.toNat_lt (be.getD count 0)
    have single : beNumber [be.getD count 0] = (be.getD count 0).toNat := by
      show 0 * 256 + _ = _
      omega
    have last : be.take (count + 1) = be.take count ++ [be.getD count 0] := by
      rw [List.take_add_one, List.getElem?_eq_getElem (by omega), List.getD_eq_getElem _ _ (by omega)]
      rfl
    rw [last, beNumber_append, single, List.length_singleton, ← induction (by omega) (by omega),
      show (count + 1) * 8 = count * 8 + 1 + 1 + 1 + 1 + 1 + 1 + 1 + 1 by omega]
    simp only [List.range_succ, List.map_append, List.foldl_append, List.map_cons, List.map_nil,
      List.foldl_cons, List.foldl_nil, Nat.add_assoc, Nat.reduceAdd]
    have first : (beBit be len (count * 8)).toNat = (be.getD count 0).toNat / 2 ^ 7 % 2 :=
      byte 0 (by omega)
    rw [first, byte 1 (by omega), byte 2 (by omega), byte 3 (by omega), byte 4 (by omega),
      byte 5 (by omega), byte 6 (by omega), byte 7 (by omega)]
    exact byte_bits _ low

/-! ### Powers -/

/-- The loop reaches all bytes, or those behind the last multiple of 2^29. -/
theorem tlsBnModexp_value (isModulus : IsModulus m) {base : TlsBn} (small : base.value < m.range)
    (exp : Bytes) : (tlsBnModexp base exp m).value =
      base.value ^ beNumber (exp.take (exp.length % 2 ^ 29)) % m.value := by
  have some := isModulus.some
  have below := isModulus.below
  have three := isModulus.three
  have one : (tlsBnSetU32 1).value = 1 := tlsBnSetU32_value 1
  have formBase := Form.enter isModulus small
  have formOne := @Form.enter m isModulus (tlsBnSetU32 1) (by rw [one]; omega)
  have reached : exp.length * 8 % 2 ^ 32 = exp.length % 2 ^ 29 * 8 := by omega
  have formPower := Form.ladder isModulus formBase
    ((List.range (exp.length % 2 ^ 29 * 8)).map (beBit exp exp.length)) formOne
  rw [one, Montgomery.ladder, beBits_number _ reached.ge (Nat.mod_le _ _)] at formPower
  have power := Form.leave isModulus formPower
  have nonzero : ¬ (m.n = 0 ∨ tlsBnIsZero m = true) := by
    unfold tlsBnIsZero
    rw [decide_eq_true_iff]
    omega
  unfold tlsBnModexp
  rw [if_neg nonzero, reached, ← power, List.foldl_map]

/-- What the Montgomery context of a modulus promises: the inverse of the lowest word, the square of
the range, and products that lie below the modulus with every sum within its word. -/
structure MontRight (m : TlsBn) : Prop where
  n0inv : 2 ^ 32 ∣ (tlsBnMontN0inv m).toNat * m.value + 1
  r2 : (montInit m).r2.value = 2 ^ (64 * m.n) % m.value
  products : ∀ a b : TlsBn, a.value < m.range → b.value < m.range →
    a.value * b.value < m.range * m.value →
      ProductFits (m.low m.n) (tlsBnMontN0inv m) (a.low m.n) (b.low m.n) ∧
        (montMulCtx (montInit m) a b).value < m.value ∧
        m.range * (montMulCtx (montInit m) a b).value ≡ a.value * b.value [MOD m.value]

theorem montRight (isModulus : IsModulus m) : MontRight m where
  n0inv := by
    have inverse := isModulus.inverse
    rwa [isModulus.words.2] at inverse
  r2 := by
    have exponent : 32 * (m.n * 2) = 64 * m.n := by omega
    rw [montInit_r2 isModulus]
    unfold TlsBn.range
    rw [← Nat.pow_mul, ← Nat.pow_mul, exponent]
  products := fun _ _ smallA smallB small => montMulCtx_value isModulus smallA smallB small

/-- The products are right for every modulus; the power is right where the exponent has less than
2^29 bytes, or the bytes that the loop reaches raise to the same. -/
theorem tlsBnModexp_iff {base : TlsBn} {exp : Bytes} (isModulus : IsModulus m)
    (small : base.value < m.range) :
    (MontRight m ∧ (tlsBnModexp base exp m).value = base.value ^ beNumber exp % m.value) ↔
      exp.length < 2 ^ 29 ∨ base.value ^ beNumber (exp.take (exp.length % 2 ^ 29)) ≡
        base.value ^ beNumber exp [MOD m.value] := by
  rw [tlsBnModexp_value isModulus small]
  constructor
  · rintro ⟨-, equal⟩
    exact Or.inr equal
  · rintro (short | equal)
    · rw [Nat.mod_eq_of_lt short, List.take_length]
      exact ⟨montRight isModulus, rfl⟩
    · exact ⟨montRight isModulus, equal⟩

theorem isModulus_word {v : UInt32} (odd : v.toNat % 2 = 1) (three : 3 ≤ v.toNat) :
    IsModulus (tlsBnSetU32 v) := by
  have value := tlsBnSetU32_value v
  have low := UInt32.toNat_lt v
  have nonzero : v ≠ 0 := by
    rintro rfl
    exact absurd odd (by decide)
  have count : (tlsBnSetU32 v).n = 1 := by
    unfold tlsBnSetU32
    rw [if_pos nonzero]
  refine ⟨?_, ?_, ?_, ?_⟩
  · rw [count]
    decide
  · rw [count, value, Nat.pow_one]
    exact low
  · rw [value]
    exact odd
  · rw [value]
    exact three

/-- 3^5 modulo 7. -/
theorem tlsBnModexp_seven :
    MontRight (tlsBnSetU32 7) ∧
      (tlsBnModexp (tlsBnSetU32 3) [5] (tlsBnSetU32 7)).value =
        (tlsBnSetU32 3).value ^ beNumber [5] % (tlsBnSetU32 7).value :=
  (tlsBnModexp_iff (isModulus_word (by decide) (by decide))
    (by rw [tlsBnSetU32_value]; decide)).mpr (Or.inl (by decide))

theorem beNumber_zeros (count : Nat) : beNumber (List.replicate count 0) = 0 := by
  induction count with
  | zero => rfl
  | succ count induction =>
    rw [List.replicate_succ']
    rw [beNumber_append, induction]
    rfl

/-- An exponent of 2^29 bytes, all zero but the last, raises to nothing. -/
theorem tlsBnModexp_long :
    ¬ ∀ (m base : TlsBn) (exp : Bytes), IsModulus m → base.value < m.range →
      MontRight m ∧ (tlsBnModexp base exp m).value = base.value ^ beNumber exp % m.value := by
  intro all
  have isModulus : IsModulus (tlsBnSetU32 3) := isModulus_word (by decide) (by decide)
  have two : (tlsBnSetU32 2).value = 2 := tlsBnSetU32_value 2
  have three : (tlsBnSetU32 3).value = 3 := tlsBnSetU32_value 3
  have small : (tlsBnSetU32 2).value < (tlsBnSetU32 3).range := by
    rw [two]
    exact Nat.lt_trans (by rw [three]; omega) isModulus.below
  obtain ⟨count, isCount⟩ : ∃ count, count + 1 = 2 ^ 29 := ⟨2 ^ 29 - 1, by omega⟩
  have length : (List.replicate count (0 : UInt8) ++ [1]).length = 2 ^ 29 := by
    rw [List.length_append, List.length_replicate, List.length_singleton, isCount]
  have number : beNumber (List.replicate count 0 ++ [1]) = 1 := by
    rw [beNumber_append, beNumber_zeros]
    rfl
  have claimed := (all _ _ (List.replicate count 0 ++ [1]) isModulus small).2
  rw [tlsBnModexp_value isModulus small, length, Nat.mod_self, List.take_zero, number, two,
    three] at claimed
  exact absurd claimed (by decide)

end MectovOS.Tls
