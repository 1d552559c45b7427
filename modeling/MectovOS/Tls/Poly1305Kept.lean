/-
This file proves that Poly1305 is the polynomial of RFC 8439, however the message
is cut into pieces: what a block does to the accumulator, what all of them do,
and what the tag is worth. Every sum of the code fits its word.
-/

import MectovOS.Tls.Poly1305Words

namespace MectovOS.Tls

open LittleEndian

/-! ### The polynomial -/

/-- The first half of the key with the bits cleared that RFC 8439 clears. -/
def clamp (r : Nat) : Nat := r &&& 0x0ffffffc0ffffffc0ffffffc0fffffff

/-- The number of a block: its bytes, and a one behind them. -/
def blockNumber (msg : Bytes) (index : Nat) : Nat :=
  number ((msg.drop (index * 16)).take 16 ++ [1])

/-- The polynomial of a message at `r`, below the prime. -/
def polynomial (r : Nat) (msg : Bytes) : Nat :=
  (List.range ((msg.length + 15) / 16)).foldl
    (fun a index => r * (a + blockNumber msg index) % prime1305) 0

/-- The Poly1305 of RFC 8439: the polynomial and the second half of the key. -/
def poly1305Number (key msg : Bytes) : Nat :=
  (polynomial (clamp (number (key.take 16))) msg + number ((key.drop 16).take 16)) % 2 ^ 128

/-! ### The key -/

/-- The bits of a word cut out of a number are bits of the number. -/
theorem cut_limb (x : Nat) {place width whole : Nat} (inside : place + width ≤ whole) :
    x % 2 ^ whole / 2 ^ place % 2 ^ width = x / 2 ^ place % 2 ^ width := by
  have split : 2 ^ whole = 2 ^ place * 2 ^ (whole - place) := by
    rw [← Nat.pow_add, Nat.add_sub_cancel' (by omega)]
  rw [split, Nat.mod_mul_right_div_self]
  exact Nat.mod_mod_of_dvd _ (Nat.pow_dvd_pow 2 (by omega))

/-- A mask takes only the bits it has. -/
theorem and_low (x : Nat) {mask width : Nat} (small : mask < 2 ^ width) :
    x &&& mask = (x % 2 ^ width) &&& mask := by
  have below : x &&& mask < 2 ^ width := Nat.lt_of_le_of_lt Nat.and_le_right small
  have cut := @Nat.and_mod_two_pow x mask width
  rwa [Nat.mod_eq_of_lt below, Nat.mod_eq_of_lt small] at cut

/-- A limb of `r` is cut out of the clamped number. -/
theorem r_limb (key : Bytes) {offset width : Nat} {shift mask : UInt32}
    (word : shift.toNat + width ≤ 32) (wide : 0 < width) (inside : 8 * offset + shift.toNat + width ≤ 128)
    (small : mask.toNat < 2 ^ width)
    (isMask : mask.toNat =
      0x0ffffffc0ffffffc0ffffffc0fffffff / 2 ^ (8 * offset + shift.toNat) % 2 ^ width) :
    ((le32 key offset >>> shift) &&& mask).toNat =
      clamp (number (key.take 16)) / 2 ^ (8 * offset + shift.toNat) % 2 ^ width := by
  have bits : 256 ^ offset = 2 ^ (8 * offset) := by rw [Nat.pow_mul]
  have half : (256 : Nat) ^ 16 = 2 ^ 128 := by decide
  unfold clamp
  rw [UInt32.toNat_and, and_low _ small, shr_toNat _ _ (by omega), le32_toNat, cut_limb _ word, bits,
    Nat.div_div_eq_div_mul, ← Nat.pow_add, Nat.and_div_two_pow, Nat.and_mod_two_pow, number_take,
    half, cut_limb _ inside, ← isMask]

/-- `r` is clamped limb by limb. -/
theorem poly1305Init_r (key : Bytes) :
    Tight (poly1305Init key).r ∧
      (poly1305Init key).r.value = clamp (number (key.take 16)) := by
  have small : clamp (number (key.take 16)) < 2 ^ 124 :=
    Nat.lt_of_le_of_lt Nat.and_le_right (by decide)
  have l0 : (poly1305Init key).r.l0.toNat = clamp (number (key.take 16)) / 2 ^ 0 % 2 ^ 26 := by
    have limb := @r_limb key 0 26 0 0x3ffffff (by decide) (by decide) (by decide) (by decide)
      (by decide)
    rwa [UInt32.shiftRight_zero] at limb
  have l1 : (poly1305Init key).r.l1.toNat = clamp (number (key.take 16)) / 2 ^ 26 % 2 ^ 26 :=
    r_limb key (by decide) (by decide) (by decide) (by decide) (by decide)
  have l2 : (poly1305Init key).r.l2.toNat = clamp (number (key.take 16)) / 2 ^ 52 % 2 ^ 26 :=
    r_limb key (by decide) (by decide) (by decide) (by decide) (by decide)
  have l3 : (poly1305Init key).r.l3.toNat = clamp (number (key.take 16)) / 2 ^ 78 % 2 ^ 26 :=
    r_limb key (by decide) (by decide) (by decide) (by decide) (by decide)
  have l4 : (poly1305Init key).r.l4.toNat = clamp (number (key.take 16)) / 2 ^ 104 % 2 ^ 24 :=
    r_limb key (by decide) (by decide) (by decide) (by decide) (by decide)
  generalize clamp (number (key.take 16)) = r at *
  refine ⟨⟨by omega, by omega, by omega, by omega, by omega⟩, ?_⟩
  unfold Limbs.value
  omega

/-! ### Blocks -/

/-- Nothing leaves its word while a block is taken. -/
structure BlockFits (r : Limbs) (hibit : UInt32) (h : Limbs) (m : Bytes) : Prop where
  sums : AddFits h m hibit
  columns : ProductsFit (addBlock h m hibit) r
  carries : CarriesFit (products (addBlock h m hibit) r)

theorem poly1305Block_fits {r h : Limbs} (tight : Tight r) (loose : Loose h) {m : Bytes}
    {hibit : UInt32} (isHibit : IsHibit hibit) (short : m.length = 16) : BlockFits r hibit h m := by
  obtain ⟨added, -⟩ := addBlock_value loose isHibit short
  obtain ⟨bounded, -⟩ := products_value added tight
  exact ⟨addBlock_fits loose m isHibit, products_fit added tight, (carryProducts_toNat bounded).1⟩

/-- A block is one step of the polynomial. -/
theorem poly1305Block_value {r h : Limbs} (tight : Tight r) (loose : Loose h) {m : Bytes}
    {hibit : UInt32} (isHibit : IsHibit hibit) (short : m.length = 16) :
    Loose (poly1305Block r hibit h m) ∧
      (poly1305Block r hibit h m).value ≡
        r.value * (h.value + (number m + 2 ^ 104 * hibit.toNat)) [MOD prime1305] := by
  obtain ⟨added, sum⟩ := addBlock_value loose isHibit short
  obtain ⟨bounded, product⟩ := products_value added tight
  obtain ⟨again, carried⟩ := limbsOf_value bounded
  refine ⟨again, ?_⟩
  rw [← sum, Nat.mul_comm, ← product, ← carried]
  unfold Nat.ModEq
  rw [Nat.add_mul_mod_self_left, Nat.add_mul_mod_self_left]
  rfl

/-- The accumulator after some whole blocks. -/
theorem blocks_value {r : Limbs} (tight : Tight r) (text : Bytes) {count : Nat}
    (inside : count ≤ text.length / 16) :
    Loose ((List.range count).foldl (fun h index =>
        poly1305Block r 0x1000000 h ((text.drop (index * 16)).take 16)) ⟨0, 0, 0, 0, 0⟩) ∧
      ((List.range count).foldl (fun h index =>
        poly1305Block r 0x1000000 h ((text.drop (index * 16)).take 16)) ⟨0, 0, 0, 0, 0⟩).value ≡
        (List.range count).foldl (fun a index =>
          r.value * (a + blockNumber text index) % prime1305) 0 [MOD prime1305] := by
  induction count with
  | zero => exact ⟨loose_zero, rfl⟩
  | succ count induction =>
    obtain ⟨loose, same⟩ := induction (by omega)
    have short : ((text.drop (count * 16)).take 16).length = 16 := by
      rw [List.length_take, List.length_drop]
      omega
    have step := poly1305Block_value tight loose (Or.inr rfl) short
    have block : number ((text.drop (count * 16)).take 16) + 2 ^ 104 * 0x1000000 =
        blockNumber text count := by
      unfold blockNumber
      rw [number_append, short]
      rfl
    rw [List.range_succ, List.foldl_append, List.foldl_append]
    refine ⟨step.1, step.2.trans ?_⟩
    show _ * (_ + (_ + 2 ^ 104 * 0x1000000)) ≡ _ % prime1305 [MOD prime1305]
    rw [block]
    exact ((same.add_right _).mul_left _).trans (Nat.mod_modEq _ _).symm

/-- The accumulator after any whole blocks is loose. -/
theorem whole_loose {r : Limbs} (tight : Tight r) (text : Bytes) :
    Loose (Absorb.whole 16 (poly1305Block r 0x1000000) ⟨0, 0, 0, 0, 0⟩ text) := by
  rw [Absorb.whole_foldl]
  exact (blocks_value tight text le_rfl).1

/-- The last block as a number. -/
theorem lastBlock_number {buf : Bytes} (short : buf.length < 16) :
    (lastBlock buf).length = 16 ∧ number (lastBlock buf) = number (buf ++ [1]) := by
  unfold lastBlock
  constructor
  · rw [List.length_append, List.length_cons, List.length_replicate]
    omega
  · rw [number_append, number_append, number_cons, number_cons, number_zeros, number_nil]

/-- The context after all pieces. -/
theorem update_pieces_ctx (c : Poly1305Ctx) (pieces : List Bytes) :
    pieces.foldl poly1305Update c =
      { c with
        h := (pieces.foldl (Absorb.update 16 (poly1305Block c.r 0x1000000)) (c.h, c.buf)).1
        buf := (pieces.foldl (Absorb.update 16 (poly1305Block c.r 0x1000000))
          (c.h, c.buf)).2 } := by
  induction pieces generalizing c with
  | nil => rfl
  | cons piece pieces induction =>
    rw [List.foldl_cons, induction]
    rfl

/-- What the updates leave: the whole blocks taken and the rest kept. -/
theorem update_pieces_init (key : Bytes) (pieces : List Bytes) :
    pieces.foldl poly1305Update (poly1305Init key) =
      { poly1305Init key with
        h := Absorb.whole 16 (poly1305Block (poly1305Init key).r 0x1000000) ⟨0, 0, 0, 0, 0⟩
          pieces.flatten
        buf := Absorb.rest 16 pieces.flatten } := by
  have start : ((poly1305Init key).h, (poly1305Init key).buf) = (⟨0, 0, 0, 0, 0⟩, []) := rfl
  rw [update_pieces_ctx, start, Absorb.update_pieces (by decide)]

/-- The accumulator with the last block is the polynomial. -/
theorem lastLimbs_value {r : Limbs} (tight : Tight r) (pad : Words) (text : Bytes) :
    let c : Poly1305Ctx :=
      ⟨r, Absorb.whole 16 (poly1305Block r 0x1000000) ⟨0, 0, 0, 0, 0⟩ text, pad,
        Absorb.rest 16 text⟩
    Loose (lastLimbs c) ∧ (lastLimbs c).value ≡ polynomial r.value text [MOD prime1305] := by
  intro c
  have buffered : c.buf.length = text.length % 16 := Absorb.rest_length text
  obtain ⟨loose, same⟩ := blocks_value tight text le_rfl
  rw [← Absorb.whole_foldl] at loose same
  unfold lastLimbs polynomial
  by_cases empty : c.buf = []
  · rw [empty, List.length_nil] at buffered
    rw [if_pos empty, show (text.length + 15) / 16 = text.length / 16 by omega]
    exact ⟨loose, same⟩
  · have some := List.length_pos_of_ne_nil empty
    obtain ⟨full, value⟩ := @lastBlock_number c.buf (by omega)
    have step := poly1305Block_value tight loose (Or.inl rfl) full
    have block : number (lastBlock c.buf) = blockNumber text (text.length / 16) := by
      have all : c.buf.take 16 = c.buf := List.take_of_length_le (by omega)
      rw [value, ← all]
      rfl
    rw [if_neg empty, show (text.length + 15) / 16 = text.length / 16 + 1 by omega,
      List.range_succ, List.foldl_append]
    refine ⟨step.1, step.2.trans ?_⟩
    show _ * (_ + _) ≡ _ % prime1305 [MOD prime1305]
    rw [block]
    exact ((same.add_right _).mul_left _).trans (Nat.mod_modEq _ _).symm

/-! ### The tag -/

/-- The sums of the last carries, one after another. -/
def carrySum2 (h : Limbs) : Nat := h.l2.toNat + h.l1.toNat / 2 ^ 26
def carrySum3 (h : Limbs) : Nat := h.l3.toNat + carrySum2 h / 2 ^ 26
def carrySum4 (h : Limbs) : Nat := h.l4.toNat + carrySum3 h / 2 ^ 26
def carrySum0 (h : Limbs) : Nat := h.l0.toNat + carrySum4 h / 2 ^ 26 * 5
def carrySum1 (h : Limbs) : Nat := h.l1.toNat % 2 ^ 26 + carrySum0 h / 2 ^ 26

/-- The sums of the comparison with the prime, one after another. -/
def lessSum0 (h : Limbs) : Nat := h.l0.toNat + 5
def lessSum1 (h : Limbs) : Nat := h.l1.toNat + lessSum0 h / 2 ^ 26
def lessSum2 (h : Limbs) : Nat := h.l2.toNat + lessSum1 h / 2 ^ 26
def lessSum3 (h : Limbs) : Nat := h.l3.toNat + lessSum2 h / 2 ^ 26
def lessSum4 (h : Limbs) : Nat := h.l4.toNat + lessSum3 h / 2 ^ 26

/-- The sums of `poly1305_final` fit their words. -/
structure FinalFits (h : Limbs) : Prop where
  h2 : carrySum2 h < 2 ^ 32
  h3 : carrySum3 h < 2 ^ 32
  h4 : carrySum4 h < 2 ^ 32
  h0 : carrySum0 h < 2 ^ 32
  h1 : carrySum1 h < 2 ^ 32
  g0 : lessSum0 (carryLimbs h) < 2 ^ 32
  g1 : lessSum1 (carryLimbs h) < 2 ^ 32
  g2 : lessSum2 (carryLimbs h) < 2 ^ 32
  g3 : lessSum3 (carryLimbs h) < 2 ^ 32
  g4 : lessSum4 (carryLimbs h) < 2 ^ 32

/-- A limb that takes a carry. -/
theorem addCarry_toNat {x y : UInt32} (low : x.toNat < 2 ^ 32 - 2 ^ 6) :
    (x + (y >>> 26)).toNat = x.toNat + y.toNat / 2 ^ 26 := by
  have carry : (y >>> 26).toNat = y.toNat / 2 ^ 26 := shr_toNat _ 26 (by decide)
  have small := UInt32.toNat_lt y
  rw [add_toNat (by omega), carry]

/-- The accumulator with its carries taken. -/
theorem carryLimbs_value {h : Limbs} (loose : Loose h) :
    Tight (carryLimbs h) ∧ (carryLimbs h).value ≡ h.value [MOD prime1305] ∧
      carrySum2 h < 2 ^ 27 ∧ carrySum3 h < 2 ^ 27 ∧ carrySum4 h < 2 ^ 27 ∧
        carrySum0 h < 2 ^ 27 ∧ carrySum1 h < 2 ^ 27 := by
  obtain ⟨l0, l1, l2, l3, l4⟩ := loose
  have n2 : (h.l2 + (h.l1 >>> 26)).toNat = carrySum2 h := addCarry_toNat (by omega)
  have s2 : carrySum2 h = h.l2.toNat + h.l1.toNat / 2 ^ 26 := rfl
  have n3 : (h.l3 + ((h.l2 + (h.l1 >>> 26)) >>> 26)).toNat = carrySum3 h := by
    rw [addCarry_toNat (by omega), n2]
    rfl
  have s3 : carrySum3 h = h.l3.toNat + carrySum2 h / 2 ^ 26 := rfl
  have n4 : (h.l4 + ((h.l3 + ((h.l2 + (h.l1 >>> 26)) >>> 26)) >>> 26)).toNat = carrySum4 h := by
    rw [addCarry_toNat (by omega), n3]
    rfl
  have s4 : carrySum4 h = h.l4.toNat + carrySum3 h / 2 ^ 26 := rfl
  have top := shr_toNat (h.l4 + ((h.l3 + ((h.l2 + (h.l1 >>> 26)) >>> 26)) >>> 26)) 26 (by decide)
  rw [n4] at top
  have top' : ((h.l4 + ((h.l3 + ((h.l2 + (h.l1 >>> 26)) >>> 26)) >>> 26)) >>> 26).toNat =
      carrySum4 h / 2 ^ 26 := top
  have times := @five_toNat
    ((h.l4 + ((h.l3 + ((h.l2 + (h.l1 >>> 26)) >>> 26)) >>> 26)) >>> 26) (by omega)
  have s0 : carrySum0 h = h.l0.toNat + carrySum4 h / 2 ^ 26 * 5 := rfl
  have n0 : (h.l0 + ((h.l4 + ((h.l3 + ((h.l2 + (h.l1 >>> 26)) >>> 26)) >>> 26)) >>> 26) * 5).toNat =
      carrySum0 h := by
    rw [add_toNat (by omega), times, top', s0]
  have s1 : carrySum1 h = h.l1.toNat % 2 ^ 26 + carrySum0 h / 2 ^ 26 := rfl
  have n1 : (carryLimbs h).l1.toNat = carrySum1 h := by
    have low := low26_toNat h.l1
    refine (addCarry_toNat (by omega)).trans ?_
    rw [n0, low, s1]
  have k0 : (carryLimbs h).l0.toNat = carrySum0 h % 2 ^ 26 := by rw [← n0, ← low26_toNat]; rfl
  have k2 : (carryLimbs h).l2.toNat = carrySum2 h % 2 ^ 26 := by rw [← n2, ← low26_toNat]; rfl
  have k3 : (carryLimbs h).l3.toNat = carrySum3 h % 2 ^ 26 := by rw [← n3, ← low26_toNat]; rfl
  have k4 : (carryLimbs h).l4.toNat = carrySum4 h % 2 ^ 26 := by rw [← n4, ← low26_toNat]; rfl
  -- a carry out of the top comes all the way from the second limb, and leaves it small
  refine ⟨⟨by omega, by omega, by omega, by omega, by omega⟩, ?_, by omega, by omega, by omega,
    by omega, by omega⟩
  have exactly : (carryLimbs h).value + prime1305 * (carrySum4 h / 2 ^ 26) = h.value := by
    unfold Limbs.value
    rw [show prime1305 = 1361129467683753853853498429727072845819 from rfl]
    omega
  rw [← exactly]
  unfold Nat.ModEq
  rw [Nat.add_mul_mod_self_left]

/-- The limbs less the prime, as numbers. -/
theorem lessPrime_toNat {h : Limbs} (tight : Tight h) :
    (lessPrime h).l0.toNat = lessSum0 h % 2 ^ 26 ∧ (lessPrime h).l1.toNat = lessSum1 h % 2 ^ 26 ∧
      (lessPrime h).l2.toNat = lessSum2 h % 2 ^ 26 ∧
      (lessPrime h).l3.toNat = lessSum3 h % 2 ^ 26 ∧
      (lessPrime h).l4.toNat = (lessSum4 h + (2 ^ 32 - 2 ^ 26)) % 2 ^ 32 := by
  obtain ⟨l0, l1, l2, l3, l4⟩ := tight
  have n0 : (h.l0 + 5).toNat = lessSum0 h := add_toNat (show h.l0.toNat + 5 < 2 ^ 32 by omega)
  have n1 : (h.l1 + ((h.l0 + 5) >>> 26)).toNat = lessSum1 h := by
    rw [addCarry_toNat (by omega), n0]
    rfl
  have n2 : (h.l2 + ((h.l1 + ((h.l0 + 5) >>> 26)) >>> 26)).toNat = lessSum2 h := by
    rw [addCarry_toNat (by omega), n1]
    rfl
  have n3 : (h.l3 + ((h.l2 + ((h.l1 + ((h.l0 + 5) >>> 26)) >>> 26)) >>> 26)).toNat =
      lessSum3 h := by
    rw [addCarry_toNat (by omega), n2]
    rfl
  refine ⟨?_, ?_, ?_, ?_, ?_⟩
  · rw [← n0, ← low26_toNat]
    rfl
  · rw [← n1, ← low26_toNat]
    rfl
  · rw [← n2, ← low26_toNat]
    rfl
  · rw [← n3, ← low26_toNat]
    rfl
  · have top : (h.l4 + ((h.l3 + ((h.l2 + ((h.l1 + ((h.l0 + 5) >>> 26)) >>> 26)) >>> 26)) >>>
        26)).toNat = lessSum4 h := by
      rw [addCarry_toNat (by omega), n3]
      rfl
    refine (UInt32.toNat_sub _ _).trans ?_
    rw [top, Nat.add_comm]
    rfl

theorem lessSums_lt {h : Limbs} (tight : Tight h) :
    lessSum0 h < 2 ^ 27 ∧ lessSum1 h < 2 ^ 27 ∧ lessSum2 h < 2 ^ 27 ∧ lessSum3 h < 2 ^ 27 ∧
      lessSum4 h ≤ 2 ^ 26 := by
  obtain ⟨l0, l1, l2, l3, l4⟩ := tight
  unfold lessSum4 lessSum3 lessSum2 lessSum1 lessSum0
  omega

theorem select_first (x y : UInt32) : (x &&& ~~~(0 : UInt32)) ||| (y &&& 0) = x := by
  simp

theorem select_second (x y : UInt32) :
    (x &&& ~~~(0xffffffff : UInt32)) ||| (y &&& 0xffffffff) = y := by
  have all : (0xffffffff : UInt32) = -1 := by decide
  simp [all]

/-- The choice between the two: the representative below the prime. -/
theorem selectLimbs_value {h : Limbs} (tight : Tight h) :
    Tight (selectLimbs h (lessPrime h)) ∧
      (selectLimbs h (lessPrime h)).value = h.value % prime1305 := by
  obtain ⟨g0, g1, g2, g3, g4⟩ := lessPrime_toNat tight
  obtain ⟨s0, s1, s2, s3, s4⟩ := lessSums_lt tight
  have sign : ((lessPrime h).l4 >>> 31).toNat = (lessPrime h).l4.toNat / 2 ^ 31 :=
    shr_toNat _ 31 (by decide)
  have compare : h.value + 5 = lessSum0 h % 2 ^ 26 + 2 ^ 26 * (lessSum1 h % 2 ^ 26) +
      2 ^ 52 * (lessSum2 h % 2 ^ 26) + 2 ^ 78 * (lessSum3 h % 2 ^ 26) + 2 ^ 104 * lessSum4 h := by
    unfold Limbs.value lessSum4 lessSum3 lessSum2 lessSum1 lessSum0
    omega
  have below := tight_value tight
  have prime : prime1305 = 2 ^ 130 - 5 := rfl
  rcases Nat.lt_or_ge (lessSum4 h) (2 ^ 26) with negative | positive
  · have mask : ((lessPrime h).l4 >>> 31) - 1 = 0 := by
      apply UInt32.toNat_inj.mp
      rw [UInt32.toNat_sub, sign, g4]
      show (2 ^ 32 - 1 + _) % 2 ^ 32 = 0
      omega
    have same : selectLimbs h (lessPrime h) = h := by
      unfold selectLimbs
      rw [mask]
      dsimp only
      rw [select_first, select_first, select_first, select_first, select_first]
    rw [same]
    exact ⟨tight, (Nat.mod_eq_of_lt (by omega)).symm⟩
  · have zero : (lessPrime h).l4.toNat = 0 := by omega
    have mask : ((lessPrime h).l4 >>> 31) - 1 = 0xffffffff := by
      apply UInt32.toNat_inj.mp
      rw [UInt32.toNat_sub, sign, zero]
      rfl
    have same : selectLimbs h (lessPrime h) = lessPrime h := by
      unfold selectLimbs
      rw [mask]
      dsimp only
      rw [select_second, select_second, select_second, select_second, select_second]
    have less : (lessPrime h).value + prime1305 = h.value := by
      rw [prime]
      unfold Limbs.value at compare ⊢
      omega
    rw [same, ← less, Nat.add_mod_right, Nat.mod_eq_of_lt (by omega)]
    exact ⟨⟨by omega, by omega, by omega, by omega, by omega⟩, rfl⟩

/-! ### The words of the tag -/

/-- The number of four words. -/
def Words.value (w : Words) : Nat :=
  w.w0.toNat + 2 ^ 32 * w.w1.toNat + 2 ^ 64 * w.w2.toNat + 2 ^ 96 * w.w3.toNat

/-- A word of two limbs. -/
theorem word_or {low high : UInt32} {shift : UInt32} (few : shift.toNat < 32)
    (small : low.toNat < 2 ^ shift.toNat) :
    (low ||| (high <<< shift)).toNat =
      low.toNat + 2 ^ shift.toNat * (high.toNat % 2 ^ (32 - shift.toNat)) := by
  have placed : (high <<< shift).toNat = (high.toNat % 2 ^ (32 - shift.toNat)) <<< shift.toNat := by
    rw [UInt32.toNat_shiftLeft, Nat.mod_eq_of_lt few, Nat.shiftLeft_eq, Nat.shiftLeft_eq]
    have whole : 2 ^ 32 = 2 ^ (32 - shift.toNat) * 2 ^ shift.toNat := by
      rw [← Nat.pow_add, Nat.sub_add_cancel few.le]
    rw [whole, Nat.mul_mod_mul_right]
  rw [UInt32.toNat_or, placed, or_shift _ small]

/-- The words are the number below 2^128. -/
theorem packLimbs_value {h : Limbs} (tight : Tight h) :
    (packLimbs h).value = h.value % 2 ^ 128 := by
  obtain ⟨l0, l1, l2, l3, l4⟩ := tight
  have s1 : (h.l1 >>> 6).toNat = h.l1.toNat / 2 ^ 6 := shr_toNat _ 6 (by decide)
  have s2 : (h.l2 >>> 12).toNat = h.l2.toNat / 2 ^ 12 := shr_toNat _ 12 (by decide)
  have s3 : (h.l3 >>> 18).toNat = h.l3.toNat / 2 ^ 18 := shr_toNat _ 18 (by decide)
  have w0 : (packLimbs h).w0.toNat = h.l0.toNat + 2 ^ 26 * (h.l1.toNat % 2 ^ 6) :=
    @word_or _ _ 26 (by decide) l0
  have w1 : (packLimbs h).w1.toNat = (h.l1 >>> 6).toNat + 2 ^ 20 * (h.l2.toNat % 2 ^ 12) :=
    @word_or _ _ 20 (by decide) (show (h.l1 >>> 6).toNat < 2 ^ 20 by omega)
  have w2 : (packLimbs h).w2.toNat = (h.l2 >>> 12).toNat + 2 ^ 14 * (h.l3.toNat % 2 ^ 18) :=
    @word_or _ _ 14 (by decide) (show (h.l2 >>> 12).toNat < 2 ^ 14 by omega)
  have w3 : (packLimbs h).w3.toNat = (h.l3 >>> 18).toNat + 2 ^ 8 * (h.l4.toNat % 2 ^ 24) :=
    @word_or _ _ 8 (by decide) (show (h.l3 >>> 18).toNat < 2 ^ 8 by omega)
  unfold Words.value Limbs.value
  omega

/-- A word of the sum with the pad takes the carry of the word below. -/
theorem padSum_toNat {carry : UInt64} (x y : UInt32) (small : carry.toNat ≤ 1) :
    (x.toUInt64 + y.toUInt64 + carry).toNat = x.toNat + y.toNat + carry.toNat ∧
      ((x.toUInt64 + y.toUInt64 + carry) >>> 32).toNat = (x.toNat + y.toNat + carry.toNat) / 2 ^ 32 ∧
        ((x.toUInt64 + y.toUInt64 + carry) >>> 32).toNat ≤ 1 := by
  have lowX := UInt32.toNat_lt x
  have lowY := UInt32.toNat_lt y
  have sum : (x.toUInt64 + y.toUInt64 + carry).toNat = x.toNat + y.toNat + carry.toNat := by
    rw [UInt64.toNat_add, UInt64.toNat_add, UInt32.toNat_toUInt64, UInt32.toNat_toUInt64]
    omega
  have shifted : ((x.toUInt64 + y.toUInt64 + carry) >>> 32).toNat =
      (x.toNat + y.toNat + carry.toNat) / 2 ^ 32 := by
    rw [UInt64.toNat_shiftRight, sum, Nat.shiftRight_eq_div_pow]
    rfl
  exact ⟨sum, shifted, by omega⟩

/-- The sum with the pad below 2^128. -/
theorem addPad_value (w pad : Words) :
    (addPad w pad).value = (w.value + pad.value) % 2 ^ 128 := by
  obtain ⟨f0, c0, s0⟩ := @padSum_toNat 0 w.w0 pad.w0 (by decide)
  rw [UInt64.add_zero] at f0 c0 s0
  obtain ⟨f1, c1, s1⟩ := padSum_toNat w.w1 pad.w1 s0
  obtain ⟨f2, c2, s2⟩ := padSum_toNat w.w2 pad.w2 s1
  obtain ⟨f3, c3, s3⟩ := padSum_toNat w.w3 pad.w3 s2
  have w0 : (addPad w pad).w0.toNat = _ % 2 ^ 32 := UInt64.toNat_toUInt32 _
  have w1 : (addPad w pad).w1.toNat = _ % 2 ^ 32 := UInt64.toNat_toUInt32 _
  have w2 : (addPad w pad).w2.toNat = _ % 2 ^ 32 := UInt64.toNat_toUInt32 _
  have w3 : (addPad w pad).w3.toNat = _ % 2 ^ 32 := UInt64.toNat_toUInt32 _
  rw [f0] at w0
  rw [f1, c0] at w1
  rw [f2, c1, c0] at w2
  rw [f3, c2, c1, c0] at w3
  have zero : (0 : UInt64).toNat = 0 := rfl
  have low0 := UInt32.toNat_lt w.w0
  have low1 := UInt32.toNat_lt w.w1
  have low2 := UInt32.toNat_lt w.w2
  have low3 := UInt32.toNat_lt w.w3
  unfold Words.value
  omega

/-- The bytes of a word. -/
theorem le32Store_bytes (v : UInt32) : le32Store v = bytes 4 v.toNat := by
  have byte : ∀ shift : UInt32, shift.toNat < 32 →
      (v >>> shift).toUInt8 = UInt8.ofNat (v.toNat / 2 ^ shift.toNat) := by
    intro shift small
    apply UInt8.toNat_inj.mp
    rw [UInt32.toNat_toUInt8, shr_toNat _ _ small, UInt8.toNat_ofNat']
  have low := byte 0 (by decide)
  rw [UInt32.shiftRight_zero] at low
  unfold le32Store
  rw [low, byte 8 (by decide), byte 16 (by decide), byte 24 (by decide)]
  show [_, _, _, _] = [UInt8.ofNat v.toNat, UInt8.ofNat (v.toNat / 256),
    UInt8.ofNat (v.toNat / 256 / 256), UInt8.ofNat (v.toNat / 256 / 256 / 256)]
  rw [Nat.div_div_eq_div_mul, Nat.div_div_eq_div_mul]
  show [UInt8.ofNat (v.toNat / 1), _, _, _] = _
  rw [Nat.div_one]
  rfl

/-- The bytes of four words. -/
theorem words_bytes (w : Words) :
    le32Store w.w0 ++ le32Store w.w1 ++ le32Store w.w2 ++ le32Store w.w3 = bytes 16 w.value := by
  have low0 := UInt32.toNat_lt w.w0
  have low1 := UInt32.toNat_lt w.w1
  have low2 := UInt32.toNat_lt w.w2
  have low3 := UInt32.toNat_lt w.w3
  apply number_inj
  · rw [List.length_append, List.length_append, List.length_append, bytes_length]
    rfl
  · rw [number_append, number_append, number_append, number_bytes, le32Store_bytes,
      le32Store_bytes, le32Store_bytes, le32Store_bytes, number_bytes, number_bytes, number_bytes,
      number_bytes]
    simp only [List.length_append, bytes_length]
    unfold Words.value
    omega

/-! ### The tag is the polynomial -/

theorem polynomial_lt (r : Nat) (msg : Bytes) : polynomial r msg < prime1305 := by
  unfold polynomial
  generalize (msg.length + 15) / 16 = count
  cases count with
  | zero => exact (by decide : 0 < prime1305)
  | succ count =>
    rw [List.range_succ, List.foldl_append]
    exact Nat.mod_lt _ (by decide)

/-- The pad is the second half of the key. -/
theorem poly1305Init_pad (key : Bytes) :
    (poly1305Init key).pad.value = number ((key.drop 16).take 16) := by
  have half : (256 : Nat) ^ 16 = 2 ^ 128 := by decide
  have w0 : (poly1305Init key).pad.w0.toNat = _ := le32_toNat key 16
  have w1 : (poly1305Init key).pad.w1.toNat = _ := le32_toNat key 20
  have w2 : (poly1305Init key).pad.w2.toNat = _ := le32_toNat key 24
  have w3 : (poly1305Init key).pad.w3.toNat = _ := le32_toNat key 28
  rw [number_take, number_drop]
  unfold Words.value
  omega

/-- What the code promises of a key and a message in pieces: the tag is the polynomial, no sum
leaves its word in any block or in the last carries, and the chosen representative is the one below
the prime. -/
structure Poly1305Right (key : Bytes) (pieces : List Bytes) : Prop where
  tag : poly1305Final (pieces.foldl poly1305Update (poly1305Init key)) =
    bytes 16 (poly1305Number key pieces.flatten)
  blocks : ∀ (text m : Bytes) (hibit : UInt32), IsHibit hibit → m.length = 16 →
    BlockFits (poly1305Init key).r hibit
      (Absorb.whole 16 (poly1305Block (poly1305Init key).r 0x1000000) (poly1305Init key).h text) m
  final : FinalFits (lastLimbs (pieces.foldl poly1305Update (poly1305Init key)))
  chosen : let h := carryLimbs (lastLimbs (pieces.foldl poly1305Update (poly1305Init key)))
    (selectLimbs h (lessPrime h)).value =
      polynomial (clamp (number (key.take 16))) pieces.flatten ∧
    (selectLimbs h (lessPrime h)).value < prime1305

/-- Poly1305 is right for every key and every message in any pieces. -/
theorem poly1305_right (key : Bytes) (pieces : List Bytes) : Poly1305Right key pieces := by
  obtain ⟨tight, clamped⟩ := poly1305Init_r key
  obtain ⟨loose, same⟩ := lastLimbs_value tight (poly1305Init key).pad pieces.flatten
  have context : pieces.foldl poly1305Update (poly1305Init key) = _ := update_pieces_init key pieces
  obtain ⟨carried, still, h2, h3, h4, h0, h1⟩ := carryLimbs_value loose
  obtain ⟨g0, g1, g2, g3, g4⟩ := lessSums_lt carried
  obtain ⟨chosen, least⟩ := selectLimbs_value carried
  have value := still.trans same
  unfold Nat.ModEq at value
  rw [clamped, Nat.mod_eq_of_lt (polynomial_lt _ _)] at value
  rw [value] at least
  refine ⟨?_, fun text m hibit isHibit short => ?_, ?_, ?_⟩
  · rw [context]
    unfold poly1305Final
    dsimp only
    rw [words_bytes, addPad_value, packLimbs_value chosen]
    refine (congrArg (bytes 16) ?_)
    unfold poly1305Number
    rw [← poly1305Init_pad key, ← least]
    omega
  · exact poly1305Block_fits tight (whole_loose tight text) isHibit short
  · rw [context]
    exact ⟨h2.trans (by omega), h3.trans (by omega), h4.trans (by omega), h0.trans (by omega),
      h1.trans (by omega), g0.trans (by omega), g1.trans (by omega), g2.trans (by omega),
      g3.trans (by omega), g4.trans_lt (by omega)⟩
  · rw [context]
    exact ⟨least, least ▸ polynomial_lt _ _⟩

end MectovOS.Tls
