/-
This file proves that the streaming hashes compute FIPS 180-4. However a message is
cut into updates, the TLS context and the kernel's hold its whole blocks compressed and
the rest of it; the padding behind that rest is the standard's. The one-shot hashes
lay out the same padding at once.
-/

import MectovOS.Tls.Hash
import MectovOS.Tls.Poly1305Words
import MectovOS.Lib.Absorb

namespace MectovOS.Tls

open Sha2 (Hash Variant blockWord numberBytes pad primes fraction initial)
open Passwd (Sha256 Sha256State)
open Absorb (whole rest)

/-! ### The standard -/

/-- The functions and constants of SHA-256. -/
def sha256Variant : Variant UInt32 where
  sum0 x := Passwd.rotr x 2 ^^^ Passwd.rotr x 13 ^^^ Passwd.rotr x 22
  sum1 x := Passwd.rotr x 6 ^^^ Passwd.rotr x 11 ^^^ Passwd.rotr x 25
  sigma0 x := Passwd.rotr x 7 ^^^ Passwd.rotr x 18 ^^^ x >>> 3
  sigma1 x := Passwd.rotr x 17 ^^^ Passwd.rotr x 19 ^^^ x >>> 10
  keys := (primes.take 64).map fun prime => UInt32.ofNat (fraction 3 32 prime)

/-- The functions and constants of SHA-384 and SHA-512. -/
def sha512Variant : Variant UInt64 where
  sum0 x := ror64 x 28 ^^^ ror64 x 34 ^^^ ror64 x 39
  sum1 x := ror64 x 14 ^^^ ror64 x 18 ^^^ ror64 x 41
  sigma0 x := ror64 x 1 ^^^ ror64 x 8 ^^^ x >>> 7
  sigma1 x := ror64 x 19 ^^^ ror64 x 61 ^^^ x >>> 6
  keys := primes.map fun prime => UInt64.ofNat (fraction 3 64 prime)

/-- SHA-256 of FIPS 180-4. -/
def fipsSha256 (message : Bytes) : Bytes :=
  (sha256Variant.hash UInt32.ofNat 4 8 (initial UInt32.ofNat 32 primes) message).bytes
    fun word => numberBytes 4 word.toNat

/-- The hash value that SHA-384 and SHA-512 share, from their initial one. -/
def fipsSha512Family (first : Hash UInt64) (message : Bytes) : Bytes :=
  (sha512Variant.hash UInt64.ofNat 8 16 first message).bytes fun word => numberBytes 8 word.toNat

/-- SHA-512 of FIPS 180-4. -/
def fipsSha512 : Bytes → Bytes := fipsSha512Family (initial UInt64.ofNat 64 primes)

/-- SHA-384 of FIPS 180-4: the second eight primes, and the first 48 bytes. -/
def fipsSha384 (message : Bytes) : Bytes :=
  (fipsSha512Family (initial UInt64.ofNat 64 (primes.drop 8)) message).take 48

/-! ### Compression -/

/-- The state of a context as a hash value. -/
def hashValue (state : Sha256State) : Hash UInt32 :=
  ⟨state.a, state.b, state.c, state.d, state.e, state.f, state.g, state.h⟩

theorem roundKeys_primes : Passwd.roundKeys = sha256Variant.keys := by decide +kernel

theorem k512_primes : k512 = sha512Variant.keys := by decide +kernel

/-- A word of a block, its highest byte first. -/
theorem blockWords_eq (block : Bytes) :
    Passwd.blockWords block = (List.range 16).map fun t => UInt32.ofNat (blockWord 4 block t) := by
  refine List.map_congr_left fun t _ => ?_
  have turned : ∀ b0 b1 b2 b3 : UInt8,
      b0.toUInt32 <<< 24 ||| b1.toUInt32 <<< 16 ||| b2.toUInt32 <<< 8 ||| b3.toUInt32 =
        UInt32.ofNat ((((0 * 256 + b0.toNat) * 256 + b1.toNat) * 256 + b2.toNat) * 256 + b3.toNat) := by
    intro b0 b1 b2 b3
    have same : b0.toUInt32 <<< 24 ||| b1.toUInt32 <<< 16 ||| b2.toUInt32 <<< 8 ||| b3.toUInt32 =
        le32 [b3, b2, b1, b0] 0 := by
      show _ = b3.toUInt32 ||| b2.toUInt32 <<< 8 ||| b1.toUInt32 <<< 16 ||| b0.toUInt32 <<< 24
      generalize b0.toUInt32 <<< 24 = x0, b1.toUInt32 <<< 16 = x1, b2.toUInt32 <<< 8 = x2,
        b3.toUInt32 = x3
      ac_rfl
    have r0 := UInt8.toNat_lt b0
    have r1 := UInt8.toNat_lt b1
    have r2 := UInt8.toNat_lt b2
    have r3 := UInt8.toNat_lt b3
    apply UInt32.toNat_inj.mp
    rw [same, le32_bytes, UInt32.toNat_ofNat']
    show b3.toNat + _ * b2.toNat + _ * b1.toNat + _ * b0.toNat = _
    omega
  exact turned _ _ _ _

/-- The bytes of a word shifted in one by one. -/
theorem sha512BlockWords_eq (block : Bytes) :
    sha512BlockWords block = (List.range 16).map fun t => UInt64.ofNat (blockWord 8 block t) := by
  refine List.map_congr_left fun t _ => ?_
  have grown : ∀ count ≤ 8,
      ((List.range count).foldl
        (fun (v : UInt64) k => (v <<< 8) ||| (block.getD (t * 8 + k) 0).toUInt64) 0).toNat =
          (List.range count).foldl
            (fun value k => value * 256 + (block.getD (t * 8 + k) 0).toNat) 0 ∧
        (List.range count).foldl
          (fun value k => value * 256 + (block.getD (t * 8 + k) 0).toNat) 0 < 256 ^ count := by
    intro count few
    induction count with
    | zero => exact ⟨rfl, Nat.one_pos⟩
    | succ count induction =>
      obtain ⟨same, below⟩ := induction (by omega)
      have byte := UInt8.toNat_lt (block.getD (t * 8 + count) 0)
      have room : (256 : Nat) ^ (count + 1) ≤ 256 ^ 8 := Nat.pow_le_pow_right (by omega) few
      have more : (256 : Nat) ^ (count + 1) = 256 ^ count * 256 := Nat.pow_succ ..
      rw [List.range_succ, List.foldl_append, List.foldl_append, List.foldl_cons, List.foldl_nil,
        List.foldl_cons, List.foldl_nil, UInt64.toNat_or, UInt64.toNat_shiftLeft, same,
        UInt8.toNat_toUInt64]
      refine ⟨?_, by omega⟩
      show _ <<< 8 % _ ||| _ = _
      rw [Nat.mod_eq_of_lt (by rw [Nat.shiftLeft_eq]; omega), Nat.or_comm,
        LittleEndian.or_shift _ byte]
      omega
  obtain ⟨same, below⟩ := grown 8 (le_refl 8)
  apply UInt64.toNat_inj.mp
  rw [same, UInt64.toNat_ofNat', Nat.mod_eq_of_lt (by exact below)]
  rfl

/-- `sha256_compress` is the standard's. -/
theorem compress_eq (state : Sha256State) (block : Bytes) :
    hashValue (Passwd.compress state block) =
      sha256Variant.compress (hashValue state) fun t => UInt32.ofNat (blockWord 4 block t) := by
  have next : ∀ words, Passwd.nextWord words =
      sha256Variant.sigma1 (words.getD (words.length - 2) 0) + words.getD (words.length - 7) 0 +
        sha256Variant.sigma0 (words.getD (words.length - 15) 0) +
          words.getD (words.length - 16) 0 := by
    intro words
    unfold Passwd.nextWord sha256Variant
    ac_rfl
  have rounds : ∀ (pairs : List (UInt32 × UInt32)) (state : Sha256State),
      hashValue (pairs.foldl (fun state pair => Passwd.round state pair.1 pair.2) state) =
        pairs.foldl (fun v pair => sha256Variant.round v pair.1 pair.2) (hashValue state) := by
    intro pairs state
    exact (List.foldl_hom hashValue fun _ _ => rfl).symm
  unfold Variant.compress
  rw [← Sha2.rounds_zip, ← rounds]
  have words : Passwd.schedule block = (List.range sha256Variant.keys.length).map
      (sha256Variant.schedule fun t => UInt32.ofNat (blockWord 4 block t)) := by
    unfold Passwd.schedule
    rw [blockWords_eq, Sha2.schedule_foldl sha256Variant _ next]
    rfl
  have sum : ∀ done, hashValue
      { a := state.a + done.a, b := state.b + done.b, c := state.c + done.c, d := state.d + done.d
        e := state.e + done.e, f := state.f + done.f, g := state.g + done.g, h := state.h + done.h } =
      (hashValue state).add (hashValue done) := fun _ => rfl
  rw [← words, ← roundKeys_primes, ← sum]
  rfl

/-- `sha512_compress` is the standard's. -/
theorem sha512Compress_eq (value : Hash UInt64) (block : Bytes) :
    sha512Compress value block =
      sha512Variant.compress value fun t => UInt64.ofNat (blockWord 8 block t) := by
  have next : ∀ words, sha512NextWord words =
      sha512Variant.sigma1 (words.getD (words.length - 2) 0) + words.getD (words.length - 7) 0 +
        sha512Variant.sigma0 (words.getD (words.length - 15) 0) +
          words.getD (words.length - 16) 0 := by
    intro words
    unfold sha512NextWord sha512Variant
    ac_rfl
  unfold Variant.compress
  rw [← Sha2.rounds_zip]
  have words : (List.range 64).foldl (fun w _ => w ++ [sha512NextWord w]) (sha512BlockWords block) =
      (List.range sha512Variant.keys.length).map
        (sha512Variant.schedule fun t => UInt64.ofNat (blockWord 8 block t)) := by
    rw [sha512BlockWords_eq, Sha2.schedule_foldl sha512Variant _ next]
    rfl
  rw [← words, ← k512_primes]
  rfl

/-! ### The context -/

/-- A context that took a text: its whole blocks are compressed and the rest of it waits. -/
def absorbed (c : Sha256) (text : Bytes) : Sha256 where
  state := whole 64 Passwd.compress c.state (c.block ++ text)
  totalLen := c.totalLen + UInt64.ofNat text.length
  block := rest 64 (c.block ++ text)

theorem absorbed_nil {c : Sha256} (short : c.block.length < 64) : absorbed c [] = c := by
  unfold absorbed
  rw [List.append_nil, Absorb.whole_short short, Absorb.rest_short short, List.length_nil]
  show (⟨_, c.totalLen + 0, _⟩ : Sha256) = c
  rw [UInt64.add_zero]

theorem absorbed_block (c : Sha256) (text : Bytes) :
    (absorbed c text).block.length = (c.block.length + text.length) % 64 := by
  unfold absorbed
  rw [Absorb.rest_length, List.length_append]

/-- What waits for a block is shorter than one. -/
theorem absorbed_short (c : Sha256) (text : Bytes) : (absorbed c text).block.length < 64 := by
  rw [absorbed_block]
  exact Nat.mod_lt _ (by decide)

theorem absorbed_append (c : Sha256) (text behind : Bytes) :
    absorbed (absorbed c text) behind = absorbed c (text ++ behind) := by
  obtain ⟨states, rests⟩ := @Absorb.append_rest _ _ 64 Passwd.compress (by decide) c.state
    (c.block ++ text) behind
  unfold absorbed
  dsimp only
  rw [← states, ← rests, List.append_assoc, List.length_append, UInt64.ofNat_add, UInt64.add_assoc]

/-- The loop leaves the whole blocks compressed. -/
theorem sha256UpdateLoop_absorbed (fuel : Nat) (c : Sha256) (data : Bytes)
    (short : c.block.length < 64) (enough : data.length ≤ fuel) :
    sha256UpdateLoop fuel c data =
      ⟨whole 64 Passwd.compress c.state (c.block ++ data), c.totalLen,
        rest 64 (c.block ++ data)⟩ := by
  induction fuel generalizing c data with
  | zero =>
    rw [List.length_eq_zero_iff.mp (Nat.le_zero.mp enough), List.append_nil,
      Absorb.whole_short short, Absorb.rest_short short]
    rfl
  | succ fuel induction =>
    unfold sha256UpdateLoop
    by_cases done : data = []
    · rw [if_pos done, done, List.append_nil, Absorb.whole_short short, Absorb.rest_short short]
    rw [if_neg done]
    have some := List.length_pos_iff.mpr done
    have cut : c.block ++ data = c.block ++ data.take (64 - c.block.length) ++
        data.drop (64 - c.block.length) := by
      rw [List.append_assoc, List.take_append_drop]
    have fewer : (data.drop (64 - c.block.length)).length ≤ fuel := by
      rw [List.length_drop]
      omega
    dsimp only
    by_cases full : (c.block ++ data.take (64 - c.block.length)).length = 64
    · rw [if_pos full, induction ⟨_, _, []⟩ _ (by exact Nat.succ_pos 63) fewer, cut,
        Absorb.whole_block (by decide) _ full, Absorb.rest_block (by decide) full]
      rfl
    · rw [if_neg full]
      have all : data.length < 64 - c.block.length := by
        rw [List.length_append, List.length_take] at full
        omega
      have waits : (c.block ++ data.take (64 - c.block.length)).length < 64 := by
        rw [List.length_append, List.length_take]
        omega
      rw [induction ⟨_, _, _⟩ _ waits fewer, ← cut]

theorem tlsSha256Update_absorbed {c : Sha256} (short : c.block.length < 64) (data : Bytes) :
    tlsSha256Update c data = absorbed c data :=
  sha256UpdateLoop_absorbed data.length { c with totalLen := _ } data short (Nat.le_refl _)

/-- The kernel's context takes a text byte by byte to the same state. -/
theorem update_absorbed {c : Sha256} (short : c.block.length < 64) (data : Bytes) :
    c.update data = absorbed c data := by
  have single : ∀ {c : Sha256} (byte : UInt8), c.block.length < 64 →
      c.absorb byte = absorbed c [byte] := by
    intro c byte short
    have length : (c.block ++ [byte]).length = c.block.length + 1 := List.length_append
    unfold Sha256.absorb absorbed
    dsimp only
    by_cases full : (c.block ++ [byte]).length = 64
    · rw [if_pos full, ← List.append_nil (c.block ++ [byte]), Absorb.whole_block (by decide) _ full,
        Absorb.rest_block (by decide) full, List.append_nil]
      rfl
    · rw [if_neg full, Absorb.whole_short (by omega), Absorb.rest_short (by omega)]
      rfl
  induction data generalizing c with
  | nil => exact (absorbed_nil short).symm
  | cons byte data induction =>
    show (c.absorb byte).update data = _
    rw [single byte short, induction (absorbed_short c [byte]), absorbed_append,
      List.singleton_append]

/-- The zeros up to the length. -/
theorem tlsSha256Zeros_absorbed (fuel : Nat) {c : Sha256} (short : c.block.length < 64)
    (enough : (120 - c.block.length) % 64 ≤ fuel) :
    tlsSha256Zeros fuel c =
      absorbed c (List.replicate ((120 - c.block.length) % 64) 0) := by
  induction fuel generalizing c with
  | zero =>
    rw [Nat.le_zero.mp enough, List.replicate_zero, absorbed_nil short]
    rfl
  | succ fuel induction =>
    unfold tlsSha256Zeros
    by_cases done : c.block.length = 56
    · rw [if_pos done, done]
      exact (absorbed_nil short).symm
    have block := absorbed_block c [0]
    rw [List.length_singleton] at block
    have fewer : (120 - c.block.length) % 64 =
        (120 - (absorbed c [0]).block.length) % 64 + 1 := by omega
    rw [if_neg done, tlsSha256Update_absorbed short, induction (by omega) (by omega), fewer,
      absorbed_append, List.replicate_succ, List.singleton_append]

/-- The two contexts are closed by the same padding. -/
theorem final_absorbed {c : Sha256} (short : c.block.length < 64) :
    c.final = tlsSha256Final c := by
  have pads : ∀ fuel {c : Sha256}, c.block.length < 64 → c.pad fuel = tlsSha256Zeros fuel c := by
    intro fuel
    induction fuel with
    | zero => exact fun _ => rfl
    | succ fuel induction =>
      intro c short
      have taken : c.absorb 0 = tlsSha256Update c [0] := by
        rw [tlsSha256Update_absorbed short]
        exact update_absorbed short [0]
      unfold Sha256.pad tlsSha256Zeros
      rw [taken, induction (by rw [tlsSha256Update_absorbed short]; exact absorbed_short c [0])]
  have first : c.absorb 0x80 = tlsSha256Update c [0x80] := by
    rw [tlsSha256Update_absorbed short]
    exact update_absorbed short [0x80]
  have still := absorbed_short c [0x80]
  have zeros := @tlsSha256Zeros_absorbed 64 _ still (by omega)
  unfold Sha256.final tlsSha256Final
  dsimp only
  rw [first, tlsSha256Update_absorbed short, pads 64 still, zeros,
    update_absorbed (absorbed_short _ _), tlsSha256Update_absorbed (absorbed_short _ _)]
  simp only [List.flatMap_cons, List.flatMap_nil, List.append_nil, List.append_assoc]

/-! ### Bytes of words -/

theorem shifted_byte (h : UInt64) {i : Nat} (few : i < 8) :
    (h >>> (56 - i * 8).toUInt64).toUInt8 = UInt8.ofNat (h.toNat / 256 ^ (7 - i)) := by
  have room : (56 - i * 8).toUInt64.toNat % 64 = 8 * (7 - i) := by
    rw [UInt64.toNat_ofNat', Nat.mod_eq_of_lt (by omega)]
    omega
  apply UInt8.toNat_inj.mp
  rw [UInt64.toNat_toUInt8, UInt64.toNat_shiftRight, room, Nat.shiftRight_eq_div_pow, Nat.pow_mul,
    UInt8.toNat_ofNat']

theorem word64Bytes_eq (h : UInt64) : word64Bytes h = numberBytes 8 h.toNat := by
  refine List.map_congr_left fun i few => ?_
  rw [Nat.mul_comm 8, shifted_byte h (List.mem_range.mp few)]

theorem wordBytes_eq (word : UInt32) : Passwd.wordBytes word = numberBytes 4 word.toNat := by
  have byte : ∀ shift : UInt32, shift.toNat < 32 →
      (word >>> shift).toUInt8 = UInt8.ofNat (word.toNat / 2 ^ shift.toNat) := by
    intro shift small
    apply UInt8.toNat_inj.mp
    rw [UInt32.toNat_toUInt8, UInt32.toNat_shiftRight, Nat.mod_eq_of_lt small,
      Nat.shiftRight_eq_div_pow, UInt8.toNat_ofNat']
  have last : word.toUInt8 = UInt8.ofNat (word.toNat / 1) := by
    apply UInt8.toNat_inj.mp
    rw [UInt32.toNat_toUInt8, Nat.div_one, UInt8.toNat_ofNat']
  unfold Passwd.wordBytes
  rw [byte 24 (by decide), byte 16 (by decide), byte 8 (by decide), last]
  rfl

/-- Only the lowest bytes of a number are written. -/
theorem numberBytes_mod (number : Nat) : numberBytes 8 (number % 2 ^ 64) = numberBytes 8 number := by
  refine List.map_congr_left fun i few => ?_
  have small := List.mem_range.mp few
  apply UInt8.toNat_inj.mp
  rw [UInt8.toNat_ofNat', UInt8.toNat_ofNat']
  interval_cases i <;> omega

theorem numberBytes_wide {number : Nat} (small : number < 2 ^ 64) :
    numberBytes 16 number = List.replicate 8 0 ++ numberBytes 8 number := by
  unfold numberBytes
  rw [@List.range_add 8 8, List.map_append, List.map_map]
  congr 1
  · have high : ∀ i ∈ List.range 8, UInt8.ofNat (number / 256 ^ (16 - 1 - i)) = 0 := by
      intro i few
      have below := List.mem_range.mp few
      have wide : (256 : Nat) ^ 8 ≤ 256 ^ (16 - 1 - i) := Nat.pow_le_pow_right (by omega) (by omega)
      rw [Nat.div_eq_of_lt (by omega)]
      rfl
    rw [List.map_congr_left high]
    rfl

/-! ### The hashes -/

/-- The blocks of a padded message, one by one. -/
theorem hash_whole {State Word : Type} [OfNat Word 0] [Add Word] [AndOp Word] [XorOp Word]
    [Complement Word] (variant : Variant Word) (ofNat : Nat → Word) (wordBytes lengthBytes : Nat)
    {step : State → Bytes → State} (value : State → Hash Word)
    (steps : ∀ state block, value (step state block) =
      variant.compress (value state) fun t => ofNat (blockWord wordBytes block t))
    (state : State) (message : Bytes) :
    value (whole (16 * wordBytes) step state (pad (16 * wordBytes) lengthBytes message)) =
      variant.hash ofNat wordBytes lengthBytes (value state) message := by
  unfold Variant.hash
  rw [Absorb.whole_foldl]
  exact (List.foldl_hom value fun state i => (steps state _).symm).symm

/-- The digest of a context that took a message. -/
theorem tlsSha256Final_fips (message : Bytes) :
    tlsSha256Final (absorbed Sha256.init message) = fipsSha256 message := by
  have block := absorbed_block Sha256.init message
  have marked := absorbed_block (absorbed Sha256.init message) [0x80]
  rw [List.length_singleton] at marked
  have empty : Sha256.init.block.length = 0 := rfl
  have length : (absorbed Sha256.init message).totalLen * 8 = UInt64.ofNat (8 * message.length) := by
    show (0 + UInt64.ofNat message.length) * 8 = _
    rw [UInt64.zero_add, Nat.mul_comm, UInt64.ofNat_mul]
    rfl
  have lengthBytes : (List.range 8).map (fun i =>
      ((UInt64.ofNat (8 * message.length)) >>> (56 - i * 8).toUInt64).toUInt8) =
        numberBytes 8 (8 * message.length) := by
    rw [← numberBytes_mod, ← UInt64.toNat_ofNat']
    exact List.map_congr_left fun i few => shifted_byte _ (List.mem_range.mp few)
  have zeros := @tlsSha256Zeros_absorbed 64
    (absorbed (absorbed Sha256.init message) [0x80]) (by omega) (by omega)
  have padding : message ++ ([0x80] ++ (List.replicate
      ((120 - (absorbed (absorbed Sha256.init message) [0x80]).block.length) % 64) 0 ++
        numberBytes 8 (8 * message.length))) = pad (16 * 4) 8 message := by
    unfold pad
    rw [List.singleton_append]
    congr 4
    omega
  have state : hashValue Sha256.init.state = initial UInt32.ofNat 32 primes := by decide +kernel
  unfold tlsSha256Final fipsSha256 Hash.bytes
  dsimp only
  rw [length, lengthBytes, @tlsSha256Update_absorbed (absorbed Sha256.init message) (by omega), zeros,
    tlsSha256Update_absorbed (absorbed_short _ _), absorbed_append, absorbed_append,
    absorbed_append, padding, ← state,
    ← hash_whole sha256Variant _ 4 8 hashValue compress_eq]
  unfold absorbed
  simp only [funext wordBytes_eq]
  rfl

/-- The one-shot hash lays the padding out behind the rest of the message. -/
theorem sha512Family_fips (data : Bytes) (outlen : Nat) (iv : Hash UInt64)
    (few : data.length < 2 ^ 29) :
    sha512Family data outlen iv = (fipsSha512Family iv data).take outlen := by
  have length := @Absorb.rest_length _ 128 data
  have small := Nat.mod_lt data.length (show 0 < 128 by decide)
  have bits : (UInt64.ofNat data.length * 8).toNat = 8 * data.length := by
    rw [UInt64.toNat_mul, UInt64.toNat_ofNat', Nat.mod_eq_of_lt (by omega : data.length < 2 ^ 64)]
    show data.length * 8 % 2 ^ 64 = _
    omega
  have marked : (rest 128 data ++ [0x80]).length = data.length % 128 + 1 := by
    rw [List.length_append, length, List.length_singleton]
  have layout : ∀ count, 112 < data.length % 128 + 1 ∧ count = 2 ∨
      ¬ 112 < data.length % 128 + 1 ∧ count = 1 →
      (rest 128 data ++ [0x80] ++ List.replicate (count * 128 - (data.length % 128 + 1)) 0).take
          (count * 128 - 8) ++ word64Bytes (UInt64.ofNat data.length * 8) =
        rest 128 data ++ 0x80 :: (List.replicate
          ((2 * (16 * 8) - 1 - 16 - data.length % (16 * 8)) % (16 * 8)) 0 ++
            numberBytes 16 (8 * data.length)) := by
    intro count which
    have fits : ∃ zeros, count * 128 - (data.length % 128 + 1) = zeros + 16 ∧
        (2 * (16 * 8) - 1 - 16 - data.length % (16 * 8)) % (16 * 8) = zeros := by
      refine ⟨_, ?_, rfl⟩
      omega
    obtain ⟨zeros, room, same⟩ := fits
    have behind : count * 128 - 8 = (rest 128 data ++ [0x80]).length + (zeros + 8) := by omega
    rw [room, same, word64Bytes_eq, bits, numberBytes_wide (by omega), behind, List.take_length_add_append,
      List.take_replicate, Nat.min_eq_left (by omega), List.replicate_add, List.append_assoc,
      List.append_assoc, List.append_assoc, List.singleton_append]
  have count : ∃ count, (if 112 < data.length % 128 + 1 then 2 else 1) = count ∧
      (112 < data.length % 128 + 1 ∧ count = 2 ∨ ¬ 112 < data.length % 128 + 1 ∧ count = 1) := by
    by_cases two : 112 < data.length % 128 + 1
    · exact ⟨2, if_pos two, Or.inl ⟨two, rfl⟩⟩
    · exact ⟨1, if_neg two, Or.inr ⟨two, rfl⟩⟩
  obtain ⟨count, chosen, which⟩ := count
  have laid := layout count which
  have hashed : sha512Variant.hash UInt64.ofNat 8 16 iv data =
      whole 128 sha512Compress iv (pad 128 16 data) :=
    (hash_whole sha512Variant UInt64.ofNat 8 16 id sha512Compress_eq iv data).symm
  unfold sha512Family fipsSha512Family
  dsimp only
  rw [show data.drop (data.length / 128 * 128) = rest 128 data from rfl, marked, chosen, laid,
    hashed, ← Absorb.whole_foldl]
  have full : (rest 128 data ++ 0x80 :: (List.replicate
      ((2 * (16 * 8) - 1 - 16 - data.length % (16 * 8)) % (16 * 8)) 0 ++
        numberBytes 16 (8 * data.length))).length / 128 = count := by
    unfold numberBytes
    rw [List.length_append, length, List.length_cons, List.length_append, List.length_replicate,
      List.length_map, List.length_range]
    omega
  obtain ⟨whole', -⟩ := @Absorb.append_rest _ _ 128 sha512Compress (by decide) iv data
    (0x80 :: (List.replicate ((2 * (16 * 8) - 1 - 16 - data.length % (16 * 8)) % (16 * 8)) 0 ++
      numberBytes 16 (8 * data.length)))
  have folded := @Absorb.whole_foldl _ _ 128 sha512Compress (whole 128 sha512Compress iv data)
    (rest 128 data ++ 0x80 :: (List.replicate
      ((2 * (16 * 8) - 1 - 16 - data.length % (16 * 8)) % (16 * 8)) 0 ++
        numberBytes 16 (8 * data.length)))
  rw [full] at folded
  rw [← folded, ← whole']
  unfold Hash.bytes
  rw [funext word64Bytes_eq]
  rfl

end MectovOS.Tls
