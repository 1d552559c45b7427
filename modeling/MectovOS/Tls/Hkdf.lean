/-
This file models HMAC-SHA256 and HKDF of src/apps/lib/tls/tls_hash.c and proves that
they are those of RFC 2104 and RFC 5869 over the SHA-256 of the standard, however the
text of a MAC is cut into updates. Two labels never expand to one text.
-/

import MectovOS.Tls.HashKept

namespace MectovOS.Tls

open Passwd (Sha256)

/-! ### The code -/

/-- `tls_sha256`. -/
def tlsSha256 (data : Bytes) : Bytes := tlsSha256Final (tlsSha256Update Sha256.init data)

/-- `hmac_ctx`. -/
structure HmacCtx where
  inner : Sha256
  opad : Bytes

/-- `hmac_init`. -/
def hmacInit (key : Bytes) : HmacCtx :=
  let k := if 64 < key.length then tlsSha256 key else key
  let k := k ++ List.replicate (64 - k.length) 0
  { inner := tlsSha256Update Sha256.init (k.map (· ^^^ 0x36))
    opad := k.map (· ^^^ 0x5c) }

/-- `hmac_update`. -/
def hmacUpdate (h : HmacCtx) (data : Bytes) : HmacCtx :=
  if data.length = 0 then h else { h with inner := tlsSha256Update h.inner data }

/-- `hmac_final`. -/
def hmacFinal (h : HmacCtx) : Bytes :=
  tlsSha256Final (tlsSha256Update (tlsSha256Update Sha256.init h.opad) (tlsSha256Final h.inner))

/-- `tls_hmac_sha256`. -/
def tlsHmacSha256 (key data : Bytes) : Bytes := hmacFinal (hmacUpdate (hmacInit key) data)

/-- `tls_hkdf_extract`. -/
def tlsHkdfExtract (salt ikm : Bytes) : Bytes :=
  tlsHmacSha256 (if salt.length = 0 then List.replicate 32 0 else salt) ikm

/-- The loop of `tls_hkdf_expand`: `t` is the block before, and nothing at first. -/
def hkdfExpandLoop (prk info : Bytes) : Nat → Bytes → UInt8 → Nat → Bytes
  | 0, _, _, _ => []
  | fuel + 1, t, counter, outlen =>
    if outlen = 0 then []
    else
      let t := hmacFinal (hmacUpdate (hmacUpdate (hmacUpdate (hmacInit prk) t) info) [counter])
      let take := if outlen < 32 then outlen else 32
      t.take take ++ hkdfExpandLoop prk info fuel t (counter + 1) (outlen - take)

/-- `tls_hkdf_expand`. -/
def tlsHkdfExpand (prk info : Bytes) (outlen : Nat) : Bytes :=
  hkdfExpandLoop prk info outlen [] 1 outlen

/-- `tls_hkdf_expand_label`. -/
def tlsHkdfExpandLabel (secret : Bytes) (label : String) (ctx : Bytes) (outlen : Nat) : Bytes :=
  tlsHkdfExpand secret (hkdfLabel label ctx outlen) outlen

/-! ### The standards -/

/-- HMAC over a hash with blocks of some length. -/
def hmac (hash : Bytes → Bytes) (block : Nat) (key text : Bytes) : Bytes :=
  let k := if block < key.length then hash key else key
  let k := k ++ List.replicate (block - k.length) 0
  hash (k.map (· ^^^ 0x5c) ++ hash (k.map (· ^^^ 0x36) ++ text))

/-- The blocks `T(i)` of HKDF-Expand. -/
def hkdfBlock (mac : Bytes → Bytes → Bytes) (prk info : Bytes) : Nat → Bytes
  | 0 => []
  | i + 1 => mac prk (hkdfBlock mac prk info i ++ info ++ [UInt8.ofNat (i + 1)])

/-- HKDF-Expand: the first octets of the blocks from `T(1)` on. -/
def hkdfExpand (mac : Bytes → Bytes → Bytes) (prk info : Bytes) (length : Nat) : Bytes :=
  ((List.range ((length + 31) / 32)).flatMap fun i => hkdfBlock mac prk info (i + 1)).take length

/-! ### The code keeps to the standards -/

/-- The inner hash takes a text in pieces. -/
theorem hmacUpdate_pieces (opad text : Bytes) (pieces : List Bytes) :
    pieces.foldl hmacUpdate ⟨absorbed Sha256.init text, opad⟩ =
      ⟨absorbed Sha256.init (text ++ pieces.flatten), opad⟩ := by
  induction pieces generalizing text with
  | nil => rw [List.flatten_nil, List.append_nil, List.foldl_nil]
  | cons piece pieces induction =>
    have taken : hmacUpdate ⟨absorbed Sha256.init text, opad⟩ piece =
        ⟨absorbed Sha256.init (text ++ piece), opad⟩ := by
      unfold hmacUpdate
      by_cases empty : piece.length = 0
      · rw [if_pos empty, List.length_eq_zero_iff.mp empty, List.append_nil]
      · rw [if_neg empty]
        dsimp only
        rw [tlsSha256Update_absorbed (absorbed_short _ _), absorbed_append]
    rw [List.foldl_cons, taken, induction, List.flatten_cons, List.append_assoc]

/-- A MAC over a text in pieces is the MAC over the text. -/
theorem hmacFinal_flatten (key : Bytes) (pieces : List Bytes) :
    hmacFinal (pieces.foldl hmacUpdate (hmacInit key)) = hmac fipsSha256 64 key pieces.flatten := by
  have first : ∀ data, tlsSha256Update Sha256.init data = absorbed Sha256.init data :=
    tlsSha256Update_absorbed (Nat.succ_pos 63)
  have digest : tlsSha256 key = fipsSha256 key := by
    unfold tlsSha256
    rw [first, tlsSha256Final_fips]
  unfold hmacInit hmac
  rw [digest]
  dsimp only
  rw [first, hmacUpdate_pieces]
  unfold hmacFinal
  dsimp only
  rw [first, tlsSha256Update_absorbed (absorbed_short _ _), absorbed_append, tlsSha256Final_fips,
    tlsSha256Final_fips]

/-- The loop goes on behind a block. -/
theorem hkdfExpandLoop_blocks (prk info : Bytes) (fuel i outlen : Nat) (enough : outlen ≤ fuel) :
    hkdfExpandLoop prk info fuel (hkdfBlock (hmac fipsSha256 64) prk info i) (UInt8.ofNat (i + 1))
        outlen =
      ((List.range ((outlen + 31) / 32)).flatMap fun j =>
        hkdfBlock (hmac fipsSha256 64) prk info (i + j + 1)).take outlen := by
  induction fuel generalizing i outlen with
  | zero =>
    rw [Nat.le_zero.mp enough]
    rfl
  | succ fuel induction =>
    unfold hkdfExpandLoop
    by_cases done : outlen = 0
    · rw [if_pos done, done]
      rfl
    have block : hmacFinal (hmacUpdate (hmacUpdate (hmacUpdate (hmacInit prk)
        (hkdfBlock (hmac fipsSha256 64) prk info i)) info) [UInt8.ofNat (i + 1)]) =
          hkdfBlock (hmac fipsSha256 64) prk info (i + 1) := by
      have mac := hmacFinal_flatten prk
        [hkdfBlock (hmac fipsSha256 64) prk info i, info, [UInt8.ofNat (i + 1)]]
      rw [List.flatten_cons, List.flatten_cons, List.flatten_singleton, ← List.append_assoc] at mac
      exact mac
    have length : (hkdfBlock (hmac fipsSha256 64) prk info (i + 1)).length = 32 := rfl
    have next : UInt8.ofNat (i + 1) + 1 = UInt8.ofNat (i + 1 + 1) := (UInt8.ofNat_add ..).symm
    rw [if_neg done, block]
    dsimp only
    rw [next, induction (i + 1) _ (by split <;> omega)]
    have more : (outlen + 31) / 32 =
        (outlen - (if outlen < 32 then outlen else 32) + 31) / 32 + 1 := by
      split <;> omega
    have later : ∀ j, i + 1 + j + 1 = i + (j + 1) + 1 := fun j => by omega
    rw [more, List.range_succ_eq_map, List.flatMap_cons, List.flatMap_map, List.take_append, length]
    simp only [later]
    rw [Nat.add_zero]
    by_cases last : outlen < 32
    · rw [if_pos last, Nat.sub_self, Nat.sub_eq_zero_of_le (Nat.le_of_lt last)]
    · rw [if_neg last, List.take_of_length_le (Nat.le_of_eq length), @List.take_of_length_le _ outlen
        (hkdfBlock (hmac fipsSha256 64) prk info (i + 1)) (by omega)]

/-- HMAC and HKDF are those of their standards, for every key, text and length, and however the text
of a MAC is cut. -/
theorem hkdf_standard :
    (∀ (key : Bytes) (pieces : List Bytes), hmacFinal (pieces.foldl hmacUpdate (hmacInit key)) =
        hmac fipsSha256 64 key pieces.flatten) ∧
      (∀ salt ikm, tlsHkdfExtract salt ikm =
        hmac fipsSha256 64 (if salt = [] then List.replicate 32 0 else salt) ikm) ∧
      ∀ prk info length, tlsHkdfExpand prk info length =
        hkdfExpand (hmac fipsSha256 64) prk info length := by
  refine ⟨hmacFinal_flatten, fun salt ikm => ?_, fun prk info length => ?_⟩
  · have mac := hmacFinal_flatten (if salt = [] then List.replicate 32 0 else salt) [ikm]
    rw [List.flatten_singleton] at mac
    unfold tlsHkdfExtract
    simp only [List.length_eq_zero_iff]
    exact mac
  · have loop := hkdfExpandLoop_blocks prk info length 0 length (Nat.le_refl _)
    simp only [Nat.zero_add] at loop
    exact loop

/-- Texts for labels, contexts and lengths that fit their fields are told apart. -/
theorem hkdfLabel_inj {label other : String} {context behind : Bytes} {length size : Nat}
    (labels : (ascii label).length ≤ 249 ∧ (ascii other).length ≤ 249)
    (contexts : context.length ≤ 255 ∧ behind.length ≤ 255) (lengths : length < 2 ^ 16 ∧ size < 2 ^ 16)
    (same : hkdfLabel label context length = hkdfLabel other behind size) :
    ascii label = ascii other ∧ context = behind ∧ length = size := by
  have byte : ∀ {first second : Nat}, first < 256 → second < 256 →
      UInt8.ofNat first = UInt8.ofNat second → first = second := by
    intro first second small little equal
    have value := congrArg UInt8.toNat equal
    rwa [UInt8.toNat_ofNat', UInt8.toNat_ofNat', Nat.mod_eq_of_lt small, Nat.mod_eq_of_lt little]
      at value
  unfold hkdfLabel store16 at same
  simp only [List.append_assoc, List.cons_append, List.nil_append, List.cons.injEq] at same
  obtain ⟨high, low, count, rest⟩ := same
  have names : (ascii label).length = (ascii other).length := by
    have := byte (by omega) (by omega) count
    omega
  obtain ⟨name, rest⟩ := List.append_inj (List.append_cancel_left rest) names
  refine ⟨name, (List.cons.inj rest).2, ?_⟩
  have top := byte (by omega) (by omega) high
  have bottom := congrArg UInt8.toNat low
  rw [UInt8.toNat_ofNat', UInt8.toNat_ofNat'] at bottom
  omega

theorem hkdfLabel_inj_keys : hkdfLabel "key" [] 16 ≠ hkdfLabel "iv" [] 16 := fun same =>
  absurd (hkdfLabel_inj (by decide +kernel) ⟨Nat.zero_le _, Nat.zero_le _⟩ (by decide) same).1
    (by decide +kernel)

end MectovOS.Tls
