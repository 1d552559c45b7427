/-
This file proves when an element that `der_next` reads is the DER encoding of its tag
and body. The reader refuses a long form for a length below 128, but not one that is
longer than it must be: a first length byte of zero is read like any other.
-/

import MectovOS.Tls.Der
import Mathlib.Data.Nat.Digits.Lemmas

namespace MectovOS.Tls

/-! ### The encoding -/

/-- The bytes of a number, the highest first and not zero. -/
def shortestBytes (number : Nat) : Bytes := ((Nat.digits 256 number).map UInt8.ofNat).reverse

/-- The shortest definite length. -/
def derLengthBytes (length : Nat) : Bytes :=
  if length < 0x80 then [UInt8.ofNat length]
  else UInt8.ofNat (0x80 + (shortestBytes length).length) :: shortestBytes length

/-- The DER encoding of an element. -/
def derEncode (tag : UInt8) (body : Bytes) : Bytes := tag :: derLengthBytes body.length ++ body

/-- `der_next` at an offset: the element, and the offset behind it. -/
def derNextAt (buf : Bytes) (off : Nat) : Option (DerTlv × Nat) :=
  (derNext (buf.drop off)).map fun read => (read.1, off + read.1.whole.length)

/-- What an element read at an offset owes: its bytes are its encoding, it lies inside the buffer
and the offset moves on. -/
structure CanonicalRead (buf : Bytes) (off : Nat) (tlv : DerTlv) (next : Nat) : Prop where
  encoded : (buf.drop off).take (next - off) = derEncode tlv.tag tlv.body
  inside : next ≤ buf.length
  advances : off < next

/-- The length at an offset is in the short form, or its first byte behind the count is not zero. -/
def MinimalLength (buf : Bytes) (off : Nat) : Prop :=
  (buf.getD (off + 1) 0).toNat < 0x80 ∨ buf.getD (off + 2) 0 ≠ 0

/-! ### Numbers and their bytes -/

/-- Bytes with the highest first are the digits of their number when the highest is not zero. -/
theorem shortestBytes_foldl {digits : Bytes} (highest : digits.headD 0 ≠ 0) :
    shortestBytes (digits.foldl (fun length byte => length * 256 + byte.toNat) 0) = digits := by
  have number : digits.foldl (fun length byte => length * 256 + byte.toNat) 0 =
      Nat.ofDigits 256 (digits.reverse.map UInt8.toNat) := by
    rw [Nat.ofDigits_eq_foldr, List.foldr_map, List.foldr_reverse]
    refine List.foldl_ext _ _ _ fun length byte _ => ?_
    rw [Nat.cast_id]
    omega
  have small : ∀ digit ∈ digits.reverse.map UInt8.toNat, digit < 256 := by
    intro digit member
    obtain ⟨byte, -, rfl⟩ := List.mem_map.mp member
    exact UInt8.toNat_lt byte
  have last : ∀ some : digits.reverse.map UInt8.toNat ≠ [],
      (digits.reverse.map UInt8.toNat).getLast some ≠ 0 := by
    intro some zero
    cases digits with
    | nil => exact some rfl
    | cons first digits =>
      have shape : (List.map UInt8.toNat (first :: digits).reverse) =
          digits.reverse.map UInt8.toNat ++ [first.toNat] := by
        rw [List.reverse_cons, List.map_append, List.map_singleton]
      simp only [shape, List.getLast_concat] at zero
      exact highest (UInt8.toNat_inj.mp zero)
  unfold shortestBytes
  rw [number, Nat.digits_ofDigits 256 (by decide) _ small last, List.map_map]
  have back : (UInt8.ofNat ∘ UInt8.toNat) = id := funext fun byte => UInt8.ofNat_toNat
  rw [back, List.map_id, List.reverse_reverse]

/-- The highest byte of a number is not zero. -/
theorem shortestBytes_head {number : Nat} (positive : number ≠ 0) :
    (shortestBytes number).headD 0 ≠ 0 := by
  have some : Nat.digits 256 number ≠ [] := Nat.digits_ne_nil_iff_ne_zero.mpr positive
  have last := Nat.getLast_digit_ne_zero 256 positive
  have small := Nat.digits_lt_base (by decide : 1 < 256) (List.getLast_mem some)
  unfold shortestBytes
  rw [← List.map_reverse, List.headD_eq_head?_getD, List.head?_map, List.head?_reverse,
    List.getLast?_eq_getLast_of_ne_nil some]
  intro zero
  have value := congrArg UInt8.toNat zero
  rw [Option.map_some, Option.getD_some, UInt8.toNat_ofNat', Nat.mod_eq_of_lt small] at value
  exact last value

/-! ### Reading an element -/

theorem longForm (byte : UInt8) :
    (byte &&& 0x80 = 0 ↔ byte.toNat < 0x80) ∧ (byte &&& 0x7f).toNat = byte.toNat % 0x80 := by
  have all : ∀ value : Fin 256, (UInt8.ofFin value &&& 0x80 = 0 ↔ value.val < 0x80) ∧
      (UInt8.ofFin value &&& 0x7f).toNat = value.val % 0x80 := by
    decide +kernel
  exact all byte.toFin

/-- The two forms of a length. -/
theorem derLength_forms {bytes lengthBytes : Bytes} {length : Nat}
    (reads : derLength bytes = some (lengthBytes, length)) :
    (∃ behind, bytes = UInt8.ofNat length :: behind ∧ length < 0x80 ∧
        lengthBytes = [UInt8.ofNat length]) ∨
      ∃ digits behind, bytes = UInt8.ofNat (0x80 + digits.length) :: (digits ++ behind) ∧
        digits ≠ [] ∧ 0x80 ≤ length ∧
        length = digits.foldl (fun length byte => length * 256 + byte.toNat) 0 ∧
        lengthBytes = UInt8.ofNat (0x80 + digits.length) :: digits := by
  cases bytes with
  | nil => cases reads
  | cons first rest =>
    obtain ⟨short, count⟩ := longForm first
    have small := UInt8.toNat_lt first
    unfold derLength at reads
    dsimp only at reads
    split at reads
    · next clear =>
      obtain ⟨rfl, rfl⟩ := Prod.mk.inj (Option.some.inj reads)
      refine Or.inl ⟨rest, ?_, short.mp clear, ?_⟩ <;> rw [UInt8.ofNat_toNat]
    · next set =>
      rw [short] at set
      split at reads
      · cases reads
      · next few =>
        split at reads
        · cases reads
        · next enough =>
          split at reads
          · cases reads
          · next long =>
            obtain ⟨rfl, rfl⟩ := Prod.mk.inj (Option.some.inj reads)
            rw [count] at few enough long ⊢
            have taken : (rest.take (first.toNat % 0x80)).length = first.toNat % 0x80 := by
              rw [List.length_take]
              omega
            have head : UInt8.ofNat (0x80 + (rest.take (first.toNat % 0x80)).length) = first := by
              rw [taken, show 0x80 + first.toNat % 0x80 = first.toNat by omega, UInt8.ofNat_toNat]
            refine Or.inr ⟨rest.take (first.toNat % 0x80), rest.drop (first.toNat % 0x80), ?_, ?_,
              Nat.le_of_not_lt long, rfl, ?_⟩
            · rw [head, List.take_append_drop]
            · intro empty
              rw [empty] at taken
              exact few (Or.inl taken.symm)
            · rw [head]

/-- A long form has at most four bytes behind its count. -/
theorem derLength_count {bytes : Bytes} {length : Nat} {first : UInt8} {digits : Bytes}
    (reads : derLength bytes = some (first :: digits, length)) : digits.length ≤ 4 := by
  cases bytes with
  | nil => cases reads
  | cons head rest =>
    unfold derLength at reads
    dsimp only at reads
    split at reads
    · obtain ⟨same, -⟩ := Prod.mk.inj (Option.some.inj reads)
      rw [(List.cons.inj same).2.symm]
      exact Nat.zero_le _
    · split at reads
      · cases reads
      · next few =>
        split at reads
        · cases reads
        · split at reads
          · cases reads
          · obtain ⟨same, -⟩ := Prod.mk.inj (Option.some.inj reads)
            rw [(List.cons.inj same).2.symm, List.length_take]
            omega

/-- The bytes of a length are its shortest form exactly when the first behind the count is not
zero. -/
theorem derLength_shortest {bytes lengthBytes : Bytes} {length : Nat}
    (reads : derLength bytes = some (lengthBytes, length)) :
    lengthBytes = derLengthBytes length ↔ (bytes.getD 0 0).toNat < 0x80 ∨ bytes.getD 1 0 ≠ 0 := by
  rcases derLength_forms reads with ⟨behind, rfl, short, rfl⟩ |
    ⟨digits, behind, rfl, some, long, value, rfl⟩
  · unfold derLengthBytes
    rw [if_pos short, List.getD_cons_zero, UInt8.toNat_ofNat', Nat.mod_eq_of_lt (by omega)]
    exact ⟨fun _ => Or.inl short, fun _ => rfl⟩
  · obtain ⟨first, digits, rfl⟩ := List.exists_cons_of_ne_nil some
    have few := derLength_count reads
    have above : ¬ (UInt8.ofNat (0x80 + (first :: digits).length)).toNat < 0x80 := by
      rw [UInt8.toNat_ofNat', Nat.mod_eq_of_lt (by omega)]
      omega
    unfold derLengthBytes
    rw [if_neg (by omega), List.getD_cons_zero, List.getD_cons_succ, List.cons_append,
      List.getD_cons_zero]
    refine ⟨fun same => Or.inr ?_, fun minimal => ?_⟩
    · have tail := (List.cons.inj same).2
      have head := shortestBytes_head (show length ≠ 0 by omega)
      rw [← tail] at head
      exact head
    · have highest : (first :: digits).headD 0 ≠ 0 := minimal.resolve_left above
      rw [value, shortestBytes_foldl highest]

/-- What an element is made of: its bytes stand in front of the rest, and its length is read. -/
theorem derNext_whole {bytes rest : Bytes} {tlv : DerTlv} (reads : derNext bytes = some (tlv, rest)) :
    bytes = tlv.whole ++ rest ∧ ∃ lengthBytes behind, bytes = tlv.tag :: behind ∧
      tlv.head = tlv.tag :: lengthBytes ∧
      derLength behind = some (lengthBytes, tlv.body.length) := by
  cases bytes with
  | nil => cases reads
  | cons tag behind =>
    unfold derNext at reads
    dsimp only at reads
    split at reads
    · cases reads
    · split at reads
      · cases reads
      · next lengthBytes length read =>
        split at reads
        · cases reads
        · next enough =>
          obtain ⟨rfl, rfl⟩ := Prod.mk.inj (Option.some.inj reads)
          have cut : behind = lengthBytes ++ behind.drop lengthBytes.length := by
            rcases derLength_forms read with ⟨rest, rfl, -, rfl⟩ | ⟨digits, rest, rfl, -, -, -, rfl⟩
            · rfl
            · rw [List.length_cons, List.drop_succ_cons, List.drop_left, List.cons_append]
          have full : ((behind.drop lengthBytes.length).take length).length = length := by
            rw [List.length_take]
            omega
          refine ⟨?_, lengthBytes, behind, rfl, rfl, ?_⟩
          · unfold DerTlv.whole
            rw [List.append_assoc, List.take_append_drop, List.cons_append, ← cut]
          · rw [full]
            exact read

/-- The bytes of an element are its encoding exactly when its length is minimal. -/
theorem derNext_encoded {bytes rest : Bytes} {tlv : DerTlv}
    (reads : derNext bytes = some (tlv, rest)) :
    tlv.whole = derEncode tlv.tag tlv.body ↔
      (bytes.getD 1 0).toNat < 0x80 ∨ bytes.getD 2 0 ≠ 0 := by
  obtain ⟨-, lengthBytes, behind, rfl, head, read⟩ := derNext_whole reads
  unfold DerTlv.whole derEncode
  rw [head, List.getD_cons_succ, List.getD_cons_succ, ← derLength_shortest read, List.cons_append,
    List.cons_append, List.cons_inj_right, List.append_cancel_right_eq]

/-- An element read at an offset is read canonically exactly when its length is minimal, and only
one encoding of an element is read that way. -/
theorem derNextAt_canonical_iff (buf : Bytes) (off : Nat) (tlv : DerTlv) (next : Nat)
    (reads : derNextAt buf off = some (tlv, next)) :
    (CanonicalRead buf off tlv next ↔ MinimalLength buf off) ∧
    ∀ (other : Bytes) (at' : Nat) (same : DerTlv) (end' : Nat),
      derNextAt other at' = some (same, end') →
      MinimalLength buf off → MinimalLength other at' → tlv.tag = same.tag → tlv.body = same.body →
      (buf.drop off).take (next - off) = (other.drop at').take (end' - at') := by
  have canonical : ∀ (buf : Bytes) (off : Nat) (tlv : DerTlv) (next : Nat),
      derNextAt buf off = some (tlv, next) →
      (CanonicalRead buf off tlv next ↔ MinimalLength buf off) := by
    intro buf off tlv next reads
    obtain ⟨read, is, same⟩ := Option.map_eq_some_iff.mp reads
    obtain ⟨rfl, rfl⟩ := Prod.mk.inj same
    obtain ⟨cut, lengthBytes, behind, -, head, -⟩ := derNext_whole (show derNext _ = some read from is)
    have encoded := derNext_encoded (show derNext _ = some read from is)
    have taken : (buf.drop off).take (off + read.1.whole.length - off) = read.1.whole := by
      rw [Nat.add_sub_cancel_left, cut, List.take_left]
    have inside := congrArg List.length cut
    rw [List.length_drop, List.length_append] at inside
    have some : 0 < read.1.whole.length := by
      unfold DerTlv.whole
      rw [head, List.cons_append, List.length_cons]
      exact Nat.succ_pos _
    have moved : ∀ i, (buf.drop off).getD i 0 = buf.getD (off + i) 0 := fun i => by
      rw [List.getD_eq_getElem?_getD, List.getD_eq_getElem?_getD, List.getElem?_drop]
    rw [moved, moved] at encoded
    exact ⟨fun canonical => encoded.mp (taken ▸ canonical.encoded), fun minimal =>
      ⟨taken.trans (encoded.mpr minimal), by omega, by omega⟩⟩
  refine ⟨canonical buf off tlv next reads, fun other at' same end' reads' minimal minimal' tag
    body => ?_⟩
  rw [((canonical _ _ _ _ reads).mpr minimal).encoded, ((canonical _ _ _ _ reads').mpr minimal').encoded,
    tag, body]

/-- An OCTET STRING of 128 bytes, and the same with a length of two bytes. -/
def shortOctets : Bytes := 0x04 :: 0x81 :: 0x80 :: List.replicate 128 0

def longOctets : Bytes := 0x04 :: 0x82 :: 0x00 :: 0x80 :: List.replicate 128 0

theorem derNextAt_canonical_octets :
    CanonicalRead shortOctets 0 ⟨0x04, [0x04, 0x81, 0x80], List.replicate 128 0⟩ 131 ∧
      ¬ CanonicalRead longOctets 0 ⟨0x04, [0x04, 0x82, 0x00, 0x80], List.replicate 128 0⟩ 132 :=
  ⟨(derNextAt_canonical_iff shortOctets 0 _ 131 (by decide +kernel)).1.mpr (by
      unfold MinimalLength
      decide +kernel),
    fun canonical => absurd
      ((derNextAt_canonical_iff longOctets 0 _ 132 (by decide +kernel)).1.mp canonical) (by
        unfold MinimalLength
        decide +kernel)⟩

/-- The two are read as one element. -/
theorem derNextAt_longer :
    ¬ ∀ (buf other : Bytes) (off at' : Nat) (tlv same : DerTlv) (next end' : Nat),
      derNextAt buf off = some (tlv, next) → derNextAt other at' = some (same, end') →
      tlv.tag = same.tag → tlv.body = same.body →
      (buf.drop off).take (next - off) = (other.drop at').take (end' - at') := by
  intro only
  have same := only shortOctets longOctets 0 0 ⟨0x04, [0x04, 0x81, 0x80], List.replicate 128 0⟩
    ⟨0x04, [0x04, 0x82, 0x00, 0x80], List.replicate 128 0⟩ 131 132 (by decide +kernel) (by decide +kernel) rfl rfl
  exact absurd same (by decide +kernel)

end MectovOS.Tls
