/-
This file proves that both authenticated ciphers open what they seal, in place or
not, that they open a ciphertext exactly under the tag its sealing has, and that a
ciphertext they refuse leaves the memory as it is.
-/

import MectovOS.Tls.Aead
import MectovOS.Tls.Poly1305Kept

namespace MectovOS.Tls

open ByteMemory Keystream

/-! ### Tags -/

/-- Two tags are the same where all their differences together are none. -/
theorem tlsConstEq_iff {a b : Tls.Bytes} {n : Nat} (lengthA : a.length = n)
    (lengthB : b.length = n) : tlsConstEq a b n = true ↔ a = b := by
  have differences : ∀ count, (List.range count).foldl
      (fun diff i => diff ||| (a.getD i 0 ^^^ b.getD i 0)) (0 : UInt8) = 0 ↔
        ∀ i < count, a.getD i 0 = b.getD i 0 := by
    intro count
    induction count with
    | zero => exact ⟨fun _ i inside => absurd inside (Nat.not_lt_zero i), fun _ => rfl⟩
    | succ count induction =>
      rw [List.range_succ, List.foldl_append, List.foldl_cons, List.foldl_nil,
        UInt8.or_eq_zero_iff, UInt8.xor_eq_zero_iff, induction]
      constructor
      · rintro ⟨before, last⟩ i inside
        rcases Nat.lt_succ_iff_lt_or_eq.mp inside with below | rfl
        · exact before i below
        · exact last
      · intro all
        exact ⟨fun i inside => all i (by omega), all count (by omega)⟩
  unfold tlsConstEq
  rw [decide_eq_true_iff, differences]
  constructor
  · intro same
    refine List.ext_getElem (by omega) fun i inA inB => ?_
    have at_i := same i (by omega)
    rwa [List.getD_eq_getElem _ _ inA, List.getD_eq_getElem _ _ inB] at at_i
  · rintro rfl i _
    rfl

theorem chachaTag_length (key nonce aad ct : Tls.Bytes) :
    (chachaTag key nonce aad ct).length = 16 := rfl

/-- A word more makes the round keys four bytes longer. -/
theorem expandWord_length (rk : Tls.Bytes) (i : Nat) :
    (expandWord rk i).length = rk.length + 4 := by
  unfold expandWord
  rw [List.length_append]
  rfl

theorem tlsAes128KeyExpand_length {key : Tls.Bytes} (whole : 16 ≤ key.length) :
    (tlsAes128KeyExpand key).length = 176 := by
  have grown : ∀ (words : List Nat) (rk : Tls.Bytes),
      (words.foldl expandWord rk).length = rk.length + 4 * words.length := by
    intro words
    induction words with
    | nil => exact fun rk => rfl
    | cons word words induction =>
      intro rk
      rw [List.foldl_cons, induction, expandWord_length, List.length_cons]
      omega
  unfold tlsAes128KeyExpand
  rw [grown, List.length_take, List.length_range', Nat.min_eq_left whole]

/-- A block is as long as its last round key. -/
theorem tlsAes128EncryptBlock_length {rk : Tls.Bytes} (whole : rk.length = 176)
    (input : Tls.Bytes) : (tlsAes128EncryptBlock rk input).length = 16 := by
  unfold tlsAes128EncryptBlock
  rw [show List.range' 1 10 = List.range' 1 9 ++ [10] from rfl, List.foldl_append, List.foldl_cons,
    List.foldl_nil]
  show (List.zipWith _ (shiftRows _) _).length = 16
  rw [List.length_zipWith, List.length_take, List.length_drop, whole]
  rfl

theorem gcmTag_length {key : Tls.Bytes} (whole : 16 ≤ key.length) (j0 aad ct : Tls.Bytes) :
    (gcmTag (tlsAes128KeyExpand key) j0 aad ct).length = 16 := by
  unfold gcmTag
  rw [List.length_zipWith, tlsAes128EncryptBlock_length (tlsAes128KeyExpand_length whole)]
  rfl

/-! ### Sealing and opening -/

/-- What seals: the memory with the ciphertext, and the tag, for additional data, a memory, and
where the text begins, how long it is and where the ciphertext begins. -/
abbrev Seal := Tls.Bytes → ByteMemory.Bytes → Nat → Nat → Nat → ByteMemory.Bytes × Tls.Bytes

/-- What opens: the answer and the memory, for additional data, a memory, where the ciphertext
begins, how long it is, the tag, and where the text begins. -/
abbrev Opening :=
  Tls.Bytes → ByteMemory.Bytes → Nat → Nat → Tls.Bytes → Nat → Int × ByteMemory.Bytes

/-- A cipher opens what it seals, and nothing else. Text and ciphertext may lie in one place. -/
structure AeadRight (sealing : Seal) (opening : Opening) : Prop where
  /-- A ciphertext opens under its tag to the text it was sealed from, in any memory. -/
  roundTrip : ∀ aad memory pt len ct other place out, Ahead pt ct len → Ahead place out len →
    bytesAt other place len = bytesAt (sealing aad memory pt len ct).1 ct len →
      (opening aad other place len (sealing aad memory pt len ct).2 out).1 = 0 ∧
        bytesAt (opening aad other place len (sealing aad memory pt len ct).2 out).2 out len =
          bytesAt memory pt len
  /-- Every ciphertext is sealed from some text. -/
  sealed : ∀ aad memory ct len, ∃ source pt target, Ahead pt target len ∧
    bytesAt (sealing aad source pt len target).1 target len = bytesAt memory ct len
  /-- It opens exactly under the tag that the sealing computes. -/
  succeeds : ∀ aad memory ct len tag out source pt target, tag.length = 16 →
    bytesAt (sealing aad source pt len target).1 target len = bytesAt memory ct len →
      ((opening aad memory ct len tag out).1 = 0 ↔ tag = (sealing aad source pt len target).2)
  /-- A ciphertext that is refused leaves the memory as it is. -/
  refused : ∀ aad memory ct len tag out, (opening aad memory ct len tag out).1 ≠ 0 →
    opening aad memory ct len tag out = (-1, memory)
  /-- Nothing outside the output changes. -/
  confined : ∀ aad memory ct len tag out address, Ahead ct out len →
    address < out ∨ out + len ≤ address →
      (opening aad memory ct len tag out).2 address = memory address

section Ciphers

variable {Counter : Type} {size : Nat} {block : Counter → Tls.Bytes} {next : Counter → Counter}
  {counter : Counter} {tagOf : Tls.Bytes → Tls.Bytes → Tls.Bytes}

/-- The sum with a key stream, and a tag of what comes out. -/
def sealWith (size : Nat) (block : Counter → Tls.Bytes) (next : Counter → Counter)
    (counter : Counter) (tagOf : Tls.Bytes → Tls.Bytes → Tls.Bytes) : Seal :=
  fun aad memory pt ptlen ct =>
    let sealed := xorLoop size block next ptlen memory pt ct ptlen counter
    (sealed, tagOf aad (bytesAt sealed ct ptlen))

/-- The same sum where the tag is right. -/
def openWith (size : Nat) (block : Counter → Tls.Bytes) (next : Counter → Counter)
    (counter : Counter) (tagOf : Tls.Bytes → Tls.Bytes → Tls.Bytes) : Opening :=
  fun aad memory ct ctlen tag pt =>
    if tlsConstEq (tagOf aad (bytesAt memory ct ctlen)) tag 16 = false then (-1, memory)
    else (0, xorLoop size block next ctlen memory ct pt ctlen counter)

theorem openWith_zero (full : ∀ aad ct, (tagOf aad ct).length = 16) {aad tag : Tls.Bytes}
    (whole : tag.length = 16) (memory : ByteMemory.Bytes) (ct len out : Nat) :
    (openWith size block next counter tagOf aad memory ct len tag out).1 = 0 ↔
      tag = tagOf aad (bytesAt memory ct len) := by
  have equal := tlsConstEq_iff (full aad (bytesAt memory ct len)) whole
  unfold openWith
  by_cases same : tagOf aad (bytesAt memory ct len) = tag
  · rw [if_neg (by rw [equal.mpr same]; decide)]
    exact ⟨fun _ => same.symm, fun _ => rfl⟩
  · rw [if_pos (by rw [← Bool.not_eq_true, equal]; exact same)]
    exact ⟨fun zero => absurd (show (-1 : Int) = 0 from zero) (by decide),
      fun eq => absurd eq.symm same⟩

/-- A cipher of this kind is right whatever its blocks and its tags are. -/
theorem aeadRight_with (positive : 0 < size) (full : ∀ aad ct, (tagOf aad ct).length = 16) :
    AeadRight (sealWith size block next counter tagOf) (openWith size block next counter tagOf) where
  roundTrip := by
    intro aad memory pt len ct other place out ahead ahead' same
    have tag : (sealWith size block next counter tagOf aad memory pt len ct).2 =
        tagOf aad (bytesAt other place len) := by
      rw [same]
      rfl
    have opened := (@openWith_zero _ size block next counter _ full aad _ (tag ▸ full aad _) other
      place len out).mpr tag
    refine ⟨opened, ?_⟩
    unfold openWith at opened ⊢
    split at opened
    · exact absurd (show (-1 : Int) = 0 from opened) (by decide)
    · rename_i right
      rw [if_neg right]
      exact xorLoop_twice positive ahead ahead' same
  sealed := by
    intro aad memory ct len
    -- the text is the ciphertext summed with the key stream, put where the ciphertext was
    refine ⟨xorLoop size block next len memory ct ct len counter, ct, ct, Or.inl le_rfl, ?_⟩
    exact xorLoop_twice positive (Or.inl le_rfl) (Or.inl le_rfl) rfl
  succeeds := by
    intro aad memory ct len tag out source pt target whole same
    rw [openWith_zero full whole, ← same]
    rfl
  refused := by
    intro aad memory ct len tag out failed
    unfold openWith at failed ⊢
    split at failed
    · rename_i wrong
      rw [if_pos wrong]
    · exact absurd rfl failed
  confined := by
    intro aad memory ct len tag out address ahead outside
    unfold openWith
    split
    · rfl
    · exact (xorLoop_apply positive le_rfl ahead address).trans (if_neg (by omega))

end Ciphers

/-- Both ciphers are right, for every key and nonce. -/
theorem aeads_right (key16 : { key : Tls.Bytes // key.length = 16 }) (key nonce : Tls.Bytes) :
    AeadRight (tlsChacha20Poly1305Seal key nonce) (tlsChacha20Poly1305Open key nonce) ∧
      AeadRight (tlsAes128GcmSeal key16.1 nonce) (tlsAes128GcmOpen key16.1 nonce) :=
  ⟨@aeadRight_with _ 64 (tlsChacha20Block key nonce) (· + 1) 1 (chachaTag key nonce) (by decide)
      (chachaTag_length key nonce),
    @aeadRight_with _ 16 _ inc32 (gcmJ0 nonce) (gcmTag (tlsAes128KeyExpand key16.1) (gcmJ0 nonce))
      (by decide) (gcmTag_length key16.2.ge (gcmJ0 nonce))⟩

end MectovOS.Tls
