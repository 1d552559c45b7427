/-
This file models the authenticated ciphers of src/apps/lib/tls/tls_cipher.c on a byte
memory that holds the text and the ciphertext, which may be one buffer. Key, nonce,
additional data and tag lie outside of it.
-/

import MectovOS.Tls.Ciphers
import MectovOS.Lib.Keystream

namespace MectovOS.Tls

open ByteMemory Keystream

/-- `tls_const_eq`. -/
def tlsConstEq (a b : Tls.Bytes) (n : Nat) : Bool :=
  (List.range n).foldl (fun diff i => diff ||| (a.getD i 0 ^^^ b.getD i 0)) (0 : UInt8) = 0

/-! ### ChaCha20 with Poly1305 -/

/-- `tls_chacha20_xor`. -/
def tlsChacha20Xor (key nonce : Tls.Bytes) (counter : UInt32) (memory : ByteMemory.Bytes)
    (input output len : Nat) : ByteMemory.Bytes :=
  xorLoop 64 (tlsChacha20Block key nonce) (· + 1) len memory input output len counter

/-- `aead_pad16`. -/
def aeadPad16 (p : Poly1305Ctx) (len : Nat) : Poly1305Ctx :=
  if len % 16 ≠ 0 then poly1305Update p (List.replicate (16 - len % 16) 0) else p

/-- The bytes of the two lengths, each in 64 bits. -/
def lengthBytes (aadlen ctlen : Nat) : Tls.Bytes :=
  (List.range 8).map (fun i => UInt8.ofNat (aadlen >>> (8 * i))) ++
    (List.range 8).map fun i => UInt8.ofNat (ctlen >>> (8 * i))

/-- `aead_mac`. -/
def aeadMac (p : Poly1305Ctx) (aad ct : Tls.Bytes) : Poly1305Ctx :=
  let p := aeadPad16 (poly1305Update p aad) aad.length
  let p := aeadPad16 (poly1305Update p ct) ct.length
  poly1305Update p (lengthBytes aad.length ct.length)

/-- The tag of a ciphertext. -/
def chachaTag (key nonce aad ct : Tls.Bytes) : Tls.Bytes :=
  let otk := tlsChacha20Block key nonce 0
  poly1305Final (aeadMac (poly1305Init otk) aad ct)

/-- `tls_chacha20_poly1305_seal`: the memory with the ciphertext, and the tag. -/
def tlsChacha20Poly1305Seal (key nonce aad : Tls.Bytes) (memory : ByteMemory.Bytes)
    (pt ptlen ct : Nat) : ByteMemory.Bytes × Tls.Bytes :=
  let sealed := tlsChacha20Xor key nonce 1 memory pt ct ptlen
  (sealed, chachaTag key nonce aad (bytesAt sealed ct ptlen))

/-- `tls_chacha20_poly1305_open`: what it returns, and the memory. -/
def tlsChacha20Poly1305Open (key nonce aad : Tls.Bytes) (memory : ByteMemory.Bytes)
    (ct ctlen : Nat) (tag : Tls.Bytes) (pt : Nat) : Int × ByteMemory.Bytes :=
  let expect := chachaTag key nonce aad (bytesAt memory ct ctlen)
  if tlsConstEq expect tag 16 = false then (-1, memory)
  else (0, tlsChacha20Xor key nonce 1 memory ct pt ctlen)

/-! ### AES-128-GCM -/

/-- The counter in the last four bytes, one further. -/
def inc32 (ctr : Tls.Bytes) : Tls.Bytes :=
  let rec carry : Nat → Tls.Bytes → Tls.Bytes
    | 0, ctr => ctr
    | count + 1, ctr =>
      let i := 12 + count
      let byte := ctr.getD i 0 + 1
      let ctr := ctr.set i byte
      if byte ≠ 0 then ctr else carry count ctr
  carry 4 ctr

/-- `gcm_ctr`. -/
def gcmCtr (rk icb : Tls.Bytes) (memory : ByteMemory.Bytes) (input output len : Nat) :
    ByteMemory.Bytes :=
  xorLoop 16 (fun ctr => tlsAes128EncryptBlock rk (inc32 ctr)) inc32 len memory input output len icb

/-- `gcm_j0`. -/
def gcmJ0 (nonce : Tls.Bytes) : Tls.Bytes := nonce.take 12 ++ [0, 0, 0, 1]

/-- The bytes of the two lengths in bits, each in 64 bits with the highest first. -/
def bitLengthBytes (aadlen ctlen : Nat) : Tls.Bytes :=
  (List.range 8).map (fun i => UInt8.ofNat ((aadlen * 8) >>> (56 - 8 * i))) ++
    (List.range 8).map fun i => UInt8.ofNat ((ctlen * 8) >>> (56 - 8 * i))

/-- `gcm_tag`. -/
def gcmTag (rk j0 aad ct : Tls.Bytes) : Tls.Bytes :=
  let subkey := tlsAes128EncryptBlock rk (List.replicate 16 0)
  let g := ghashPad (ghashUpdate (ghashInit subkey) aad)
  let g := ghashPad (ghashUpdate g ct)
  let g := ghashUpdate g (bitLengthBytes aad.length ct.length)
  List.zipWith (· ^^^ ·) (ghashFinal g) (tlsAes128EncryptBlock rk j0)

/-- `tls_aes128_gcm_seal`. -/
def tlsAes128GcmSeal (key nonce aad : Tls.Bytes) (memory : ByteMemory.Bytes)
    (pt ptlen ct : Nat) : ByteMemory.Bytes × Tls.Bytes :=
  let rk := tlsAes128KeyExpand key
  let j0 := gcmJ0 nonce
  let sealed := gcmCtr rk j0 memory pt ct ptlen
  (sealed, gcmTag rk j0 aad (bytesAt sealed ct ptlen))

/-- `tls_aes128_gcm_open`. -/
def tlsAes128GcmOpen (key nonce aad : Tls.Bytes) (memory : ByteMemory.Bytes)
    (ct ctlen : Nat) (tag : Tls.Bytes) (pt : Nat) : Int × ByteMemory.Bytes :=
  let rk := tlsAes128KeyExpand key
  let j0 := gcmJ0 nonce
  let expect := gcmTag rk j0 aad (bytesAt memory ct ctlen)
  if tlsConstEq expect tag 16 = false then (-1, memory)
  else (0, gcmCtr rk j0 memory ct pt ctlen)

end MectovOS.Tls
