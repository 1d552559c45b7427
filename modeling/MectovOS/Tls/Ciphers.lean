/-
This file models the ciphers of src/apps/lib/tls/tls_cipher.c: the ChaCha20 block,
AES-128 with its key expansion, and GHASH with its buffer of at most one block.
-/

import MectovOS.Tls.Poly1305

namespace MectovOS.Tls

/-! ### ChaCha20 -/

/-- The sixteen words of ChaCha20. -/
abbrev ChaChaState := Vector UInt32 16

/-- `ROTL32`. -/
def rotl32 (x n : UInt32) : UInt32 := (x <<< n) ||| (x >>> (32 - n))

/-- `CHACHA_QR`. -/
def chachaQr (w : ChaChaState) (a b c d : Fin 16) : ChaChaState :=
  let w := w.set a (w[a] + w[b])
  let w := w.set d (rotl32 (w[d] ^^^ w[a]) 16)
  let w := w.set c (w[c] + w[d])
  let w := w.set b (rotl32 (w[b] ^^^ w[c]) 12)
  let w := w.set a (w[a] + w[b])
  let w := w.set d (rotl32 (w[d] ^^^ w[a]) 8)
  let w := w.set c (w[c] + w[d])
  w.set b (rotl32 (w[b] ^^^ w[c]) 7)

/-- A double round. -/
def chachaDoubleRound (w : ChaChaState) : ChaChaState :=
  let w := chachaQr w 0 4 8 12
  let w := chachaQr w 1 5 9 13
  let w := chachaQr w 2 6 10 14
  let w := chachaQr w 3 7 11 15
  let w := chachaQr w 0 5 10 15
  let w := chachaQr w 1 6 11 12
  let w := chachaQr w 2 7 8 13
  chachaQr w 3 4 9 14

/-- The words a block starts from. -/
def chachaStart (key : Bytes) (counter : UInt32) (nonce : Bytes) : ChaChaState :=
  #v[0x61707865, 0x3320646e, 0x79622d32, 0x6b206574,
    le32 key 0, le32 key 4, le32 key 8, le32 key 12,
    le32 key 16, le32 key 20, le32 key 24, le32 key 28,
    counter, le32 nonce 0, le32 nonce 4, le32 nonce 8]

/-- `tls_chacha20_block`. -/
def tlsChacha20Block (key nonce : Bytes) (counter : UInt32) : Bytes :=
  let start := chachaStart key counter nonce
  let mixed := chachaDoubleRound^[10] start
  (List.zipWith (fun mixed start => le32Store (mixed + start)) mixed.toList start.toList).flatten

/-! ### AES-128 -/

/-- `sbox`. -/
def sbox : Array UInt8 :=
  #[
    0x63, 0x7c, 0x77, 0x7b, 0xf2, 0x6b, 0x6f, 0xc5, 0x30, 0x01, 0x67, 0x2b, 0xfe, 0xd7, 0xab, 0x76,
    0xca, 0x82, 0xc9, 0x7d, 0xfa, 0x59, 0x47, 0xf0, 0xad, 0xd4, 0xa2, 0xaf, 0x9c, 0xa4, 0x72, 0xc0,
    0xb7, 0xfd, 0x93, 0x26, 0x36, 0x3f, 0xf7, 0xcc, 0x34, 0xa5, 0xe5, 0xf1, 0x71, 0xd8, 0x31, 0x15,
    0x04, 0xc7, 0x23, 0xc3, 0x18, 0x96, 0x05, 0x9a, 0x07, 0x12, 0x80, 0xe2, 0xeb, 0x27, 0xb2, 0x75,
    0x09, 0x83, 0x2c, 0x1a, 0x1b, 0x6e, 0x5a, 0xa0, 0x52, 0x3b, 0xd6, 0xb3, 0x29, 0xe3, 0x2f, 0x84,
    0x53, 0xd1, 0x00, 0xed, 0x20, 0xfc, 0xb1, 0x5b, 0x6a, 0xcb, 0xbe, 0x39, 0x4a, 0x4c, 0x58, 0xcf,
    0xd0, 0xef, 0xaa, 0xfb, 0x43, 0x4d, 0x33, 0x85, 0x45, 0xf9, 0x02, 0x7f, 0x50, 0x3c, 0x9f, 0xa8,
    0x51, 0xa3, 0x40, 0x8f, 0x92, 0x9d, 0x38, 0xf5, 0xbc, 0xb6, 0xda, 0x21, 0x10, 0xff, 0xf3, 0xd2,
    0xcd, 0x0c, 0x13, 0xec, 0x5f, 0x97, 0x44, 0x17, 0xc4, 0xa7, 0x7e, 0x3d, 0x64, 0x5d, 0x19, 0x73,
    0x60, 0x81, 0x4f, 0xdc, 0x22, 0x2a, 0x90, 0x88, 0x46, 0xee, 0xb8, 0x14, 0xde, 0x5e, 0x0b, 0xdb,
    0xe0, 0x32, 0x3a, 0x0a, 0x49, 0x06, 0x24, 0x5c, 0xc2, 0xd3, 0xac, 0x62, 0x91, 0x95, 0xe4, 0x79,
    0xe7, 0xc8, 0x37, 0x6d, 0x8d, 0xd5, 0x4e, 0xa9, 0x6c, 0x56, 0xf4, 0xea, 0x65, 0x7a, 0xae, 0x08,
    0xba, 0x78, 0x25, 0x2e, 0x1c, 0xa6, 0xb4, 0xc6, 0xe8, 0xdd, 0x74, 0x1f, 0x4b, 0xbd, 0x8b, 0x8a,
    0x70, 0x3e, 0xb5, 0x66, 0x48, 0x03, 0xf6, 0x0e, 0x61, 0x35, 0x57, 0xb9, 0x86, 0xc1, 0x1d, 0x9e,
    0xe1, 0xf8, 0x98, 0x11, 0x69, 0xd9, 0x8e, 0x94, 0x9b, 0x1e, 0x87, 0xe9, 0xce, 0x55, 0x28, 0xdf,
    0x8c, 0xa1, 0x89, 0x0d, 0xbf, 0xe6, 0x42, 0x68, 0x41, 0x99, 0x2d, 0x0f, 0xb0, 0x54, 0xbb, 0x16]

/-- A byte through the table. -/
def subByte (x : UInt8) : UInt8 := sbox.getD x.toNat 0

/-- `xtime`. -/
def xtime (x : UInt8) : UInt8 := (x <<< 1) ^^^ (if x &&& 0x80 ≠ 0 then 0x1b else 0)

/-- `rcon`. -/
def rcon : Bytes := [0x00, 0x01, 0x02, 0x04, 0x08, 0x10, 0x20, 0x40, 0x80, 0x1b, 0x36]

/-- One word of the round keys behind those there are. -/
def expandWord (rk : Bytes) (i : Nat) : Bytes :=
  let byte (word place : Nat) := rk.getD (word * 4 + place) 0
  let t0 := byte (i - 1) 0
  let t1 := byte (i - 1) 1
  let t2 := byte (i - 1) 2
  let t3 := byte (i - 1) 3
  let (t0, t1, t2, t3) :=
    if i % 4 = 0 then (subByte t1 ^^^ rcon.getD (i / 4) 0, subByte t2, subByte t3, subByte t0)
    else (t0, t1, t2, t3)
  rk ++ [byte (i - 4) 0 ^^^ t0, byte (i - 4) 1 ^^^ t1, byte (i - 4) 2 ^^^ t2, byte (i - 4) 3 ^^^ t3]

/-- `tls_aes128_key_expand`. -/
def tlsAes128KeyExpand (key : Bytes) : Bytes := (List.range' 4 40).foldl expandWord (key.take 16)

/-- The rows of the state, turned. -/
def shiftRows (s : Bytes) : Bytes :=
  [0, 5, 10, 15, 4, 9, 14, 3, 8, 13, 2, 7, 12, 1, 6, 11].map fun place => s.getD place 0

/-- One column of the state, mixed. -/
def mixColumn (a0 a1 a2 a3 : UInt8) : Bytes :=
  let x := a0 ^^^ a1 ^^^ a2 ^^^ a3
  [a0 ^^^ x ^^^ xtime (a0 ^^^ a1), a1 ^^^ x ^^^ xtime (a1 ^^^ a2),
    a2 ^^^ x ^^^ xtime (a2 ^^^ a3), a3 ^^^ x ^^^ xtime (a3 ^^^ a0)]

/-- The columns of the state, mixed. -/
def mixColumns (s : Bytes) : Bytes :=
  [0, 1, 2, 3].flatMap fun c =>
    mixColumn (s.getD (4 * c) 0) (s.getD (4 * c + 1) 0) (s.getD (4 * c + 2) 0)
      (s.getD (4 * c + 3) 0)

/-- The state with a round key. -/
def addRoundKey (s rk : Bytes) (round : Nat) : Bytes :=
  List.zipWith (· ^^^ ·) s ((rk.drop (round * 16)).take 16)

/-- One round of `tls_aes128_encrypt_block`. -/
def aesRound (rk s : Bytes) (round : Nat) : Bytes :=
  let s := shiftRows (s.map subByte)
  let s := if round ≠ 10 then mixColumns s else s
  addRoundKey s rk round

/-- `tls_aes128_encrypt_block`. -/
def tlsAes128EncryptBlock (rk input : Bytes) : Bytes :=
  (List.range' 1 10).foldl (aesRound rk) (addRoundKey (input.take 16) rk 0)

/-! ### GHASH -/

/-- `tls_load32` at an offset. -/
def tlsLoad32 (p : Bytes) (offset : Nat) : UInt32 :=
  (p.getD offset 0).toUInt32 <<< 24 ||| (p.getD (offset + 1) 0).toUInt32 <<< 16 |||
    (p.getD (offset + 2) 0).toUInt32 <<< 8 ||| (p.getD (offset + 3) 0).toUInt32

/-- Four words of a block. -/
def loadWords (p : Bytes) : Words := ⟨tlsLoad32 p 0, tlsLoad32 p 4, tlsLoad32 p 8, tlsLoad32 p 12⟩

/-- The sum of four words with four others. -/
def Words.xor (x y : Words) : Words := ⟨x.w0 ^^^ y.w0, x.w1 ^^^ y.w1, x.w2 ^^^ y.w2, x.w3 ^^^ y.w3⟩

/-- One of four words. -/
def Words.word (x : Words) : Nat → UInt32
  | 0 => x.w0
  | 1 => x.w1
  | 2 => x.w2
  | _ => x.w3

/-- One round of `gf_mul` on the product and the multiple of `h`. -/
def gfStep (x : Words) (product : Words × Words) (i : Nat) : Words × Words :=
  let (z, v) := product
  let bit := (x.word (i / 32) >>> UInt32.ofNat (31 - i % 32)) &&& 1
  let z := if bit ≠ 0 then z.xor v else z
  let shifted : Words :=
    { w3 := (v.w3 >>> 1) ||| (v.w2 <<< 31)
      w2 := (v.w2 >>> 1) ||| (v.w1 <<< 31)
      w1 := (v.w1 >>> 1) ||| (v.w0 <<< 31)
      w0 := v.w0 >>> 1 }
  (z, if v.w3 &&& 1 ≠ 0 then { shifted with w0 := shifted.w0 ^^^ 0xe1000000 } else shifted)

/-- `gf_mul`. -/
def gfMul (x h : Words) : Words := ((List.range 128).foldl (gfStep x) (⟨0, 0, 0, 0⟩, h)).1

/-- `ghash_ctx`, with the bytes that `buf` holds. -/
structure GhashCtx where
  y : Words
  h : Words
  buf : Bytes

/-- `ghash_init`. -/
def ghashInit (subkey : Bytes) : GhashCtx := ⟨⟨0, 0, 0, 0⟩, loadWords subkey, []⟩

/-- `ghash_absorb`. -/
def ghashAbsorb (h y : Words) (block : Bytes) : Words := gfMul (y.xor (loadWords block)) h

/-- `ghash_update`. -/
def ghashUpdate (g : GhashCtx) (p : Bytes) : GhashCtx :=
  let (y, buf) := Absorb.update 16 (ghashAbsorb g.h) (g.y, g.buf) p
  { g with y := y, buf := buf }

/-- `ghash_pad`. -/
def ghashPad (g : GhashCtx) : GhashCtx :=
  if g.buf = [] then g
  else
    let block := g.buf ++ List.replicate (16 - g.buf.length) 0
    { g with y := ghashAbsorb g.h g.y block, buf := [] }

/-- The bytes of a word, the highest first. -/
def be32Store (v : UInt32) : Bytes :=
  [(v >>> 24).toUInt8, (v >>> 16).toUInt8, (v >>> 8).toUInt8, v.toUInt8]

/-- `ghash_final`. -/
def ghashFinal (g : GhashCtx) : Bytes :=
  be32Store g.y.w0 ++ be32Store g.y.w1 ++ be32Store g.y.w2 ++ be32Store g.y.w3

end MectovOS.Tls
