/-
This file models src/apps/lib/tls/tls_hash.c: the streaming SHA-256, whose context and
compression are those of the kernel's, and the one-shot SHA-384 and SHA-512.
-/

import MectovOS.Lib.Sha2
import MectovOS.Passwd.Sha256
import MectovOS.Tls.Connection

namespace MectovOS.Tls

open Sha2 (Hash)
open Passwd (Sha256)

/-! ### SHA-256 -/

/-- The loop of `tls_sha256_update`, which fills a block and compresses it. -/
def sha256UpdateLoop : Nat → Sha256 → Bytes → Sha256
  | 0, c, _ => c
  | fuel + 1, c, data =>
    if data = [] then c
    else
      let take := 64 - c.block.length
      let filled := c.block ++ data.take take
      if filled.length = 64 then
        sha256UpdateLoop fuel ⟨Passwd.compress c.state filled, c.totalLen, []⟩ (data.drop take)
      else sha256UpdateLoop fuel ⟨c.state, c.totalLen, filled⟩ (data.drop take)

/-- `tls_sha256_update`. `sha256_update` of the kernel has the same text. -/
def tlsSha256Update (c : Sha256) (data : Bytes) : Sha256 :=
  sha256UpdateLoop data.length { c with totalLen := c.totalLen + UInt64.ofNat data.length } data

/-- The zeros of `tls_sha256_final`. -/
def tlsSha256Zeros : Nat → Sha256 → Sha256
  | 0, c => c
  | fuel + 1, c => if c.block.length = 56 then c else tlsSha256Zeros fuel (tlsSha256Update c [0])

/-- `tls_sha256_final`. `sha256_final` of the kernel has the same text. -/
def tlsSha256Final (c : Sha256) : Bytes :=
  let bits := c.totalLen * 8
  let c := tlsSha256Zeros 64 (tlsSha256Update c [0x80])
  let lenb := (List.range 8).map fun i => (bits >>> (56 - i * 8).toUInt64).toUInt8
  let h := (tlsSha256Update c lenb).state
  [h.a, h.b, h.c, h.d, h.e, h.f, h.g, h.h].flatMap Passwd.wordBytes

/-! ### SHA-512 -/

/-- `K512`. -/
def k512 : List UInt64 :=
  [0x428a2f98d728ae22, 0x7137449123ef65cd, 0xb5c0fbcfec4d3b2f, 0xe9b5dba58189dbbc,
   0x3956c25bf348b538, 0x59f111f1b605d019, 0x923f82a4af194f9b, 0xab1c5ed5da6d8118,
   0xd807aa98a3030242, 0x12835b0145706fbe, 0x243185be4ee4b28c, 0x550c7dc3d5ffb4e2,
   0x72be5d74f27b896f, 0x80deb1fe3b1696b1, 0x9bdc06a725c71235, 0xc19bf174cf692694,
   0xe49b69c19ef14ad2, 0xefbe4786384f25e3, 0x0fc19dc68b8cd5b5, 0x240ca1cc77ac9c65,
   0x2de92c6f592b0275, 0x4a7484aa6ea6e483, 0x5cb0a9dcbd41fbd4, 0x76f988da831153b5,
   0x983e5152ee66dfab, 0xa831c66d2db43210, 0xb00327c898fb213f, 0xbf597fc7beef0ee4,
   0xc6e00bf33da88fc2, 0xd5a79147930aa725, 0x06ca6351e003826f, 0x142929670a0e6e70,
   0x27b70a8546d22ffc, 0x2e1b21385c26c926, 0x4d2c6dfc5ac42aed, 0x53380d139d95b3df,
   0x650a73548baf63de, 0x766a0abb3c77b2a8, 0x81c2c92e47edaee6, 0x92722c851482353b,
   0xa2bfe8a14cf10364, 0xa81a664bbc423001, 0xc24b8b70d0f89791, 0xc76c51a30654be30,
   0xd192e819d6ef5218, 0xd69906245565a910, 0xf40e35855771202a, 0x106aa07032bbd1b8,
   0x19a4c116b8d2d0c8, 0x1e376c085141ab53, 0x2748774cdf8eeb99, 0x34b0bcb5e19b48a8,
   0x391c0cb3c5c95a63, 0x4ed8aa4ae3418acb, 0x5b9cca4f7763e373, 0x682e6ff3d6b2b8a3,
   0x748f82ee5defb2fc, 0x78a5636f43172f60, 0x84c87814a1f0ab72, 0x8cc702081a6439ec,
   0x90befffa23631e28, 0xa4506cebde82bde9, 0xbef9a3f7b2c67915, 0xc67178f2e372532b,
   0xca273eceea26619c, 0xd186b8c721c0c207, 0xeada7dd6cde0eb1e, 0xf57d4f7fee6ed178,
   0x06f067aa72176fba, 0x0a637dc5a2c898a6, 0x113f9804bef90dae, 0x1b710b35131c471b,
   0x28db77f523047d84, 0x32caab7b40c72493, 0x3c9ebe0a15c9bebc, 0x431d67c49c100d4c,
   0x4cc5d4becb3e42b6, 0x597f299cfc657e2a, 0x5fcb6fab3ad6faec, 0x6c44198c4a475817]

/-- `ror64`. -/
def ror64 (x n : UInt64) : UInt64 := (x >>> n) ||| (x <<< (64 - n))

/-- The first sixteen words `w`. -/
def sha512BlockWords (p : Bytes) : List UInt64 :=
  (List.range 16).map fun i =>
    (List.range 8).foldl (fun v k => (v <<< 8) ||| (p.getD (i * 8 + k) 0).toUInt64) 0

/-- The next word `w` behind those so far. -/
def sha512NextWord (w : List UInt64) : UInt64 :=
  let back (count : Nat) := w.getD (w.length - count) 0
  let s0 := ror64 (back 15) 1 ^^^ ror64 (back 15) 8 ^^^ (back 15 >>> 7)
  let s1 := ror64 (back 2) 19 ^^^ ror64 (back 2) 61 ^^^ (back 2 >>> 6)
  back 16 + s0 + back 7 + s1

/-- One of the 80 rounds. -/
def sha512Round (v : Hash UInt64) (key word : UInt64) : Hash UInt64 :=
  let s1 := ror64 v.e 14 ^^^ ror64 v.e 18 ^^^ ror64 v.e 41
  let ch := (v.e &&& v.f) ^^^ (~~~v.e &&& v.g)
  let t1 := v.h + s1 + ch + key + word
  let s0 := ror64 v.a 28 ^^^ ror64 v.a 34 ^^^ ror64 v.a 39
  let maj := (v.a &&& v.b) ^^^ (v.a &&& v.c) ^^^ (v.b &&& v.c)
  let t2 := s0 + maj
  { a := t1 + t2, b := v.a, c := v.b, d := v.c, e := v.d + t1, f := v.e, g := v.f, h := v.g }

/-- `sha512_compress`. -/
def sha512Compress (h : Hash UInt64) (p : Bytes) : Hash UInt64 :=
  let w := (List.range 64).foldl (fun w _ => w ++ [sha512NextWord w]) (sha512BlockWords p)
  h.add ((k512.zip w).foldl (fun v pair => sha512Round v pair.1 pair.2) h)

/-- The bytes of a word, the highest first. -/
def word64Bytes (h : UInt64) : Bytes :=
  (List.range 8).map fun k => (h >>> (56 - 8 * k).toUInt64).toUInt8

/-- `sha512_family`. -/
def sha512Family (data : Bytes) (outlen : Nat) (iv : Hash UInt64) : Bytes :=
  let full := data.length / 128
  let h := (List.range full).foldl
    (fun h i => sha512Compress h ((data.drop (i * 128)).take 128)) iv
  let tail := data.drop (full * 128) ++ [0x80]
  let blocks := if 112 < tail.length then 2 else 1
  let tail := tail ++ List.replicate (blocks * 128 - tail.length) 0
  let bits := UInt64.ofNat data.length * 8
  let tail := tail.take (blocks * 128 - 8) ++ word64Bytes bits
  let h := (List.range blocks).foldl
    (fun h b => sha512Compress h ((tail.drop (b * 128)).take 128)) h
  (h.bytes word64Bytes).take outlen

/-- `tls_sha512`. -/
def tlsSha512 (data : Bytes) : Bytes := sha512Family data 64
  { a := 0x6a09e667f3bcc908, b := 0xbb67ae8584caa73b
    c := 0x3c6ef372fe94f82b, d := 0xa54ff53a5f1d36f1
    e := 0x510e527fade682d1, f := 0x9b05688c2b3e6c1f
    g := 0x1f83d9abfb41bd6b, h := 0x5be0cd19137e2179 }

/-- `tls_sha384`. -/
def tlsSha384 (data : Bytes) : Bytes := sha512Family data 48
  { a := 0xcbbb9d5dc1059ed8, b := 0x629a292a367cd507
    c := 0x9159015a3070dd17, d := 0x152fecd8f70e5939
    e := 0x67332667ffc00b31, f := 0x8eb44a8768581511
    g := 0xdb0c2e0d64f98fa7, h := 0x47b5481dbefa4fa4 }

end MectovOS.Tls
