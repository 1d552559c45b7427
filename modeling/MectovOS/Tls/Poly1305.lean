/-
This file models Poly1305 of src/apps/lib/tls/tls_cipher.c: five limbs of 26 bits
in 32-bit words, products in 64-bit words, a buffer of at most one block and the
final choice between the accumulator and the accumulator less the prime.
-/

import MectovOS.Tls.Connection
import MectovOS.Lib.Absorb

namespace MectovOS.Tls

/-! ### Words -/

/-- `le32` at an offset. -/
def le32 (p : Bytes) (offset : Nat) : UInt32 :=
  (p.getD offset 0).toUInt32 ||| (p.getD (offset + 1) 0).toUInt32 <<< 8 |||
    (p.getD (offset + 2) 0).toUInt32 <<< 16 ||| (p.getD (offset + 3) 0).toUInt32 <<< 24

/-- The bytes that `le32_store` writes. -/
def le32Store (v : UInt32) : Bytes :=
  [v.toUInt8, (v >>> 8).toUInt8, (v >>> 16).toUInt8, (v >>> 24).toUInt8]

/-- Five limbs. -/
structure Limbs where
  l0 : UInt32
  l1 : UInt32
  l2 : UInt32
  l3 : UInt32
  l4 : UInt32
  deriving DecidableEq

/-- Five products. -/
structure Wide where
  d0 : UInt64
  d1 : UInt64
  d2 : UInt64
  d3 : UInt64
  d4 : UInt64

/-- Four words. -/
structure Words where
  w0 : UInt32
  w1 : UInt32
  w2 : UInt32
  w3 : UInt32
  deriving DecidableEq

/-- `poly1305_ctx`, with the bytes that `buf` holds. -/
structure Poly1305Ctx where
  r : Limbs
  h : Limbs
  pad : Words
  buf : Bytes
  deriving DecidableEq

/-! ### Blocks -/

/-- The lowest 26 bits. -/
def low26 (x : UInt32) : UInt32 := x &&& 0x3ffffff

/-- `poly1305_init`. -/
def poly1305Init (key : Bytes) : Poly1305Ctx where
  r :=
    { l0 := le32 key 0 &&& 0x3ffffff
      l1 := (le32 key 3 >>> 2) &&& 0x3ffff03
      l2 := (le32 key 6 >>> 4) &&& 0x3ffc0ff
      l3 := (le32 key 9 >>> 6) &&& 0x3f03fff
      l4 := (le32 key 12 >>> 8) &&& 0x00fffff }
  h := ⟨0, 0, 0, 0, 0⟩
  pad := ⟨le32 key 16, le32 key 20, le32 key 24, le32 key 28⟩
  buf := []

/-- A block is added to the accumulator. -/
def addBlock (h : Limbs) (m : Bytes) (hibit : UInt32) : Limbs where
  l0 := h.l0 + low26 (le32 m 0)
  l1 := h.l1 + low26 (le32 m 3 >>> 2)
  l2 := h.l2 + low26 (le32 m 6 >>> 4)
  l3 := h.l3 + low26 (le32 m 9 >>> 6)
  l4 := h.l4 + ((le32 m 12 >>> 8) ||| hibit)

/-- A 64-bit product of two words. -/
def mul64 (x y : UInt32) : UInt64 := x.toUInt64 * y.toUInt64

/-- The products of the accumulator with `r`, those above 2^130 folded down. -/
def products (h r : Limbs) : Wide :=
  let s1 := r.l1 * 5
  let s2 := r.l2 * 5
  let s3 := r.l3 * 5
  let s4 := r.l4 * 5
  { d0 := mul64 h.l0 r.l0 + mul64 h.l1 s4 + mul64 h.l2 s3 + mul64 h.l3 s2 + mul64 h.l4 s1
    d1 := mul64 h.l0 r.l1 + mul64 h.l1 r.l0 + mul64 h.l2 s4 + mul64 h.l3 s3 + mul64 h.l4 s2
    d2 := mul64 h.l0 r.l2 + mul64 h.l1 r.l1 + mul64 h.l2 r.l0 + mul64 h.l3 s4 + mul64 h.l4 s3
    d3 := mul64 h.l0 r.l3 + mul64 h.l1 r.l2 + mul64 h.l2 r.l1 + mul64 h.l3 r.l0 + mul64 h.l4 s4
    d4 := mul64 h.l0 r.l4 + mul64 h.l1 r.l3 + mul64 h.l2 r.l2 + mul64 h.l3 r.l1 +
      mul64 h.l4 r.l0 }

/-- What a product carries, in a 32-bit word. -/
def carryOf (d : UInt64) : UInt32 := (d >>> 26).toUInt32

/-- What it leaves. -/
def limbOf (d : UInt64) : UInt32 := low26 d.toUInt32

/-- The products with the carries added. -/
def carryProducts (d : Wide) : Wide :=
  let d1 := d.d1 + (carryOf d.d0).toUInt64
  let d2 := d.d2 + (carryOf d1).toUInt64
  let d3 := d.d3 + (carryOf d2).toUInt64
  let d4 := d.d4 + (carryOf d3).toUInt64
  ⟨d.d0, d1, d2, d3, d4⟩

/-- The lowest limb with the last carry folded into it. -/
def foldedLow (d : Wide) : UInt32 := limbOf d.d0 + carryOf d.d4 * 5

/-- The limbs of the carried products. -/
def limbsOf (d : Wide) : Limbs where
  l0 := low26 (foldedLow d)
  l1 := limbOf d.d1 + (foldedLow d >>> 26)
  l2 := limbOf d.d2
  l3 := limbOf d.d3
  l4 := limbOf d.d4

/-- One round of `poly1305_blocks`. -/
def poly1305Block (r : Limbs) (hibit : UInt32) (h : Limbs) (m : Bytes) : Limbs :=
  limbsOf (carryProducts (products (addBlock h m hibit) r))

/-- `poly1305_update`. -/
def poly1305Update (c : Poly1305Ctx) (m : Bytes) : Poly1305Ctx :=
  let (h, buf) := Absorb.update 16 (poly1305Block c.r 0x1000000) (c.h, c.buf) m
  { c with h := h, buf := buf }

/-! ### The tag -/

/-- The last block, behind its one and its zeros. -/
def lastBlock (buf : Bytes) : Bytes := buf ++ 1 :: List.replicate (15 - buf.length) 0

/-- The accumulator with the last block. -/
def lastLimbs (c : Poly1305Ctx) : Limbs :=
  if c.buf = [] then c.h else poly1305Block c.r 0 c.h (lastBlock c.buf)

/-- The carries through the accumulator. -/
def carryLimbs (h : Limbs) : Limbs :=
  let h2 : UInt32 := h.l2 + (h.l1 >>> 26)
  let h3 : UInt32 := h.l3 + (h2 >>> 26)
  let h4 : UInt32 := h.l4 + (h3 >>> 26)
  let h0 : UInt32 := h.l0 + (h4 >>> 26) * 5
  { l0 := low26 h0
    l1 := low26 h.l1 + (h0 >>> 26)
    l2 := low26 h2
    l3 := low26 h3
    l4 := low26 h4 }

/-- The accumulator less the prime. -/
def lessPrime (h : Limbs) : Limbs :=
  let g0 : UInt32 := h.l0 + 5
  let g1 : UInt32 := h.l1 + (g0 >>> 26)
  let g2 : UInt32 := h.l2 + (g1 >>> 26)
  let g3 : UInt32 := h.l3 + (g2 >>> 26)
  { l0 := low26 g0
    l1 := low26 g1
    l2 := low26 g2
    l3 := low26 g3
    l4 := h.l4 + (g3 >>> 26) - 0x4000000 }

/-- The accumulator, or that less the prime where it is not negative. -/
def selectLimbs (h g : Limbs) : Limbs :=
  let mask : UInt32 := (g.l4 >>> 31) - 1
  { l0 := (h.l0 &&& ~~~mask) ||| (g.l0 &&& mask)
    l1 := (h.l1 &&& ~~~mask) ||| (g.l1 &&& mask)
    l2 := (h.l2 &&& ~~~mask) ||| (g.l2 &&& mask)
    l3 := (h.l3 &&& ~~~mask) ||| (g.l3 &&& mask)
    l4 := (h.l4 &&& ~~~mask) ||| (g.l4 &&& mask) }

/-- The limbs as four words; the bits from 2^128 on fall off. -/
def packLimbs (h : Limbs) : Words where
  w0 := h.l0 ||| (h.l1 <<< 26)
  w1 := (h.l1 >>> 6) ||| (h.l2 <<< 20)
  w2 := (h.l2 >>> 12) ||| (h.l3 <<< 14)
  w3 := (h.l3 >>> 18) ||| (h.l4 <<< 8)

/-- The words with the pad added. -/
def addPad (w pad : Words) : Words :=
  let f0 := w.w0.toUInt64 + pad.w0.toUInt64
  let f1 := w.w1.toUInt64 + pad.w1.toUInt64 + (f0 >>> 32)
  let f2 := w.w2.toUInt64 + pad.w2.toUInt64 + (f1 >>> 32)
  let f3 := w.w3.toUInt64 + pad.w3.toUInt64 + (f2 >>> 32)
  ⟨f0.toUInt32, f1.toUInt32, f2.toUInt32, f3.toUInt32⟩

/-- `poly1305_final`: the tag. -/
def poly1305Final (c : Poly1305Ctx) : Bytes :=
  let h := carryLimbs (lastLimbs c)
  let w := addPad (packLimbs (selectLimbs h (lessPrime h))) c.pad
  le32Store w.w0 ++ le32Store w.w1 ++ le32Store w.w2 ++ le32Store w.w3

/-- `tls_poly1305`. -/
def tlsPoly1305 (key msg : Bytes) : Bytes :=
  poly1305Final (poly1305Update (poly1305Init key) msg)

/-- The vector of RFC 8439. -/
example : tlsPoly1305
    [0x85, 0xd6, 0xbe, 0x78, 0x57, 0x55, 0x6d, 0x33, 0x7f, 0x44, 0x52, 0xfe, 0x42, 0xd5, 0x06,
      0xa8, 0x01, 0x03, 0x80, 0x8a, 0xfb, 0x0d, 0xb2, 0xfd, 0x4a, 0xbf, 0xf6, 0xaf, 0x41, 0x49,
      0xf5, 0x1b]
    ("Cryptographic Forum Research Group".toList.map fun letter => UInt8.ofNat letter.toNat) =
      [0xa8, 0x06, 0x1d, 0xc1, 0x30, 0x51, 0x36, 0xc6, 0xc2, 0x2b, 0x8b, 0xaf, 0x0c, 0x01, 0x27,
        0xa9] := by
  decide +kernel

end MectovOS.Tls
