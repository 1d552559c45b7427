/-
This file models the big integers of src/apps/lib/tls/tls_pubkey.c: 32-bit words, the
lowest first, their bytes, comparison and subtraction, Montgomery products and
powers by squaring.
-/

import MectovOS.Tls.Connection

namespace MectovOS.Tls

/-! ### Numbers -/

/-- `TLS_BN_LIMBS`. -/
def bnLimbs : Nat := 128

/-- `tls_bn_t`: the words, and how many of them are in use. -/
structure TlsBn where
  w : Vector UInt32 bnLimbs
  n : Nat

/-- A word, as 0 where there is none. -/
def TlsBn.word (a : TlsBn) (i : Nat) : UInt32 := a.w.toList.getD i 0

/-- The lowest words. -/
def TlsBn.low (a : TlsBn) (n : Nat) : List UInt32 := a.w.toList.take n

/-- Words as a number's words, with zeros behind them. -/
def padWords (words : List UInt32) : Vector UInt32 bnLimbs :=
  Vector.ofFn fun i => words.getD i 0

/-- The words in use: the loop that drops the zeros at the top. -/
def usedWords (words : List UInt32) : Nat → Nat
  | 0 => 0
  | n + 1 => if words.getD n 0 = 0 then usedWords words n else n + 1

/-- `tls_bn_zero`. -/
def tlsBnZero : TlsBn := ⟨padWords [], 0⟩

/-- `tls_bn_set_u32`. -/
def tlsBnSetU32 (v : UInt32) : TlsBn := if v ≠ 0 then ⟨padWords [v], 1⟩ else tlsBnZero

/-- `tls_bn_is_zero`. -/
def tlsBnIsZero (a : TlsBn) : Bool := a.n = 0

/-- `be_bit`: the bits of a text from the highest on. The number of bits is a 32-bit word. -/
def beBit (be : Bytes) (len k : Nat) : Bool :=
  if len * 8 % 2 ^ 32 ≤ k then false
  else (be.getD (k / 8) 0 >>> UInt8.ofNat (7 - k % 8)) &&& 1 ≠ 0

/-- The comparison of words from the highest on. -/
def geFrom : List UInt32 → List UInt32 → Bool
  | x :: xs, y :: ys => if x ≠ y then y < x else geFrom xs ys
  | _, _ => true

/-- `bn_ge_n`. -/
def bnGeN (a b : List UInt32) : Bool := geFrom a.reverse b.reverse

/-- `bn_sub`, from a borrow on. -/
def bnSubFrom (borrow : UInt64) : List UInt32 → List UInt32 → List UInt32
  | x :: xs, y :: ys =>
    let v := x.toUInt64 - y.toUInt64 - borrow
    v.toUInt32 :: bnSubFrom (if v >>> 32 ≠ 0 then 1 else 0) xs ys
  | _, _ => []

/-- `bn_sub`. -/
def bnSub (a b : List UInt32) : List UInt32 := bnSubFrom 0 a b

/-! ### Montgomery products -/

/-- `tls_bn_mont_n0inv`. -/
def tlsBnMontN0inv (m : TlsBn) : UInt32 :=
  0 - (fun inv => inv * (2 - m.word 0 * inv))^[5] 1

/-- `mont_ctx_t`. -/
structure MontCtx where
  m : TlsBn
  n : Nat
  n0inv : UInt32
  r2 : TlsBn

/-- The words doubled, and the carry. -/
def doubleWords (carry : UInt64) : List UInt32 → List UInt32 × UInt64
  | [] => ([], carry)
  | x :: xs =>
    let v := (x.toUInt64 <<< 1) ||| carry
    let (out, last) := doubleWords (v >>> 32) xs
    (v.toUInt32 :: out, last)

/-- One step of `mont_init`: the words doubled below the modulus. -/
def doubleStep (m r : List UInt32) : List UInt32 :=
  let (t, carry) := doubleWords 0 r
  if carry ≠ 0 ∨ bnGeN t m then bnSub t m else t

/-- `mont_init`. -/
def montInit (m : TlsBn) : MontCtx :=
  let r := (doubleStep (m.low m.n))^[64 * m.n] ((tlsBnSetU32 1).low m.n)
  { m := m, n := m.n, n0inv := tlsBnMontN0inv m, r2 := ⟨padWords r, usedWords r m.n⟩ }

/-- The inner loop: a word times words, added to others, with the carry. -/
def mulAddWords (x : UInt32) (carry : UInt64) : List UInt32 → List UInt32 → List UInt32 × UInt64
  | y :: ys, t :: ts =>
    let v := y.toUInt64 * x.toUInt64 + t.toUInt64 + carry
    let (out, last) := mulAddWords x (v >>> 32) ys ts
    (v.toUInt32 :: out, last)
  | _, _ => ([], carry)

/-- The words of `t` with a word of `b` times `a`, and the carry. -/
def productRow (a : List UInt32) (t : List UInt32 × UInt32) (bi : UInt32) : List UInt32 × UInt64 :=
  mulAddWords bi 0 a t.1

/-- The two words above them. -/
def productTop (a : List UInt32) (t : List UInt32 × UInt32) (bi : UInt32) : UInt64 :=
  t.2.toUInt64 + (productRow a t bi).2

/-- `mm`: the multiple of the modulus that clears the lowest word. -/
def clearingWord (n0inv : UInt32) (words : List UInt32) : UInt32 :=
  ((words.headD 0).toUInt64 * n0inv.toUInt64).toUInt32

/-- The lowest word with that multiple. -/
def clearedWord (mb : List UInt32) (mm : UInt32) (words : List UInt32) : UInt64 :=
  mm.toUInt64 * (mb.headD 0).toUInt64 + (words.headD 0).toUInt64

/-- The words above the lowest with that multiple, each moved down by one, and the carry. -/
def clearedRow (mb : List UInt32) (mm : UInt32) (words : List UInt32) : List UInt32 × UInt64 :=
  mulAddWords mm (clearedWord mb mm words >>> 32) mb.tail words.tail

/-- One round of `mont_mul_ctx` on the words of `t` and the one above them. -/
def montRound (mb : List UInt32) (n0inv : UInt32) (a : List UInt32) (t : List UInt32 × UInt32)
    (bi : UInt32) : List UInt32 × UInt32 :=
  let words := (productRow a t bi).1
  let top := productTop a t bi
  let cleared := clearedRow mb (clearingWord n0inv words) words
  let last := top.toUInt32.toUInt64 + cleared.2
  (cleared.1 ++ [last.toUInt32], (top >>> 32).toUInt32 + (last >>> 32).toUInt32)

/-- The words of a product, with the subtraction behind them. -/
def montWords (mb : List UInt32) (n0inv : UInt32) (a b : List UInt32) : List UInt32 :=
  let (t, tn) := b.foldl (montRound mb n0inv a) (List.replicate mb.length 0, 0)
  if tn ≠ 0 ∨ bnGeN t mb then bnSub t mb else t

/-- `mont_mul_ctx`. -/
def montMulCtx (c : MontCtx) (a b : TlsBn) : TlsBn :=
  let t := montWords (c.m.low c.n) c.n0inv (a.low c.n) (b.low c.n)
  ⟨padWords t, usedWords t c.n⟩

/-! ### Powers -/

/-- One bit of the exponent. -/
def modexpStep (c : MontCtx) (bm acc : TlsBn) (bit : Bool) : TlsBn :=
  let acc := montMulCtx c acc acc
  if bit then montMulCtx c acc bm else acc

/-- `tls_bn_modexp`. The loop counts the bits in a 32-bit word. -/
def tlsBnModexp (base : TlsBn) (exp : Bytes) (m : TlsBn) : TlsBn :=
  if m.n = 0 ∨ tlsBnIsZero m then tlsBnZero
  else
    let c := montInit m
    let bm := montMulCtx c base c.r2
    let acc := montMulCtx c (tlsBnSetU32 1) c.r2
    let acc := (List.range (exp.length * 8 % 2 ^ 32)).foldl
      (fun acc k => modexpStep c bm acc (beBit exp exp.length k)) acc
    montMulCtx c acc (tlsBnSetU32 1)

/-- 3^5 is 5 modulo 7. -/
example : (tlsBnModexp (tlsBnSetU32 3) [5] (tlsBnSetU32 7)).word 0 = 5 := by
  decide +kernel

end MectovOS.Tls
