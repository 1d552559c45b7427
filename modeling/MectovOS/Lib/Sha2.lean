/-
This file is a library of the hash functions of FIPS 180-4 over 32-bit and 64-bit
words: the message schedule, the rounds, and the digest of a padded message. A
schedule that is grown word by word and rounds over pairs of keys and words come to
the same.
-/

import MectovOS.Lib.Absorb

namespace Sha2

/-- The eight working variables, and the eight words of a hash value. -/
structure Hash (Word : Type) where
  a : Word
  b : Word
  c : Word
  d : Word
  e : Word
  f : Word
  g : Word
  h : Word
  deriving DecidableEq

/-- What tells one function of the family from another: the functions on one word, the constants
and how many rounds there are. -/
structure Variant (Word : Type) where
  sum0 : Word → Word
  sum1 : Word → Word
  sigma0 : Word → Word
  sigma1 : Word → Word
  keys : List Word

variable {Word : Type} [OfNat Word 0]

/-- Rounds over pairs of keys and words. -/
theorem rounds_zip {State : Type} (step : State → Word → Word → State) (keys : List Word)
    (word : Nat → Word) (state : State) :
    (keys.zip ((List.range keys.length).map word)).foldl (fun v pair => step v pair.1 pair.2) state =
      (List.range keys.length).foldl (fun v t => step v (keys.getD t 0) (word t)) state := by
  have pairs : keys.zip ((List.range keys.length).map word) =
      (List.range keys.length).map fun t => (keys.getD t 0, word t) := by
    apply List.ext_getElem
    · rw [List.length_zip, List.length_map, List.length_map, List.length_range, Nat.min_self]
    · intro t inside _
      rw [List.length_zip, List.length_map, List.length_range, Nat.min_self] at inside
      rw [List.getElem_zip, List.getElem_map, List.getElem_map, List.getElem_range,
        List.getD_eq_getElem _ _ inside]
  rw [pairs, List.foldl_map]

variable [Add Word]

/-- The message schedule over the sixteen words of a block. -/
def Variant.schedule (variant : Variant Word) (message : Nat → Word) (t : Nat) : Word :=
  if t < 16 then message t
  else
    variant.sigma1 (variant.schedule message (t - 2)) + variant.schedule message (t - 7) +
      variant.sigma0 (variant.schedule message (t - 15)) + variant.schedule message (t - 16)
termination_by t

/-- A schedule that is grown word by word. -/
theorem schedule_foldl (variant : Variant Word) {next : List Word → Word}
    (message : Nat → Word)
    (isNext : ∀ words, next words =
      variant.sigma1 (words.getD (words.length - 2) 0) + words.getD (words.length - 7) 0 +
        variant.sigma0 (words.getD (words.length - 15) 0) + words.getD (words.length - 16) 0)
    (count : Nat) :
    (List.range count).foldl (fun words _ => words ++ [next words]) ((List.range 16).map message) =
      (List.range (16 + count)).map (variant.schedule message) := by
  induction count with
  | zero =>
    refine List.map_congr_left fun t inside => ?_
    rw [Variant.schedule, if_pos (List.mem_range.mp inside)]
  | succ count induction =>
    have word : ∀ back, 0 < back → back ≤ 16 →
        ((List.range (16 + count)).map (variant.schedule message)).getD
          (16 + count - back) 0 = variant.schedule message (16 + count - back) := by
      intro back some few
      have inside : 16 + count - back <
          ((List.range (16 + count)).map (variant.schedule message)).length := by
        rw [List.length_map, List.length_range]
        omega
      rw [List.getD_eq_getElem _ _ inside, List.getElem_map, List.getElem_range]
    rw [@List.range_succ count, List.foldl_append, induction, List.foldl_cons, List.foldl_nil, isNext,
      List.length_map, List.length_range, word 2 (by omega) (by omega), word 7 (by omega) (by omega),
      word 15 (by omega) (by omega), word 16 (by omega) (by omega), ← Nat.add_assoc, @List.range_succ (16 + count),
      List.map_append, List.map_singleton]
    congr 2
    rw [Variant.schedule.eq_1 variant _ (16 + count), if_neg (by omega)]

variable [AndOp Word] [XorOp Word] [Complement Word]

/-- One round. -/
def Variant.round (variant : Variant Word) (v : Hash Word) (key word : Word) : Hash Word :=
  let t1 := v.h + variant.sum1 v.e + ((v.e &&& v.f) ^^^ (~~~v.e &&& v.g)) + key + word
  let t2 := variant.sum0 v.a + ((v.a &&& v.b) ^^^ (v.a &&& v.c) ^^^ (v.b &&& v.c))
  { a := t1 + t2, b := v.a, c := v.b, d := v.c, e := v.d + t1, f := v.e, g := v.f, h := v.g }

def Hash.add (x y : Hash Word) : Hash Word :=
  { a := x.a + y.a, b := x.b + y.b, c := x.c + y.c, d := x.d + y.d
    e := x.e + y.e, f := x.f + y.f, g := x.g + y.g, h := x.h + y.h }

/-- The next hash value. -/
def Variant.compress (variant : Variant Word) (value : Hash Word) (message : Nat → Word) :
    Hash Word :=
  value.add ((List.range variant.keys.length).foldl
    (fun v t => variant.round v (variant.keys.getD t 0) (variant.schedule message t)) value)

/-! ### Constants -/

/-- The root of a number, bit by bit. -/
def root (degree number : Nat) : Nat → Nat → Nat
  | 0, low => low
  | bit + 1, low =>
    root degree number bit (if (low + 2 ^ bit) ^ degree ≤ number then low + 2 ^ bit else low)

/-- The first bits of the fractional part of a root of a prime. -/
def fraction (degree bits prime : Nat) : Nat :=
  root degree (prime * 2 ^ (degree * bits)) (bits + 8) 0 % 2 ^ bits

/-- The first eighty primes. -/
def primes : List Nat :=
  [2, 3, 5, 7, 11, 13, 17, 19, 23, 29, 31, 37, 41, 43, 47, 53, 59, 61, 67, 71, 73, 79, 83, 89, 97,
    101, 103, 107, 109, 113, 127, 131, 137, 139, 149, 151, 157, 163, 167, 173, 179, 181, 191, 193,
    197, 199, 211, 223, 227, 229, 233, 239, 241, 251, 257, 263, 269, 271, 277, 281, 283, 293, 307,
    311, 313, 317, 331, 337, 347, 349, 353, 359, 367, 373, 379, 383, 389, 397, 401, 409]

/-! ### Messages -/

/-- The lowest bytes of a number, the highest of them first. -/
def numberBytes (count number : Nat) : List UInt8 :=
  ((List.range count).map fun i => UInt8.ofNat (number / 256 ^ (count - 1 - i)))

/-- A message of bytes with its padding: a one bit, zeros, and its length in bits, up to a whole
number of blocks. -/
def pad (block lengthBytes : Nat) (message : List UInt8) : List UInt8 :=
  message ++ 0x80 ::
    (List.replicate ((2 * block - 1 - lengthBytes - message.length % block) % block) 0 ++
      numberBytes lengthBytes (8 * message.length))

/-- A word of a block as a number, its highest byte first. -/
def blockWord (wordBytes : Nat) (block : List UInt8) (i : Nat) : Nat :=
  (List.range wordBytes).foldl
    (fun value k => value * 256 + (block.getD (i * wordBytes + k) 0).toNat) 0

/-- The hash value of a message. -/
def Variant.hash (variant : Variant Word) (ofNat : Nat → Word) (wordBytes lengthBytes : Nat)
    (initial : Hash Word) (message : List UInt8) : Hash Word :=
  let padded := pad (16 * wordBytes) lengthBytes message
  (List.range (padded.length / (16 * wordBytes))).foldl
    (fun value i => variant.compress value fun t =>
      ofNat (blockWord wordBytes ((padded.drop (i * (16 * wordBytes))).take (16 * wordBytes)) t))
    initial

/-- The words of a hash value as bytes. -/
def Hash.bytes (value : Hash Word) (wordBytes : Word → List UInt8) : List UInt8 :=
  [value.a, value.b, value.c, value.d, value.e, value.f, value.g, value.h].flatMap wordBytes

/-- An initial hash value of the fractional parts of the square roots of eight primes. -/
def initial (ofNat : Nat → Word) (bits : Nat) (primes : List Nat) : Hash Word :=
  let root i := ofNat (fraction 2 bits (primes.getD i 0))
  { a := root 0, b := root 1, c := root 2, d := root 3
    e := root 4, f := root 5, g := root 6, h := root 7 }

end Sha2
