/-
This file models src/sys/sha256.c: a context that takes bytes, compresses every
block of 64, and is closed into a digest of 32 bytes.
-/

import Mathlib.Data.List.Basic
import Mathlib.Data.UInt

namespace MectovOS.Passwd

abbrev Bytes := List UInt8

/-! ### Compression -/

/-- `K`. -/
def roundKeys : List UInt32 :=
  [0x428a2f98, 0x71374491, 0xb5c0fbcf, 0xe9b5dba5, 0x3956c25b, 0x59f111f1,
   0x923f82a4, 0xab1c5ed5, 0xd807aa98, 0x12835b01, 0x243185be, 0x550c7dc3,
   0x72be5d74, 0x80deb1fe, 0x9bdc06a7, 0xc19bf174, 0xe49b69c1, 0xefbe4786,
   0x0fc19dc6, 0x240ca1cc, 0x2de92c6f, 0x4a7484aa, 0x5cb0a9dc, 0x76f988da,
   0x983e5152, 0xa831c66d, 0xb00327c8, 0xbf597fc7, 0xc6e00bf3, 0xd5a79147,
   0x06ca6351, 0x14292967, 0x27b70a85, 0x2e1b2138, 0x4d2c6dfc, 0x53380d13,
   0x650a7354, 0x766a0abb, 0x81c2c92e, 0x92722c85, 0xa2bfe8a1, 0xa81a664b,
   0xc24b8b70, 0xc76c51a3, 0xd192e819, 0xd6990624, 0xf40e3585, 0x106aa070,
   0x19a4c116, 0x1e376c08, 0x2748774c, 0x34b0bcb5, 0x391c0cb3, 0x4ed8aa4a,
   0x5b9cca4f, 0x682e6ff3, 0x748f82ee, 0x78a5636f, 0x84c87814, 0x8cc70208,
   0x90befffa, 0xa4506ceb, 0xbef9a3f7, 0xc67178f2]

/-- `rotr`. -/
def rotr (value : UInt32) (count : UInt32) : UInt32 :=
  (value >>> count) ||| (value <<< (32 - count))

/-- The eight words of `state`. -/
structure Sha256State where
  a : UInt32
  b : UInt32
  c : UInt32
  d : UInt32
  e : UInt32
  f : UInt32
  g : UInt32
  h : UInt32
  deriving DecidableEq

/-- The first sixteen words of the schedule. -/
def blockWords (block : Bytes) : List UInt32 :=
  (List.range 16).map fun index =>
    let byte (offset : Nat) := (block.getD (index * 4 + offset) 0).toUInt32
    (byte 0 <<< 24) ||| (byte 1 <<< 16) ||| (byte 2 <<< 8) ||| byte 3

/-- The next word of the schedule behind the words so far. -/
def nextWord (words : List UInt32) : UInt32 :=
  let back (count : Nat) := words.getD (words.length - count) 0
  let s0 := rotr (back 15) 7 ^^^ rotr (back 15) 18 ^^^ (back 15 >>> 3)
  let s1 := rotr (back 2) 17 ^^^ rotr (back 2) 19 ^^^ (back 2 >>> 10)
  back 16 + s0 + back 7 + s1

/-- The words `w`. -/
def schedule (block : Bytes) : List UInt32 :=
  (List.range 48).foldl (fun words _ => words ++ [nextWord words]) (blockWords block)

/-- One of the 64 rounds. -/
def round (state : Sha256State) (key word : UInt32) : Sha256State :=
  let s1 := rotr state.e 6 ^^^ rotr state.e 11 ^^^ rotr state.e 25
  let ch := (state.e &&& state.f) ^^^ (~~~state.e &&& state.g)
  let t1 := state.h + s1 + ch + key + word
  let s0 := rotr state.a 2 ^^^ rotr state.a 13 ^^^ rotr state.a 22
  let maj := (state.a &&& state.b) ^^^ (state.a &&& state.c) ^^^ (state.b &&& state.c)
  let t2 := s0 + maj
  { a := t1 + t2, b := state.a, c := state.b, d := state.c,
    e := state.d + t1, f := state.e, g := state.f, h := state.g }

/-- `sha256_compress`. -/
def compress (state : Sha256State) (block : Bytes) : Sha256State :=
  let done := (roundKeys.zip (schedule block)).foldl
    (fun state pair => round state pair.1 pair.2) state
  { a := state.a + done.a, b := state.b + done.b, c := state.c + done.c, d := state.d + done.d,
    e := state.e + done.e, f := state.f + done.f, g := state.g + done.g, h := state.h + done.h }

/-! ### The context -/

/-- `sha256_ctx_t`: `block` holds the bytes that wait for a full block. -/
structure Sha256 where
  state : Sha256State
  totalLen : UInt64
  block : Bytes

/-- `sha256_init`. -/
def Sha256.init : Sha256 where
  state :=
    { a := 0x6a09e667, b := 0xbb67ae85, c := 0x3c6ef372, d := 0xa54ff53a,
      e := 0x510e527f, f := 0x9b05688c, g := 0x1f83d9ab, h := 0x5be0cd19 }
  totalLen := 0
  block := []

/-- One byte of `sha256_update`. -/
def Sha256.absorb (context : Sha256) (byte : UInt8) : Sha256 :=
  let block := context.block ++ [byte]
  if block.length = 64 then
    ⟨compress context.state block, context.totalLen + 1, []⟩
  else ⟨context.state, context.totalLen + 1, block⟩

/-- `sha256_update`. -/
def Sha256.update (context : Sha256) (data : Bytes) : Sha256 := data.foldl Sha256.absorb context

def wordBytes (word : UInt32) : Bytes :=
  [(word >>> 24).toUInt8, (word >>> 16).toUInt8, (word >>> 8).toUInt8, word.toUInt8]

/-- The zeros up to the length. -/
def Sha256.pad (context : Sha256) : Nat → Sha256
  | 0 => context
  | fuel + 1 => if context.block.length = 56 then context else (context.absorb 0).pad fuel

/-- `sha256_final`. -/
def Sha256.final (context : Sha256) : Bytes :=
  let bits := context.totalLen * 8
  let padded := (context.absorb 0x80).pad 64
  let length := (List.range 8).map fun index => (bits >>> (56 - index * 8).toUInt64).toUInt8
  let state := (padded.update length).state
  wordBytes state.a ++ wordBytes state.b ++ wordBytes state.c ++ wordBytes state.d ++
    wordBytes state.e ++ wordBytes state.f ++ wordBytes state.g ++ wordBytes state.h

/-- The digest of a byte string. -/
def sha256 (data : Bytes) : Bytes := (Sha256.init.update data).final

theorem sha256_length (data : Bytes) : (sha256 data).length = 32 := rfl

/-- Bytes in two parts are the bytes at once. -/
theorem Sha256.update_append (context : Sha256) (first second : Bytes) :
    (context.update first).update second = context.update (first ++ second) :=
  (List.foldl_append ..).symm

/-- The digest of "abc". -/
example : (sha256 [0x61, 0x62, 0x63]).take 4 = [0xba, 0x78, 0x16, 0xbf] := by decide +kernel

end MectovOS.Passwd
