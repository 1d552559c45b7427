/-
This file is a library of stream ciphers on a byte memory: a loop makes one block
of the key stream after another and stores the sum of the input with it, byte by
byte. Where no byte is stored before it is read, the output is the sum of the
input before the loop with the key stream, and nothing else changes.
-/

import MectovOS.Lib.ByteMemory

namespace Keystream

open ByteMemory Function

variable {Counter : Type*} (size : Nat) (block : Counter → List UInt8) (next : Counter → Counter)

/-- Store the sums of some bytes with those of a block. -/
def xorBytes (memory : Bytes) (input output : Nat) (keys : List UInt8) : Nat → Bytes
  | 0 => memory
  | count + 1 =>
    let stored := xorBytes memory input output keys count
    update stored (output + count) (stored (input + count) ^^^ keys.getD count 0)

/-- The loop over the blocks, with the bytes that are left. -/
def xorLoop : Nat → Bytes → Nat → Nat → Nat → Counter → Bytes
  | 0, memory, _, _, _, _ => memory
  | fuel + 1, memory, input, output, length, counter =>
    if length = 0 then memory
    else
      let take := if length < size then length else size
      xorLoop fuel (xorBytes memory input output (block counter) take) (input + take)
        (output + take) (length - take) (next counter)

/-- The byte of the key stream at a place. -/
def stream (counter : Counter) (index : Nat) : UInt8 :=
  (block (next^[index / size] counter)).getD (index % size) 0

variable {size} {block} {next}

/-- No byte is stored before it is read. -/
def Ahead (input output length : Nat) : Prop := output ≤ input ∨ input + length ≤ output

/-- The bytes of one block. -/
theorem xorBytes_apply {memory : Bytes} {input output : Nat} {keys : List UInt8} {count : Nat}
    (ahead : Ahead input output count) (address : Nat) :
    xorBytes memory input output keys count address =
      if output ≤ address ∧ address < output + count then
        memory (input + (address - output)) ^^^ keys.getD (address - output) 0
      else memory address := by
  induction count generalizing address with
  | zero => rw [xorBytes, if_neg (by omega)]
  | succ count induction =>
    have ahead' : Ahead input output count := by
      unfold Ahead at ahead ⊢
      omega
    rw [xorBytes]
    by_cases last : address = output + count
    · subst last
      rw [update_self, induction ahead', if_neg (by unfold Ahead at ahead; omega),
        if_pos (by omega), Nat.add_sub_cancel_left]
    · rw [update_of_ne last, induction ahead']
      by_cases inside : output ≤ address ∧ address < output + count
      · rw [if_pos inside, if_pos (by omega)]
      · rw [if_neg inside, if_neg (by omega)]

theorem stream_step (positive : 0 < size) (counter : Counter) (index : Nat) :
    stream size block next counter (size + index) =
      stream size block next (next counter) index := by
  unfold stream
  rw [Nat.add_div_left _ positive, Nat.add_mod_left, Function.iterate_succ_apply]

theorem stream_block (counter : Counter) {index : Nat} (inside : index < size) :
    stream size block next counter index = (block counter).getD index 0 := by
  unfold stream
  rw [Nat.div_eq_of_lt inside, Nat.mod_eq_of_lt inside]
  rfl

/-- The whole loop: the output is the sum with the key stream, and nothing else changes. -/
theorem xorLoop_apply (positive : 0 < size) {fuel : Nat} {memory : Bytes}
    {input output length : Nat} {counter : Counter} (enough : length ≤ fuel)
    (ahead : Ahead input output length) (address : Nat) :
    xorLoop size block next fuel memory input output length counter address =
      if output ≤ address ∧ address < output + length then
        memory (input + (address - output)) ^^^
          stream size block next counter (address - output)
      else memory address := by
  induction fuel generalizing memory input output length counter address with
  | zero => rw [xorLoop, if_neg (by omega)]
  | succ fuel induction =>
    rw [xorLoop]
    by_cases none : length = 0
    · rw [if_pos none, if_neg (by omega)]
    rw [if_neg none]
    have taken : (if length < size then length else size) = min length size := by
      rw [Nat.min_def]
      split_ifs <;> omega
    rw [taken]
    have first : Ahead input output (min length size) := by
      unfold Ahead at ahead ⊢
      omega
    have others : Ahead (input + min length size) (output + min length size)
        (length - min length size) := by
      unfold Ahead at ahead ⊢
      omega
    rw [induction (by omega) others]
    by_cases behind : output + min length size ≤ address ∧ address < output + length
    · -- behind the block: the loop goes on there, and the block has not touched the input
      have short : min length size = size := by omega
      have place : address - output = size + (address - (output + size)) := by omega
      have source : input + (address - output) = input + size + (address - (output + size)) := by
        omega
      rw [if_pos (by omega), if_pos (by omega), xorBytes_apply first,
        if_neg (by unfold Ahead at ahead; omega), short, place, stream_step positive, ← place, source]
    · rw [if_neg (by omega), xorBytes_apply first]
      by_cases inside : output ≤ address ∧ address < output + length
      · rw [if_pos (by omega), if_pos inside, stream_block _ (by omega)]
      · rw [if_neg (by omega), if_neg inside]

/-- The bytes of a piece of memory. -/
def bytesAt (memory : Bytes) (start length : Nat) : List UInt8 :=
  (List.range length).map fun index => memory (start + index)

/-- Two pieces are the same where their bytes are. -/
theorem bytesAt_eq_iff {memory other : Bytes} {start place length : Nat} :
    bytesAt memory start length = bytesAt other place length ↔
      ∀ index < length, memory (start + index) = other (place + index) := by
  unfold bytesAt
  rw [List.map_inj_left]
  exact forall_congr' fun index => by rw [List.mem_range]

/-- A text summed twice with one key stream is itself. -/
theorem xorLoop_twice (positive : 0 < size) {memory other : Bytes}
    {input output place target length : Nat} {counter : Counter}
    (ahead : Ahead input output length) (ahead' : Ahead place target length)
    (same : bytesAt other place length = bytesAt
      (xorLoop size block next length memory input output length counter) output length) :
    bytesAt (xorLoop size block next length other place target length counter) target length =
      bytesAt memory input length := by
  rw [bytesAt_eq_iff] at same ⊢
  intro index inside
  have summed := same index inside
  rw [xorLoop_apply positive le_rfl ahead, if_pos (by omega), Nat.add_sub_cancel_left] at summed
  rw [xorLoop_apply positive le_rfl ahead', if_pos (by omega), Nat.add_sub_cancel_left, summed,
    UInt8.xor_assoc, UInt8.xor_self, UInt8.xor_zero]

end Keystream
