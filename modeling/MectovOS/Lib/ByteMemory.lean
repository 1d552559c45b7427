/-
This file is a library of byte-addressed memory with little-endian 32-bit words.
A word read after a word write sees the written value when the addresses agree
and the old word when the two words are apart; rewriting a word with its own
value changes nothing. Block copies and fills are defined on byte ranges.
-/

import Mathlib

namespace ByteMemory

/-- A byte-addressed memory. -/
abbrev Bytes := Nat → UInt8

/-- The little-endian 32-bit word at an address. -/
def read32 (memory : Bytes) (address : Nat) : Nat :=
  (memory address).toNat + 256 * (memory (address + 1)).toNat +
    65536 * (memory (address + 2)).toNat + 16777216 * (memory (address + 3)).toNat

/-- Store the low 32 bits of a value at an address. -/
def write32 (memory : Bytes) (address value : Nat) : Bytes := fun index =>
  if index = address then UInt8.ofNat value
  else if index = address + 1 then UInt8.ofNat (value / 256)
  else if index = address + 2 then UInt8.ofNat (value / 65536)
  else if index = address + 3 then UInt8.ofNat (value / 16777216)
  else memory index

/-- Copy `count` bytes from `source` to `target`. -/
def copyBytes (memory : Bytes) (target source count : Nat) : Bytes := fun index =>
  if target ≤ index ∧ index < target + count then memory (source + (index - target))
  else memory index

/-- Put the first `count` bytes of other memory at `target`. -/
def putBytes (memory : Bytes) (target : Nat) (other : Bytes) (count : Nat) : Bytes := fun index =>
  if target ≤ index ∧ index < target + count then other (index - target) else memory index

/-- Fill `count` bytes from `target` on with one byte. -/
def fillBytes (memory : Bytes) (target : Nat) (value : UInt8) (count : Nat) : Bytes :=
  fun index => if target ≤ index ∧ index < target + count then value else memory index

theorem read32_write32_self (memory : Bytes) (address value : Nat) :
    read32 (write32 memory address value) address = value % 2 ^ 32 := by
  simp [read32, write32]
  omega

theorem read32_write32_of_lt (memory : Bytes) (address value : Nat) (small : value < 2 ^ 32) :
    read32 (write32 memory address value) address = value := by
  rw [read32_write32_self, Nat.mod_eq_of_lt small]

theorem write32_other (memory : Bytes) (address value index : Nat)
    (apart : index < address ∨ address + 4 ≤ index) :
    write32 memory address value index = memory index := by
  unfold write32
  split_ifs <;> first | omega | rfl

theorem read32_congr {first second : Bytes} {address : Nat}
    (agree : ∀ index, address ≤ index → index < address + 4 → first index = second index) :
    read32 first address = read32 second address := by
  unfold read32
  rw [agree address (by omega) (by omega), agree (address + 1) (by omega) (by omega),
    agree (address + 2) (by omega) (by omega), agree (address + 3) (by omega) (by omega)]

theorem read32_write32_other (memory : Bytes) (address value other : Nat)
    (apart : other + 4 ≤ address ∨ address + 4 ≤ other) :
    read32 (write32 memory address value) other = read32 memory other :=
  read32_congr fun index _ _ => write32_other memory address value index (by omega)

theorem copyBytes_inside (memory : Bytes) {target source count index : Nat}
    (low : target ≤ index) (high : index < target + count) :
    copyBytes memory target source count index = memory (source + (index - target)) := by
  rw [copyBytes, if_pos ⟨low, high⟩]

theorem copyBytes_outside (memory : Bytes) {target source count index : Nat}
    (outside : index < target ∨ target + count ≤ index) :
    copyBytes memory target source count index = memory index := by
  rw [copyBytes, if_neg (by omega)]

theorem fillBytes_outside (memory : Bytes) {target count index : Nat} (value : UInt8)
    (outside : index < target ∨ target + count ≤ index) :
    fillBytes memory target value count index = memory index := by
  rw [fillBytes, if_neg (by omega)]

end ByteMemory
