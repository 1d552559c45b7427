/-
This file models the kernel heap of src/sys/mem.c: the block headers that live
inside the arena, the first-fit allocator `kmalloc` with block splitting,
`kfree` with forward and backward coalescing, `krealloc` and `kcalloc`.

The arena is byte-addressed memory. A block is a sixteen-byte header (magic,
size, free, next), the payload, and a four-byte canary. A list walk carries
fuel; running out of it is the fault `diverges`, so that a proof of the absence
of faults is also a proof that every loop of the source ends. `heap_panic`
halts the machine and is the fault `heapPanic`.
-/

import MectovOS.Lib.ByteMemory
import MectovOS.Mem.Reserve

namespace MectovOS.Heap

open ByteMemory

/-! ### Constants and the allocator state -/

/-- Unsigned 32-bit arithmetic of the source. -/
def u32 (value : Nat) : Nat := value % 2 ^ 32

/-- Unsigned 32-bit subtraction. -/
def sub32 (left right : Nat) : Nat := u32 (left + (2 ^ 32 - right))

def heapMagicAlloc : Nat := 0xA110CA8E
def heapMagicFree : Nat := 0xF2EEF2EE
def heapCanary : Nat := 0xCA5CA5E5

/-- `sizeof(block_meta)`. -/
def sizeofBlockMeta : Nat := 16

/-- `META_SIZE`: the header and the trailing canary. -/
def metaSize : Nat := 20

/-- The allocator's globals and the memory its arena lives in. A pointer is an
address and `NULL` is `0`. -/
structure HeapState where
  memory : Bytes
  globalBase : Nat
  heapUsed : Nat
  heapMaxBytes : Nat
  heapAllocs : Nat
  heapFrees : Nat
  heapOom : Nat

/-- The ways a call does not return. -/
inductive Fault where
  | heapPanic (what : String) (address : Nat)
  | diverges
  deriving DecidableEq

/-! ### Block headers -/

def blockMagic (memory : Bytes) (block : Nat) : Nat := read32 memory block
def blockSize (memory : Bytes) (block : Nat) : Nat := read32 memory (block + 4)
def blockFree (memory : Bytes) (block : Nat) : Nat := read32 memory (block + 8)
def blockNext (memory : Bytes) (block : Nat) : Nat := read32 memory (block + 12)

def setMagic (memory : Bytes) (block value : Nat) : Bytes := write32 memory block value
def setSize (memory : Bytes) (block value : Nat) : Bytes := write32 memory (block + 4) value
def setFree (memory : Bytes) (block value : Nat) : Bytes := write32 memory (block + 8) value
def setNext (memory : Bytes) (block value : Nat) : Bytes := write32 memory (block + 12) value

/-- The canary word of a block, found through its own size field. -/
def blockCanary (memory : Bytes) (block : Nat) : Nat :=
  read32 memory (block + sizeofBlockMeta + blockSize memory block)

/-- Stamp the canary at the payload end that the block's size field names. -/
def stampCanary (memory : Bytes) (block : Nat) : Bytes :=
  write32 memory (block + sizeofBlockMeta + blockSize memory block) heapCanary

/-! ### Allocation -/

/-- Round a request up to a multiple of four. -/
def alignSize (size : Nat) : Nat :=
  if size % 4 ≠ 0 then u32 (size + (4 - size % 4)) else size

/-- First fit. Returns the last block passed and the block found, `0` when none fits. -/
def findFreeBlock (memory : Bytes) (size : Nat) : Nat → Nat → Nat → Except Fault (Nat × Nat)
  | 0, _, _ => .error .diverges
  | fuel + 1, last, current =>
    if current ≠ 0 ∧ ¬ (blockFree memory current ≠ 0 ∧ size ≤ blockSize memory current) then
      findFreeBlock memory size fuel current (blockNext memory current)
    else
      .ok (last, current)

/-- Make the last block of the list, if there is one, point to a new block. -/
def linkLast (memory : Bytes) (last block : Nat) : Bytes :=
  if last ≠ 0 then setNext memory last block else memory

/-- Extend the arena by one block. Returns `0` when the ceiling is reached. -/
def requestSpace (heap : HeapState) (last size : Nat) : HeapState × Nat :=
  if heap.heapMaxBytes < size ∨ u32 (size + metaSize) < size ∨
      heap.heapMaxBytes < u32 (heap.heapUsed + size + metaSize) then
    (heap, 0)
  else
    let block := kernelHeapBaseBytes + heap.heapUsed
    let memory := setMagic (linkLast heap.memory last block) block heapMagicAlloc
    let memory := setFree (setNext (setSize memory block size) block 0) block 0
    ({ heap with memory := memory, heapUsed := u32 (heap.heapUsed + size + metaSize) }, block)

/-- The tail of `kmalloc` for a block that was found: stamp the canary and count. -/
def finishAlloc (heap : HeapState) (block : Nat) : HeapState × Nat :=
  ({ heap with memory := stampCanary heap.memory block, heapAllocs := heap.heapAllocs + 1 },
    block + sizeofBlockMeta)

/-- The out-of-memory tail of `kmalloc`. -/
def failAlloc (heap : HeapState) : HeapState × Nat :=
  ({ heap with heapOom := heap.heapOom + 1 }, 0)

/-- Carve the tail of a free block into a free block of its own. -/
def splitBlock (memory : Bytes) (block size : Nat) : Bytes :=
  let newBlock := block + metaSize + size
  let memory := setMagic memory newBlock heapMagicFree
  let memory := setSize memory newBlock (sub32 (sub32 (blockSize memory block) size) metaSize)
  let memory := setFree memory newBlock 1
  let memory := setNext memory newBlock (blockNext memory block)
  let memory := stampCanary memory newBlock
  let memory := setSize memory block size
  setNext memory block newBlock

/-- The fuel of a list walk: no arena holds more blocks than bytes. -/
def walkFuel (heap : HeapState) : Nat := heap.heapUsed + 1

def kmalloc (heap : HeapState) (request : Nat) : Except Fault (HeapState × Nat) :=
  if request = 0 then .ok (heap, 0)
  else
    let size := alignSize request
    if heap.globalBase = 0 then
      let (extended, block) := requestSpace heap 0 size
      if block ≠ 0 then .ok (finishAlloc { extended with globalBase := block } block)
      else .ok (failAlloc heap)
    else
      match findFreeBlock heap.memory size (walkFuel heap) heap.globalBase heap.globalBase with
      | .error fault => .error fault
      | .ok (last, block) =>
        if block = 0 then
          let (extended, fresh) := requestSpace heap last size
          if fresh ≠ 0 then .ok (finishAlloc extended fresh) else .ok (failAlloc heap)
        else if blockMagic heap.memory block ≠ heapMagicFree then
          .error (.heapPanic "free-list header corrupted" block)
        else
          let memory :=
            if u32 (size + metaSize + 4) ≤ blockSize heap.memory block then
              splitBlock heap.memory block size
            else heap.memory
          let memory := setFree (setMagic memory block heapMagicAlloc) block 0
          .ok (finishAlloc { heap with memory := memory } block)

/-! ### Release -/

/-- Merge the block with every free block that follows it. -/
def coalesceForward (memory : Bytes) (block : Nat) : Nat → Except Fault Bytes
  | 0 => .error .diverges
  | fuel + 1 =>
    let next := blockNext memory block
    if next ≠ 0 ∧ blockFree memory next ≠ 0 then
      let memory := setSize memory block
        (blockSize memory block + (metaSize + blockSize memory next))
      let memory := setNext memory block (blockNext memory (blockNext memory block))
      coalesceForward memory block fuel
    else
      .ok memory

/-- The block whose `next` is the given block, `0` when there is none. -/
def findPrev (memory : Bytes) (block : Nat) : Nat → Nat → Except Fault Nat
  | 0, _ => .error .diverges
  | fuel + 1, prev =>
    if prev ≠ 0 ∧ blockNext memory prev ≠ block then
      findPrev memory block fuel (blockNext memory prev)
    else
      .ok prev

/-- Merge the block into its predecessor when that one is free. -/
def coalesceBackward (heap : HeapState) (memory : Bytes) (block : Nat) : Except Fault Bytes :=
  if heap.globalBase ≠ block then
    match findPrev memory block (walkFuel heap) heap.globalBase with
    | .error fault => .error fault
    | .ok prev =>
      if prev ≠ 0 ∧ blockFree memory prev ≠ 0 then
        let memory := setSize memory prev
          (blockSize memory prev + (metaSize + blockSize memory block))
        let memory := setNext memory prev (blockNext memory block)
        .ok (stampCanary memory prev)
      else .ok memory
  else .ok memory

def kfree (heap : HeapState) (pointer : Nat) : Except Fault HeapState :=
  if pointer = 0 then .ok heap
  else
    let block := sub32 pointer sizeofBlockMeta
    if blockMagic heap.memory block ≠ heapMagicAlloc then
      .error (.heapPanic "kfree of non-allocated pointer (double free or bad pointer)" pointer)
    else if blockCanary heap.memory block ≠ heapCanary then
      .error (.heapPanic "heap overflow detected (canary overwritten)" pointer)
    else
      let memory := setFree (setMagic heap.memory block heapMagicFree) block 1
      match coalesceForward memory block (walkFuel heap) with
      | .error fault => .error fault
      | .ok merged =>
        match coalesceBackward heap (stampCanary merged block) block with
        | .error fault => .error fault
        | .ok memory => .ok { heap with memory := memory, heapFrees := heap.heapFrees + 1 }

/-! ### Reallocation and zeroed allocation -/

def krealloc (heap : HeapState) (pointer request : Nat) : Except Fault (HeapState × Nat) :=
  if pointer = 0 then kmalloc heap request
  else if request = 0 then
    match kfree heap pointer with
    | .error fault => .error fault
    | .ok heap => .ok (heap, 0)
  else
    let newSize := alignSize request
    let oldSize := blockSize heap.memory (sub32 pointer sizeofBlockMeta)
    if newSize ≤ oldSize then .ok (heap, pointer)
    else
      match kmalloc heap newSize with
      | .error fault => .error fault
      | .ok (heap, newPointer) =>
        if newPointer = 0 then .ok (heap, 0)
        else
          let copySize := if oldSize < newSize then oldSize else newSize
          let memory := copyBytes heap.memory newPointer pointer copySize
          match kfree { heap with memory := memory } pointer with
          | .error fault => .error fault
          | .ok heap => .ok (heap, newPointer)

def kcalloc (heap : HeapState) (num size : Nat) : Except Fault (HeapState × Nat) :=
  if num ≠ 0 ∧ 0xFFFFFFFF / num < size then .ok (heap, 0)
  else
    let total := u32 (num * size)
    match kmalloc heap total with
    | .error fault => .error fault
    | .ok (heap, pointer) =>
      if pointer = 0 then .ok (heap, 0)
      else .ok ({ heap with memory := fillBytes heap.memory pointer 0 total }, pointer)

end MectovOS.Heap
