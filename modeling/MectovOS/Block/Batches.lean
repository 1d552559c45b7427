/-
This file models how the file systems move sectors through `block_read` and
`block_write`: in batches that `block_batch_limit` of src/include/block.h bounds.
A refused batch reads as zeros, and ends a write.
-/

import MectovOS.Lib.ByteMemory

namespace MectovOS.Block

open ByteMemory

/-! ### Batches -/

/-- `block_batch_limit` -/
def blockBatchLimit (lba count : Nat) : Nat := max 1 (min (min count 128) (128 - lba % 128))

/-- Sectors read into a buffer at `base`, batch by batch; a refused batch reads as zeros. -/
def readSectors (refused : Nat → Nat → Bool) (content : Bytes) (start total base : Nat) :
    Nat → Nat → Bytes → Bytes
  | 0, _, buf => buf
  | fuel + 1, done, buf =>
    if total ≤ done then buf
    else
      let lba := (start + done) % 2 ^ 32
      let batch := blockBatchLimit lba (total - done)
      readSectors refused content start total base fuel (done + batch)
        (if refused lba batch then fillBytes buf (base + done * 512) 0 (batch * 512)
        else
          putBytes buf (base + done * 512) (fun index => content (lba * 512 + index)) (batch * 512))

/-- Sectors written from a buffer, up to the first batch that the drive refuses; were all of them
stored? -/
def writeSectors (refused : Nat → Nat → Bool) (data : Bytes) (start total : Nat) :
    Nat → Nat → Bytes → Bool × Bytes
  | 0, _, content => (true, content)
  | fuel + 1, done, content =>
    if total ≤ done then (true, content)
    else
      let lba := (start + done) % 2 ^ 32
      let batch := blockBatchLimit lba (total - done)
      if refused lba batch then (false, content)
      else
        writeSectors refused data start total fuel (done + batch)
          (putBytes content (lba * 512) (fun index => data (done * 512 + index)) (batch * 512))

end MectovOS.Block
