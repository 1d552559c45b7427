/-
This file models how the kernel divides physical memory at boot: the clamped
number of frames, the kernel reservation `phys_init` settles on, and the heap
ceiling `init_mem` derives from it. The heap and the allocatable frames share no
byte, because the ceiling ends where the reservation ends.
-/

import Mathlib

namespace MectovOS

/-- `PHYS_MAX_PAGES`. -/
def physMaxPages : Nat := 512 * 256

/-- `KERNEL_RESERVED_PAGES`, `KERNEL_RESERVED_PAGES_BIG` and the RAM that selects the latter. -/
def kernelReservedPages : Nat := 80 * 256
def kernelReservedPagesBig : Nat := 160 * 256
def kernelReservedPagesBigMin : Nat := 384 * 256

/-- `KERNEL_HEAP_BASE_BYTES` and `KERNEL_HEAP_MIN_BYTES`. -/
def kernelHeapBaseBytes : Nat := 24 * 1024 * 1024
def kernelHeapMinBytes : Nat := 4 * 1024 * 1024

/-- `phys_total_pages`: the frames the multiboot report yields, clamped. -/
def physTotalPages (totalPages : Nat) : Nat := min totalPages physMaxPages

/-- The reservation `phys_init` computes from the clamped number of frames. -/
def physReservedPages (total : Nat) : Nat :=
  let nominal :=
    if kernelReservedPagesBigMin ≤ total then kernelReservedPagesBig else kernelReservedPages
  let minFree := total / 4
  let capped := if total < nominal + minFree then total - minFree else nominal
  let reserveMin := kernelHeapBaseBytes / 4096 + kernelHeapMinBytes / 4096
  let raised := if capped < reserveMin then reserveMin else capped
  if total < raised then total else raised

/-- `phys_reserved_bytes`. -/
def physReservedBytes (total : Nat) : Nat := physReservedPages total * 4096

/-- The heap ceiling `init_mem` derives from the reservation. -/
def heapCeiling (total : Nat) : Nat :=
  if kernelHeapBaseBytes < physReservedBytes total then
    physReservedBytes total - kernelHeapBaseBytes
  else 0

theorem physTotalPages_le (totalPages : Nat) : physTotalPages totalPages ≤ physMaxPages :=
  min_le_right _ _

theorem physReservedPages_le (total : Nat) : physReservedPages total ≤ total := by
  simp only [physReservedPages]
  split_ifs <;> omega

/-- The heap ends inside the 512 MB the frame allocator knows. -/
theorem heapCeiling_le (totalPages : Nat) :
    kernelHeapBaseBytes + heapCeiling (physTotalPages totalPages) ≤ 2 ^ 29 := by
  have reserved := physReservedPages_le (physTotalPages totalPages)
  have total := physTotalPages_le totalPages
  unfold heapCeiling physReservedBytes
  unfold physMaxPages at total
  unfold kernelHeapBaseBytes
  split_ifs <;> omega

end MectovOS
