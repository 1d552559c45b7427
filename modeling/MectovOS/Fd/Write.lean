/-
This file models `do_sys_write` of src/sys/fd.c on a file that is not held in
memory: the old contents are read into a buffer, the new bytes are written over
them and the whole is given back to the file system. It proves when this changes
only what was written. The buffer is bounded, a failed read counts as zeros, and
what the file system took is not compared with what it was given.
-/

import MectovOS.Lib.Splice

namespace MectovOS.Fd

open Splice

/-! ### The call -/

/-- `VFS_FD_MAX_FILE`. -/
@[irreducible] def vfsFdMaxFile : Nat := 8 * 1024 * 1024

/-- A write to a descriptor of a file: whether the permission and the path are found in order, the
append flag and the offset of the descriptor, the bytes of the caller, and which sizes `kmalloc`
serves with which bytes. -/
structure FileWrite where
  permitted : Bool
  pathFits : Bool
  append : Bool
  offset : Int
  size : Int
  buf : Nat → UInt8
  memory : Nat → Bool
  garbage : Nat → UInt8

/-- The file behind the descriptor: its contents, what `vfs_read_file` gets of the first bytes,
`none` for an error, and what `vfs_write_file` returns and leaves behind. A read gets no more than
it was asked for, and a write that is not refused leaves the first part of its data, as long as it
says. -/
structure FileBackend where
  content : List UInt8
  read : Nat → Option (List UInt8)
  write : List UInt8 → Int × List UInt8
  bounded : ∀ max bytes, read max = some bytes → bytes.length ≤ max
  stored : ∀ data, 0 ≤ (write data).1 →
    (write data).1 ≤ data.length ∧ (write data).2 = data.take (write data).1.toNat

/-- `oldsz`. -/
def FileBackend.oldsz (backend : FileBackend) : Nat := min backend.content.length vfsFdMaxFile

/-- The first bytes of the caller. -/
def FileWrite.data (call : FileWrite) (size : Nat) : List UInt8 := (List.range size).map call.buf

/-- Where the bytes go, how many of them, and the size of the file behind the write. -/
structure WritePlan where
  off : Nat
  size : Nat
  newsz : Nat
  deriving DecidableEq

/-- The checks before the old contents are read; `none` when the call returns -1. -/
def FileWrite.plan (call : FileWrite) (oldsz : Nat) : Option WritePlan :=
  let off : Int := if call.append then oldsz else call.offset
  let cap : Int := vfsFdMaxFile
  if call.permitted = false ∨ call.pathFits = false then none
  else if off < 0 ∨ call.size < 0 ∨ cap < off ∨ cap < call.size then none
  else
    let size := if cap < off + call.size then cap - off else call.size
    if cap < off + call.size ∧ size ≤ 0 then none
    else
      let newsz := min (max (off + size) oldsz) cap
      if call.memory (newsz.toNat + 1) then some ⟨off.toNat, size.toNat, newsz.toNat⟩ else none

/-- The buffer with the old contents: what the read got, and zeros behind it. -/
def FileWrite.load (call : FileWrite) (backend : FileBackend) (plan : WritePlan) : List UInt8 :=
  let whole := (List.range (plan.newsz + 1)).map call.garbage
  if 0 < backend.oldsz then
    let bytes := (backend.read backend.oldsz).getD []
    overwrite (overwrite whole 0 bytes) bytes.length
      (List.replicate (backend.oldsz - bytes.length) 0)
  else overwrite whole 0 (List.replicate (min plan.newsz plan.off) 0)

/-- The bytes that are given back to the file system. -/
def FileWrite.assemble (call : FileWrite) (backend : FileBackend) (plan : WritePlan) :
    List UInt8 :=
  let loaded := call.load backend plan
  let filled := if backend.oldsz < plan.off then
    overwrite loaded backend.oldsz
      (List.replicate (min (plan.off - backend.oldsz) (plan.newsz - backend.oldsz)) 0)
    else loaded
  let spliced := overwrite filled plan.off (call.data plan.size)
  (overwrite spliced plan.newsz [0]).take plan.newsz

/-- What a write returns, and the offset and the contents behind it. -/
structure WriteResult where
  returned : Int
  offset : Int
  content : List UInt8

/-- `do_sys_write`. -/
def doSysWrite (call : FileWrite) (backend : FileBackend) : WriteResult :=
  match call.plan backend.oldsz with
  | none => ⟨-1, call.offset, backend.content⟩
  | some plan =>
    let written := backend.write (call.assemble backend plan)
    if 0 ≤ written.1 then ⟨plan.size, plan.off + plan.size, written.2⟩
    else ⟨written.1, call.offset, written.2⟩

/-! ### What a write should do -/

/-- Where a write belongs: at the end of the file when it appends. -/
def FileWrite.position (call : FileWrite) (backend : FileBackend) : Int :=
  if call.append then backend.content.length else call.offset

/-- There are old contents and they cannot be read. -/
def FileBackend.Unreadable (backend : FileBackend) : Prop :=
  0 < backend.oldsz ∧ backend.read backend.oldsz = none

/-- A write changes only what was written: the bytes it reports go to their position, a gap before
them is zero, and the offset moves behind them; the file is as it was when the call fails or the
old contents cannot be read. -/
structure WriteKept (call : FileWrite) (backend : FileBackend) (result : WriteResult) : Prop where
  written : 0 ≤ result.returned →
    result.content = storeAt 0 backend.content (call.position backend).toNat
      (call.data result.returned.toNat) ∧
    result.offset = call.position backend + result.returned
  failed : result.returned < 0 → result.content = backend.content
  unread : backend.Unreadable → result.content = backend.content

/-- What the buffer holds of the old contents. -/
def FileBackend.seen (backend : FileBackend) : List UInt8 :=
  let bytes := (backend.read backend.oldsz).getD []
  bytes ++ List.replicate (backend.oldsz - bytes.length) 0

/-- The file system plays along: it leaves the file alone when it refuses the write; and when it
takes it, it takes all of it, the file is not larger than the buffer may be, each old byte outside
of the written ones was read, or is a zero, and if nothing could be read the write changes
nothing. -/
structure PlaysAlong (call : FileWrite) (backend : FileBackend) (plan : WritePlan) : Prop where
  refused : (backend.write (call.assemble backend plan)).1 < 0 →
    (backend.write (call.assemble backend plan)).2 = backend.content
  whole : 0 ≤ (backend.write (call.assemble backend plan)).1 →
    (backend.write (call.assemble backend plan)).1 = plan.newsz
  small : 0 ≤ (backend.write (call.assemble backend plan)).1 →
    backend.content.length ≤ vfsFdMaxFile
  read : 0 ≤ (backend.write (call.assemble backend plan)).1 →
    ∀ index < backend.content.length, index < plan.off ∨ plan.off + plan.size ≤ index →
      backend.seen[index]? = backend.content[index]?
  unread : 0 ≤ (backend.write (call.assemble backend plan)).1 → backend.Unreadable →
    storeAt 0 backend.content plan.off (call.data plan.size) = backend.content

/-! ### The buffer -/

variable {call : FileWrite} {backend : FileBackend} {plan : WritePlan}

/-- What the checks leave of a plan. -/
theorem plan_spec {oldsz : Nat} (planned : call.plan oldsz = some plan)
    (capped : oldsz ≤ vfsFdMaxFile) :
    (plan.off : Int) = (if call.append then (oldsz : Int) else call.offset) ∧
      plan.newsz = max oldsz (plan.off + plan.size) ∧ plan.newsz ≤ vfsFdMaxFile := by
  unfold FileWrite.plan at planned
  dsimp only at planned
  generalize (if call.append = true then (oldsz : Int) else call.offset) = off at planned ⊢
  generalize vfsFdMaxFile = cap at planned capped ⊢
  generalize clamped : (if (cap : Int) < off + call.size then (cap : Int) - off else call.size) =
    size at planned
  split at planned
  · exact absurd planned (by simp)
  split at planned
  · exact absurd planned (by simp)
  split at planned
  · exact absurd planned (by simp)
  rename_i sound room
  obtain ⟨_, same⟩ := Option.ite_none_right_eq_some.mp planned
  obtain rfl := Option.some.inj same
  dsimp only
  by_cases beyond : (cap : Int) < off + call.size
  · rw [if_pos beyond] at clamped
    omega
  · rw [if_neg beyond] at clamped
    omega

theorem seen_length (backend : FileBackend) : backend.seen.length = backend.oldsz := by
  unfold FileBackend.seen
  dsimp only
  rw [List.length_append, List.length_replicate]
  cases got : backend.read backend.oldsz with
  | none => exact Nat.zero_add _
  | some bytes =>
    have fits := backend.bounded _ bytes got
    show bytes.length + (backend.oldsz - bytes.length) = _
    omega

/-- The buffer holds what is seen of the old contents. -/
theorem load_take (within : backend.oldsz ≤ plan.newsz) :
    (call.load backend plan).length = plan.newsz + 1 ∧
      (call.load backend plan).take backend.oldsz = backend.seen := by
  have seen := seen_length backend
  unfold FileWrite.load
  unfold FileBackend.seen at seen ⊢
  dsimp only at seen ⊢
  generalize (backend.read backend.oldsz).getD [] = bytes at seen ⊢
  have sized : ((List.range (plan.newsz + 1)).map call.garbage).length = plan.newsz + 1 := by
    rw [List.length_map, List.length_range]
  generalize (List.range (plan.newsz + 1)).map call.garbage = whole at sized ⊢
  rw [List.length_append, List.length_replicate] at seen
  by_cases some' : 0 < backend.oldsz
  · rw [if_pos some']
    have first : (overwrite whole 0 bytes).length = whole.length :=
      overwrite_length (by omega)
    have room : bytes.length + (List.replicate (backend.oldsz - bytes.length) (0 : UInt8)).length ≤
        (overwrite whole 0 bytes).length := by
      rw [List.length_replicate]
      omega
    refine ⟨(overwrite_length room).trans (first.trans sized), ?_⟩
    have behind := @overwrite_take _ (overwrite whole 0 bytes)
      (List.replicate (backend.oldsz - bytes.length) 0) bytes.length (by omega)
    have front := @overwrite_take _ whole bytes 0 (Nat.zero_le _)
    rw [Nat.zero_add, List.take_zero, List.nil_append] at front
    rwa [List.length_replicate, seen, front] at behind
  · have empty : backend.oldsz = 0 := by omega
    rw [if_neg some']
    refine ⟨(overwrite_length ?_).trans sized, ?_⟩
    · rw [List.length_replicate]
      omega
    · rw [empty] at seen ⊢
      have none' : bytes = [] := List.length_eq_zero_iff.mp (by omega)
      rw [none', List.take_zero]
      rfl

/-- The file system is given the old contents, as far as they were seen, with the new bytes stored
in them. -/
theorem assemble_eq (planned : call.plan backend.oldsz = some plan) :
    call.assemble backend plan = storeAt 0 backend.seen plan.off (call.data plan.size) := by
  obtain ⟨_, newsz, _⟩ := plan_spec planned (Nat.min_le_right _ _)
  obtain ⟨length, seen⟩ := @load_take call backend plan (by omega)
  have sized : (call.data plan.size).length = plan.size := by
    unfold FileWrite.data
    rw [List.length_map, List.length_range]
  unfold FileWrite.assemble
  dsimp only
  generalize call.load backend plan = loaded at length seen ⊢
  have filled : (if backend.oldsz < plan.off then
      overwrite loaded backend.oldsz
        (List.replicate (min (plan.off - backend.oldsz) (plan.newsz - backend.oldsz)) 0)
      else loaded) = clearGap 0 loaded backend.oldsz plan.off := by
    split
    · rw [Nat.min_eq_left (by omega)]
      rfl
    · exact (clearGap_drop (by omega)).symm
  rw [filled]
  have cleared := @clearGap_length _ 0 loaded backend.oldsz plan.off (by omega) (by omega)
  have spliced : (overwrite (clearGap 0 loaded backend.oldsz plan.off) plan.off
      (call.data plan.size)).length = loaded.length :=
    (overwrite_length (by omega)).trans cleared
  have ended : plan.newsz ≤ (overwrite (clearGap 0 loaded backend.oldsz plan.off) plan.off
      (call.data plan.size)).length := by
    omega
  have buffer := @storeAt_buffer _ (0 : UInt8) loaded (call.data plan.size) backend.oldsz plan.off
    (by omega) (by omega)
  rw [sized, seen] at buffer
  rw [overwrite_before ended, newsz]
  exact buffer

/-! ### When a write changes only what was written -/

theorem data_length (call : FileWrite) (size : Nat) : (call.data size).length = size := by
  unfold FileWrite.data
  rw [List.length_map, List.length_range]

/-- A write that does not reach the file system changes nothing. -/
theorem unplanned_kept (planned : call.plan backend.oldsz = none) :
    WriteKept call backend (doSysWrite call backend) := by
  unfold doSysWrite
  rw [planned]
  exact ⟨fun returned => absurd returned (by simp), fun _ => rfl, fun _ => rfl⟩

/-- A write that the file system refuses. -/
theorem refused_iff (planned : call.plan backend.oldsz = some plan)
    (refuses : (backend.write (call.assemble backend plan)).1 < 0) :
    WriteKept call backend (doSysWrite call backend) ↔ PlaysAlong call backend plan := by
  have result : doSysWrite call backend = ⟨(backend.write (call.assemble backend plan)).1,
      call.offset, (backend.write (call.assemble backend plan)).2⟩ := by
    unfold doSysWrite
    rw [planned]
    exact if_neg (by omega)
  have refusal : ∀ {claim : Prop}, 0 ≤ (backend.write (call.assemble backend plan)).1 → claim :=
    fun taken => absurd taken (by omega)
  rw [result]
  refine ⟨fun kept => ⟨fun _ => kept.failed refuses, refusal, refusal, refusal, refusal⟩,
    fun plays => ⟨refusal, fun _ => plays.refused refuses, fun _ => plays.refused refuses⟩⟩

/-- A write that the file system takes. -/
theorem taken_iff (planned : call.plan backend.oldsz = some plan)
    (takes : 0 ≤ (backend.write (call.assemble backend plan)).1) :
    WriteKept call backend (doSysWrite call backend) ↔ PlaysAlong call backend plan := by
  obtain ⟨off, newsz, capped⟩ := plan_spec planned (Nat.min_le_right _ _)
  obtain ⟨most, leaves⟩ := backend.stored _ takes
  have result : doSysWrite call backend = ⟨plan.size, plan.off + plan.size,
      (backend.write (call.assemble backend plan)).2⟩ := by
    unfold doSysWrite
    rw [planned]
    exact if_pos takes
  have assembled := assemble_eq planned
  have seen := seen_length backend
  have sized := data_length call plan.size
  have given : (call.assemble backend plan).length = plan.newsz := by
    rw [assembled, storeAt_length, seen, sized, newsz]
  have taken : ∀ {claim : Prop}, (backend.write (call.assemble backend plan)).1 < 0 → claim :=
    fun refuses => absurd refuses (by omega)
  have small : backend.content.length ≤ vfsFdMaxFile →
      backend.oldsz = backend.content.length ∧ call.position backend = plan.off := by
    intro fits
    have whole : backend.oldsz = backend.content.length := Nat.min_eq_left fits
    rw [whole] at off
    exact ⟨whole, off.symm⟩
  rw [result]
  refine ⟨fun kept => ?_, fun plays => ?_⟩
  · obtain ⟨content, offset⟩ := kept.written (Int.natCast_nonneg plan.size)
    dsimp only at content offset
    rw [Int.toNat_natCast] at content
    have length := congrArg List.length content
    rw [leaves, List.length_take, given, storeAt_length, sized] at length
    have fits : backend.content.length ≤ vfsFdMaxFile := by omega
    obtain ⟨whole, position⟩ := small fits
    rw [position, Int.toNat_natCast] at content length
    have all : (backend.write (call.assemble backend plan)).1 = plan.newsz := by omega
    rw [leaves, all, Int.toNat_natCast, List.take_of_length_le (by omega), assembled] at content
    refine ⟨taken, fun _ => all, fun _ => fits, fun _ index inside outside => ?_, fun _ unread => ?_⟩
    · exact (storeAt_eq_iff 0 (seen.trans whole)).mp content index inside (by rwa [sized])
    · have same := kept.unread unread
      dsimp only at same
      rw [leaves, all, Int.toNat_natCast, List.take_of_length_le (by omega), assembled,
        content] at same
      exact same
  · obtain ⟨whole, position⟩ := small (plays.small takes)
    have content : (backend.write (call.assemble backend plan)).2 =
        storeAt 0 backend.content plan.off (call.data plan.size) := by
      rw [leaves, plays.whole takes, Int.toNat_natCast, List.take_of_length_le (by omega), assembled]
      refine (storeAt_eq_iff 0 (seen.trans whole)).mpr fun index inside outside => ?_
      rw [sized] at outside
      exact plays.read takes index inside outside
    refine ⟨fun _ => ⟨?_, ?_⟩, fun negative => ?_, fun unread => ?_⟩
    · dsimp only
      rw [Int.toNat_natCast, position, Int.toNat_natCast, content]
    · dsimp only
      rw [position]
    · exact absurd negative (by dsimp only; omega)
    · dsimp only
      rw [content, plays.unread takes unread]

/-- A file of three bytes whose read fails while its writes succeed. -/
def unreadableFile : FileBackend where
  content := [1, 2, 3]
  read _ := none
  write data := (data.length, data)
  bounded _ _ got := absurd got (by simp)
  stored data _ := ⟨Int.le_refl _, by rw [Int.toNat_natCast, List.take_length]⟩

/-- One byte at the start of a file. -/
def oneByte : FileWrite := ⟨true, true, false, 0, 1, fun _ => 7, fun _ => true, fun _ => 0⟩

end MectovOS.Fd
