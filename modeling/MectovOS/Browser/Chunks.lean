/-
This file models how src/apps/browser.c decodes a chunked body in its buffer, and proves
that the decoder never overwrites what it still has to read: what it leaves at the front of
the body is what a decoder of the untouched bytes gives, and the pass that only measures
agrees. A body that is made of chunks decodes to them, whatever their sizes, extensions and
contents are.
-/

import Mathlib

namespace MectovOS.Browser

open Function (update update_self update_of_ne)

abbrev Bytes := List UInt8

/-! ### The size line -/

/-- `hexval`. -/
def hexval (c : UInt8) : Option Nat :=
  if 48 ≤ c ∧ c ≤ 57 then some (c.toNat - 48)
  else if 97 ≤ c ∧ c ≤ 102 then some (c.toNat - 97 + 10)
  else if 65 ≤ c ∧ c ≤ 70 then some (c.toNat - 65 + 10)
  else none

/-- The pairs of CR and LF in front of a size line. -/
def skipCrlf : Bytes → Bytes
  | 13 :: 10 :: rest => skipCrlf rest
  | bytes => bytes

/-- The digits of a size, at most eight, and no digit that would wrap 32 bits. -/
def chunkSize : Bytes → Nat → Nat → Option (Nat × Nat × Bytes)
  | [], sz, digits => some (sz, digits, [])
  | c :: rest, sz, digits =>
    match hexval c with
    | none => some (sz, digits, c :: rest)
    | some d =>
      if (2 ^ 32 - 1 - d) / 16 < sz then none
      else if 8 < digits + 1 then none
      else chunkSize rest (sz * 16 + d) (digits + 1)

/-- A size, and what is behind its line. -/
def chunkHeader (bytes : Bytes) : Option (Nat × Bytes) :=
  match chunkSize (skipCrlf bytes) 0 0 with
  | none => none
  | some (sz, digits, rest) =>
    if digits = 0 then none
    else
      match rest.dropWhile (· ≠ 10) with
      | [] => none
      | _ :: data => some (sz, data)

/-! ### The buffer -/

/-- The bytes of `raw_buf` that are not read yet. -/
def unread (buf : Nat → UInt8) (r stop : Nat) : Bytes :=
  (List.range (stop - r)).map fun i => buf (r + i)

/-- The loop that copies `count` bytes down. -/
def copyDown (buf : Nat → UInt8) (dst src : Nat) : Nat → Nat → UInt8
  | 0 => buf
  | count + 1 =>
    let copied := copyDown buf dst src count
    update copied (dst + count) (copied (src + count))

/-- `chunk_walk` from `r` on with `w` bytes decoded: whether the last chunk was seen, how many bytes
are decoded, and the buffer. Without `copies` it only measures. -/
def chunkWalk (copies : Bool) (start stop : Nat) :
    Nat → (Nat → UInt8) → Nat → Nat → Bool × Nat × (Nat → UInt8)
  | 0, buf, _, w => (false, w, buf)
  | fuel + 1, buf, r, w =>
    match chunkHeader (unread buf r stop) with
    | none => (false, w, buf)
    | some (sz, data) =>
      let r := stop - data.length
      if sz = 0 then (true, w, buf)
      else if stop - r < sz then
        (false, w + (stop - r), if copies then copyDown buf (start + w) r (stop - r) else buf)
      else
        chunkWalk copies start stop fuel (if copies then copyDown buf (start + w) r sz else buf)
          (r + sz) (w + sz)

/-- A buffer with bytes laid over it. -/
def laid (buf : Nat → UInt8) (base : Nat) (bytes : Bytes) (place : Nat) : UInt8 :=
  if base ≤ place ∧ place < base + bytes.length then bytes.getD (place - base) 0 else buf place

/-- A decoder that does not touch the bytes. -/
def decoded : Nat → Bytes → Bool × Bytes
  | 0, _ => (false, [])
  | fuel + 1, bytes =>
    match chunkHeader bytes with
    | none => (false, [])
    | some (sz, data) =>
      if sz = 0 then (true, [])
      else if data.length < sz then (false, data)
      else ((decoded fuel (data.drop sz)).1, data.take sz ++ (decoded fuel (data.drop sz)).2)

/-! ### The decoder in place -/

theorem chunkSize_suffix {bytes rest : Bytes} {from' digits sz count : Nat}
    (read : chunkSize bytes from' digits = some (sz, count, rest)) : rest <:+ bytes := by
  induction bytes generalizing from' digits with
  | nil =>
    rw [chunkSize] at read
    exact (Prod.mk.inj (Prod.mk.inj (Option.some.inj read)).2).2 ▸ List.suffix_rfl
  | cons c bytes induction =>
    rw [chunkSize] at read
    split at read
    · exact (Prod.mk.inj (Prod.mk.inj (Option.some.inj read)).2).2 ▸ List.suffix_rfl
    · split at read
      · cases read
      · split at read
        · cases read
        · exact (induction read).trans (List.suffix_cons c bytes)

theorem skipCrlf_suffix (bytes : Bytes) : skipCrlf bytes <:+ bytes := by
  induction bytes using skipCrlf.induct with
  | case1 rest induction =>
    rw [skipCrlf]
    exact induction.trans ((List.suffix_cons _ _).trans (List.suffix_cons _ _))
  | case2 bytes other =>
    simp only [skipCrlf.eq_2 _ other, List.suffix_refl]

/-- The data stands behind the line, which is not empty. -/
theorem chunkHeader_suffix {bytes data : Bytes} {sz : Nat}
    (read : chunkHeader bytes = some (sz, data)) : ∃ line, line ≠ [] ∧ bytes = line ++ data := by
  unfold chunkHeader at read
  split at read
  · cases read
  · next rest sized =>
    split at read
    · cases read
    · split at read
      · cases read
      · next newline data' dropped =>
        obtain rfl := (Prod.mk.inj (Option.some.inj read)).2
        have behind : newline :: data' <:+ bytes :=
          (dropped ▸ List.dropWhile_suffix _).trans
            ((chunkSize_suffix sized).trans (skipCrlf_suffix bytes))
        obtain ⟨line, cut⟩ := behind
        exact ⟨line ++ [newline], List.append_ne_nil_of_right_ne_nil _ (List.cons_ne_nil _ _),
          by rw [← cut, List.append_assoc, List.singleton_append]⟩

theorem unread_length (buf : Nat → UInt8) (r stop : Nat) :
    (unread buf r stop).length = stop - r := by
  unfold unread
  rw [List.length_map, List.length_range]

theorem unread_drop (buf : Nat → UInt8) (r stop count : Nat) :
    (unread buf r stop).drop count = unread buf (r + count) stop := by
  unfold unread
  apply List.ext_getElem
  · rw [List.length_drop, List.length_map, List.length_range, List.length_map, List.length_range]
    omega
  · intro i _ _
    rw [List.getElem_drop, List.getElem_map, List.getElem_map, List.getElem_range,
      List.getElem_range, Nat.add_assoc]

theorem laid_nil (buf : Nat → UInt8) (base : Nat) : laid buf base [] = buf :=
  funext fun _ => if_neg fun both => absurd both.2 (Nat.not_lt.mpr both.1)

theorem laid_append (buf : Nat → UInt8) (base : Nat) (bytes more : Bytes) :
    laid (laid buf base bytes) (base + bytes.length) more = laid buf base (bytes ++ more) := by
  funext place
  unfold laid
  rw [List.length_append]
  by_cases first : place < base + bytes.length
  · rw [if_neg (by omega)]
    by_cases inside : base ≤ place
    · rw [if_pos ⟨inside, first⟩, if_pos (by omega), List.getD_append _ _ _ _ (by omega)]
    · rw [if_neg (by omega), if_neg (by omega)]
  · by_cases inside : place < base + bytes.length + more.length
    · rw [if_pos (by omega), if_pos (by omega), List.getD_append_right _ _ _ _ (by omega),
        Nat.sub_add_eq]
    · rw [if_neg (by omega), if_neg (by omega), if_neg (by omega)]

theorem unread_laid (buf : Nat → UInt8) {base r : Nat} {bytes : Bytes} (stop : Nat)
    (behind : base + bytes.length ≤ r) : unread (laid buf base bytes) r stop = unread buf r stop :=
  List.map_congr_left fun _ _ => if_neg (by omega)

/-- Bytes copied down are laid over the buffer as they stood. -/
theorem copyDown_laid (buf : Nat → UInt8) {dst src stop count : Nat} (down : dst ≤ src)
    (inside : src + count ≤ stop) :
    copyDown buf dst src count = laid buf dst ((unread buf src stop).take count) := by
  induction count with
  | zero => rw [List.take_zero, laid_nil, copyDown]
  | succ count induction =>
    have taken : ((unread buf src stop).take count).length = count := by
      rw [List.length_take, unread_length]
      omega
    have next : (unread buf src stop)[count]? = some (buf (src + count)) := by
      rw [unread, List.getElem?_map, List.getElem?_range (by omega)]
      rfl
    have one : ∀ (buf : Nat → UInt8) (base : Nat) (byte : UInt8),
        update buf base byte = laid buf base [byte] := by
      intro buf base byte
      funext place
      unfold laid
      by_cases here : place = base
      · rw [here, update_self, if_pos ⟨Nat.le_refl _, Nat.lt_succ_self _⟩, Nat.sub_self]
        rfl
      · rw [update_of_ne here, if_neg (by rw [List.length_singleton]; omega)]
    rw [copyDown, induction (by omega), List.take_add_one, next, Option.toList_some, ← laid_append,
      taken, ← one]
    rw [show laid buf dst ((unread buf src stop).take count) (src + count) = buf (src + count) from
      if_neg (by omega)]

/-- More turns than bytes change nothing: each one reads a line. -/
theorem decoded_enough {fuel : Nat} {bytes : Bytes} (enough : bytes.length < fuel) :
    decoded (fuel + 1) bytes = decoded fuel bytes := by
  induction fuel generalizing bytes with
  | zero => cases enough
  | succ fuel induction =>
    rw [decoded.eq_2 bytes, decoded.eq_2 bytes]
    cases read : chunkHeader bytes with
    | none => rfl
    | some header =>
      obtain ⟨line, some, cut⟩ := chunkHeader_suffix read
      have positive := List.length_pos_iff.mpr some
      rw [cut, List.length_append] at enough
      dsimp only
      rw [induction (by rw [List.length_drop]; omega)]

/-- The walk in the buffer gives what the decoder gives: as many bytes, laid in front of all that is
not read yet, inside the body; measuring changes nothing, and neither do more turns than bytes. -/
theorem chunkWalk_decoded (copies : Bool) (start stop fuel : Nat) (buf : Nat → UInt8) (r w : Nat)
    (front : start + w ≤ r) :
    chunkWalk copies start stop fuel buf r w =
        ((decoded fuel (unread buf r stop)).1, w + (decoded fuel (unread buf r stop)).2.length,
          if copies then laid buf (start + w) (decoded fuel (unread buf r stop)).2 else buf) ∧
      (decoded fuel (unread buf r stop)).2.length ≤ stop - r ∧
      (stop - r < fuel → decoded (fuel + 1) (unread buf r stop) = decoded fuel (unread buf r stop)) := by
  have nothing : ∀ (buf : Nat → UInt8) (w : Nat) (done : Bool), (done, w, buf) =
      (done, w + ([] : Bytes).length, if copies then laid buf (start + w) [] else buf) := by
    intro buf w done
    rw [laid_nil, ite_self]
    rfl
  refine and_assoc.mp ⟨?_, fun enough => decoded_enough (by rwa [unread_length])⟩
  induction fuel generalizing buf r w with
  | zero => exact ⟨nothing buf w false, Nat.zero_le _⟩
  | succ fuel induction =>
    rw [chunkWalk, decoded]
    cases read : chunkHeader (unread buf r stop) with
    | none => exact ⟨nothing buf w false, Nat.zero_le _⟩
    | some header =>
      obtain ⟨sz, data⟩ := header
      obtain ⟨line, some, cut⟩ := chunkHeader_suffix read
      have positive := List.length_pos_iff.mpr some
      have lengths := congrArg List.length cut
      rw [List.length_append, unread_length] at lengths
      have behind : unread buf (stop - data.length) stop = data := by
        rw [show stop - data.length = r + line.length by omega, ← unread_drop, cut, List.drop_left]
      have copied : ∀ count ≤ data.length,
          (if copies then copyDown buf (start + w) (stop - data.length) count else buf) =
            if copies then laid buf (start + w) (data.take count) else buf := by
        intro count few
        rw [copyDown_laid buf (by omega) (by omega : stop - data.length + count ≤ stop), behind]
      dsimp only
      by_cases last : sz = 0
      · rw [if_pos last, if_pos last]
        exact ⟨nothing buf w true, Nat.zero_le _⟩
      rw [if_neg last, if_neg last]
      have size : stop - (stop - data.length) = data.length := by omega
      rw [size]
      by_cases short : data.length < sz
      · rw [if_pos short, if_pos short, copied _ (Nat.le_refl _), List.take_length]
        exact ⟨rfl, by dsimp only; omega⟩
      rw [if_neg short, if_neg short, copied sz (by omega)]
      have taken : (data.take sz).length = sz := by
        rw [List.length_take]
        omega
      have still : unread (if copies then laid buf (start + w) (data.take sz) else buf)
          (stop - data.length + sz) stop = data.drop sz := by
        have plain : unread buf (stop - data.length + sz) stop = data.drop sz := by
          rw [← unread_drop, behind]
        split
        · rw [unread_laid buf stop (by omega), plain]
        · exact plain
      obtain ⟨walked, room⟩ := induction (if copies then laid buf (start + w) (data.take sz) else buf)
        (stop - data.length + sz) (w + sz) (by omega)
      rw [still] at walked room
      refine ⟨?_, by rw [List.length_append, taken]; omega⟩
      rw [walked, List.length_append, taken, Nat.add_assoc]
      cases copies with
      | false => rfl
      | true =>
        have joined := laid_append buf (start + w) (data.take sz) (decoded fuel (data.drop sz)).2
        rw [taken, Nat.add_assoc] at joined
        exact congrArg (fun laid => (_, _, laid)) joined

/-- A body `3 CR LF abc CR LF 0 CR LF` at offset 2 of a buffer. -/
theorem chunkWalk_decoded_abc :
    (chunkWalk true 2 15 3 (fun place =>
      [88, 88, 51, 13, 10, 97, 98, 99, 13, 10, 48, 13, 10, 13, 10].getD place 0) 2 0).2.1 = 3 := by
  rw [(chunkWalk_decoded true 2 15 3 _ 2 0 (by decide)).1]
  decide +kernel

/-! ### A body of chunks -/

/-- A chunk: the digits of its size, the rest of the size line, and its data. -/
structure Chunk where
  digits : Bytes
  ext : Bytes
  data : Bytes
  hex : ∀ c ∈ digits, (hexval c).isSome = true
  some : 0 < digits.length
  few : digits.length ≤ 8
  size : digits.foldl (fun sz c => sz * 16 + (hexval c).getD 0) 0 = data.length
  line : (∀ c ∈ ext, c ≠ 10) ∧ hexval (ext.headD 13) = none

def Chunk.bytes (chunk : Chunk) : Bytes := chunk.digits ++ (chunk.ext ++ 13 :: 10 :: chunk.data)

theorem hexval_lt {c : UInt8} {d : Nat} (is : hexval c = some d) : d < 16 := by
  have all : ∀ value : Fin 256, ∀ d ∈ hexval (UInt8.ofFin value), d < 16 := by decide +kernel
  exact all c.toFin d is

theorem chunkSize_digits {digits tail : Bytes} {sz count : Nat} (room : count + digits.length ≤ 8)
    (small : sz < 16 ^ count) (hex : ∀ c ∈ digits, (hexval c).isSome = true)
    (ends : hexval (tail.headD 13) = none) (some' : tail ≠ []) :
    chunkSize (digits ++ tail) sz count =
      some (digits.foldl (fun sz c => sz * 16 + (hexval c).getD 0) sz, count + digits.length, tail) := by
  induction digits generalizing sz count with
  | nil =>
    obtain ⟨c, rest, rfl⟩ := List.exists_cons_of_ne_nil some'
    rw [List.nil_append, chunkSize, show hexval c = none from ends]
    rfl
  | cons c digits induction =>
    obtain ⟨d, is⟩ := Option.isSome_iff_exists.mp (hex c List.mem_cons_self)
    have digit := hexval_lt is
    rw [List.length_cons] at room
    have power : (16 : Nat) ^ count ≤ 16 ^ 7 := Nat.pow_le_pow_right (by omega) (by omega)
    have next : sz * 16 + d < 16 ^ (count + 1) := by
      rw [Nat.pow_succ]
      omega
    rw [List.cons_append, chunkSize, is]
    dsimp only
    rw [if_neg (by omega), if_neg (by omega), induction (by omega) next
      (fun c' member => hex c' (List.mem_cons_of_mem _ member)), List.foldl_cons, is,
      List.length_cons, Option.getD_some, Nat.add_assoc, Nat.add_comm 1]

/-- A chunk is read, behind the line break of the one before too. -/
theorem chunkHeader_bytes (chunk : Chunk) (rest : Bytes) :
    chunkHeader (chunk.bytes ++ rest) = some (chunk.data.length, chunk.data ++ rest) ∧
      chunkHeader (13 :: 10 :: (chunk.bytes ++ rest)) =
        some (chunk.data.length, chunk.data ++ rest) := by
  have first : skipCrlf (chunk.bytes ++ rest) = chunk.bytes ++ rest := by
    obtain ⟨c, digits, is⟩ := List.exists_cons_of_length_pos chunk.some
    have hex := chunk.hex c (is ▸ List.mem_cons_self)
    refine skipCrlf.eq_2 _ fun behind cut => ?_
    unfold Chunk.bytes at cut
    rw [is] at cut
    rw [(List.cons.inj cut).1] at hex
    exact absurd hex (by decide)
  have sized := @chunkSize_digits chunk.digits (chunk.ext ++ 13 :: 10 :: (chunk.data ++ rest)) 0 0
    (Nat.le_trans (Nat.le_of_eq (Nat.zero_add _)) chunk.few) (by decide) chunk.hex
    (by
      rw [← chunk.line.2]
      cases chunk.ext <;> rfl)
    (List.append_ne_nil_of_right_ne_nil _ (List.cons_ne_nil _ _))
  have broken : (chunk.ext ++ 13 :: 10 :: (chunk.data ++ rest)).dropWhile (· ≠ 10) =
      10 :: (chunk.data ++ rest) := by
    rw [List.dropWhile_append_of_pos fun c member => decide_eq_true (chunk.line.1 c member)]
    rfl
  have header : chunkHeader (chunk.bytes ++ rest) =
      some (chunk.data.length, chunk.data ++ rest) := by
    have shape : chunk.bytes ++ rest =
        chunk.digits ++ (chunk.ext ++ 13 :: 10 :: (chunk.data ++ rest)) := by
      unfold Chunk.bytes
      rw [List.append_assoc, List.append_assoc, List.cons_append, List.cons_append]
    have positive := chunk.some
    unfold chunkHeader
    rw [first, shape, sized]
    dsimp only
    rw [if_neg (by omega), broken, chunk.size]
  refine ⟨header, ?_⟩
  unfold chunkHeader at header ⊢
  rwa [skipCrlf]

/-- A body made of chunks decodes to them, at the chunk of size zero, whatever follows. -/
theorem decoded_chunks (chunks : List Chunk) (last : Chunk) (rest : Bytes)
    (full : ∀ chunk ∈ chunks, chunk.data ≠ []) (zero : last.data = []) (fuel : Nat)
    (enough : chunks.length < fuel) :
    decoded fuel ((chunks.flatMap fun chunk => chunk.bytes ++ [13, 10]) ++ (last.bytes ++ rest)) =
      (true, chunks.flatMap Chunk.data) := by
  have turn : ∀ (chunk : Chunk) (tail lead : Bytes) (fuel : Nat), chunk.data ≠ [] →
      chunkHeader lead = some (chunk.data.length, chunk.data ++ tail) →
      decoded (fuel + 1) lead = ((decoded fuel tail).1, chunk.data ++ (decoded fuel tail).2) := by
    intro chunk tail lead fuel more header
    have positive := List.length_pos_iff.mpr more
    rw [decoded, header]
    dsimp only
    rw [if_neg (by omega), if_neg (by rw [List.length_append]; omega), List.drop_left, List.take_left]
  have both : decoded fuel (13 :: 10 :: ((chunks.flatMap fun chunk => chunk.bytes ++ [13, 10]) ++
        (last.bytes ++ rest))) = (true, chunks.flatMap Chunk.data) ∧
      decoded fuel ((chunks.flatMap fun chunk => chunk.bytes ++ [13, 10]) ++ (last.bytes ++ rest)) =
        (true, chunks.flatMap Chunk.data) := by
    induction chunks generalizing fuel with
    | nil =>
      obtain ⟨turns, rfl⟩ := Nat.exists_eq_add_of_lt enough
      obtain ⟨plain, led⟩ := chunkHeader_bytes last rest
      rw [List.flatMap_nil, List.nil_append, decoded, decoded, plain, led, zero]
      exact ⟨rfl, rfl⟩
    | cons chunk chunks induction =>
      obtain ⟨turns, rfl⟩ := Nat.exists_eq_add_of_lt enough
      rw [List.length_cons, show chunks.length + 1 + turns + 1 = (chunks.length + turns + 1) + 1 by
        omega]
      obtain ⟨later, -⟩ := induction (fun chunk member => full chunk (List.mem_cons_of_mem _ member))
        (chunks.length + turns + 1) (by omega)
      have more := full chunk List.mem_cons_self
      have shape : (List.flatMap (fun chunk => chunk.bytes ++ [13, 10]) (chunk :: chunks)) ++
          (last.bytes ++ rest) = chunk.bytes ++ (13 :: 10 ::
            ((chunks.flatMap fun chunk => chunk.bytes ++ [13, 10]) ++ (last.bytes ++ rest))) := by
        rw [List.flatMap_cons, List.append_assoc, List.append_assoc]
        rfl
      obtain ⟨plain, led⟩ := chunkHeader_bytes chunk (13 :: 10 ::
        ((chunks.flatMap fun chunk => chunk.bytes ++ [13, 10]) ++ (last.bytes ++ rest)))
      rw [shape, turn _ _ _ _ more plain, turn _ _ _ _ more led, later, List.flatMap_cons]
      exact ⟨rfl, rfl⟩
  exact both.2

/-- A chunk of three bytes, and the last one. -/
def abcChunk : Chunk :=
  ⟨[51], [], [97, 98, 99], by simp [hexval], by decide, by decide, by decide, by simp [hexval]⟩

def lastChunk : Chunk :=
  ⟨[48], [], [], by simp [hexval], by decide, by decide, by decide, by simp [hexval]⟩

theorem decoded_chunks_abc :
    decoded 2 (([abcChunk].flatMap fun chunk => chunk.bytes ++ [13, 10]) ++
      (lastChunk.bytes ++ [13, 10])) = (true, [97, 98, 99]) :=
  decoded_chunks [abcChunk] lastChunk [13, 10] (by decide) rfl 2 (by decide)

end MectovOS.Browser
