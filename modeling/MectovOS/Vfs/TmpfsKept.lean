/-
This file proves that tmpfs keeps its promises in every run whose descriptor
writes fit. The invariant ties the buffers to the node table: each belongs to a
RAM file in use and is as long as its capacity, and the contents of a file are
the part of its buffer that its size covers.
-/

import MectovOS.Vfs.Tmpfs

namespace MectovOS.Vfs

open Transition Splice Function

/-! ### Buffers -/

/-- The buffers add up, and each belongs to a file. -/
structure Ram.Balanced (ram : Ram) (file : Nat → Prop) : Prop where
  total : ram.used = ∑ node ∈ Finset.range maxNodes, ram.cap node
  budget : ram.used ≤ tmpfsMaxBytes
  buffer : ∀ node, (ram.buf node = none ∧ ram.cap node = 0) ∨
    ∃ bytes, ram.buf node = some bytes ∧ bytes.length = ram.cap node ∧ 0 < ram.cap node ∧
      node < maxNodes ∧ file node

variable {ram grown : Ram} {file : Nat → Prop}

theorem sum_update (cap : Nat → Nat) {node : Nat} (within : node < maxNodes) (value : Nat) :
    (∑ other ∈ Finset.range maxNodes, update cap node value other) + cap node =
      (∑ other ∈ Finset.range maxNodes, cap other) + value := by
  have member := Finset.mem_range.mpr within
  rw [Finset.sum_update_of_mem member, ← Finset.add_sum_erase _ cap member,
    Finset.sdiff_singleton_eq_erase]
  omega

theorem Ram.Balanced.mono (balanced : ram.Balanced file) {wider : Nat → Prop}
    (wide : ∀ node, (ram.buf node).isSome = true → file node → wider node) :
    ram.Balanced wider := by
  refine ⟨balanced.total, balanced.budget, fun node => ?_⟩
  rcases balanced.buffer node with empty | ⟨bytes, is, length, positive, within, owner⟩
  · exact Or.inl empty
  · exact Or.inr ⟨bytes, is, length, positive, within, wide node (by rw [is]; rfl) owner⟩

/-- The capacity of a node counts in the total. -/
theorem Ram.Balanced.cap_le (balanced : ram.Balanced file) (node : Nat) :
    ram.cap node ≤ ram.used := by
  rcases balanced.buffer node with ⟨_, none'⟩ | ⟨_, _, _, _, within, _⟩
  · omega
  · rw [balanced.total]
    exact Finset.single_le_sum (fun _ _ => Nat.zero_le _) (Finset.mem_range.mpr within)

/-- Without a buffer there is no capacity. -/
theorem Ram.Balanced.some_iff (balanced : ram.Balanced file) (node : Nat) :
    (ram.buf node).isSome = true ↔ ram.cap node ≠ 0 := by
  rcases balanced.buffer node with ⟨none', zero⟩ | ⟨bytes, is, _, positive, _⟩
  · rw [none', zero]
    simp
  · rw [is]
    simp [Nat.ne_of_gt positive]

/-- What is taken off the total for a node. -/
theorem Ram.Balanced.taken (balanced : ram.Balanced file) (node : Nat) :
    (if (ram.buf node).isSome then ram.used - ram.cap node else ram.used) =
      ram.used - ram.cap node := by
  split
  · rfl
  · rename_i none'
    rw [balanced.some_iff, not_not] at none'
    omega

theorem tmpfsFreeNode_same (ram : Ram) {node other : Nat} (different : other ≠ node) :
    (tmpfsFreeNode ram node).buf other = ram.buf other ∧
      (tmpfsFreeNode ram node).cap other = ram.cap other := by
  unfold tmpfsFreeNode
  split
  · exact ⟨rfl, rfl⟩
  · exact ⟨update_of_ne different _ _, update_of_ne different _ _⟩

theorem Ram.Balanced.freeNode (balanced : ram.Balanced file) (node : Nat) :
    (tmpfsFreeNode ram node).Balanced fun other => file other ∧ other ≠ node := by
  by_cases within : node < maxNodes
  · have small := balanced.cap_le node
    have sum := sum_update ram.cap within 0
    have total := balanced.total
    have budget := balanced.budget
    unfold tmpfsFreeNode
    rw [if_neg (by omega), balanced.taken]
    refine ⟨?_, ?_, fun other => ?_⟩
    · show ram.used - ram.cap node =
        ∑ other ∈ Finset.range maxNodes, update ram.cap node 0 other
      omega
    · show ram.used - ram.cap node ≤ tmpfsMaxBytes
      omega
    rcases eq_or_ne other node with rfl | different
    · exact Or.inl ⟨update_self _ _ _, update_self _ _ _⟩
    · simp only [update_of_ne different]
      rcases balanced.buffer other with empty | ⟨bytes, is, length, positive, inside, owner⟩
      · exact Or.inl empty
      · exact Or.inr ⟨bytes, is, length, positive, inside, owner, different⟩
  · unfold tmpfsFreeNode
    rw [if_pos (by omega)]
    refine balanced.mono fun other some' owner => ⟨owner, ?_⟩
    rintro rfl
    rcases balanced.buffer other with ⟨none', _⟩ | ⟨_, _, _, _, inside, _⟩
    · rw [none'] at some'
      exact absurd some' (by simp)
    · exact within inside

theorem tmpfsFreeAll_same (ram : Ram) {freed : List Nat} {other : Nat} (stays : other ∉ freed) :
    (tmpfsFreeAll ram freed).buf other = ram.buf other ∧
      (tmpfsFreeAll ram freed).cap other = ram.cap other := by
  induction freed generalizing ram with
  | nil => exact ⟨rfl, rfl⟩
  | cons node rest inductionHypothesis =>
    have later := inductionHypothesis (tmpfsFreeNode ram node) (List.not_mem_of_not_mem_cons stays)
    have now := tmpfsFreeNode_same ram (List.ne_of_not_mem_cons stays)
    exact ⟨later.1.trans now.1, later.2.trans now.2⟩

/-- Freed slots have no buffers, and the rest is as before. -/
theorem Ram.Balanced.freeAll (balanced : ram.Balanced file) (freed : List Nat) :
    (tmpfsFreeAll ram freed).Balanced fun other => file other ∧ other ∉ freed := by
  induction freed generalizing ram file with
  | nil => exact balanced.mono fun _ _ owner => ⟨owner, List.not_mem_nil⟩
  | cons node rest inductionHypothesis =>
    refine (inductionHypothesis (balanced.freeNode node)).mono fun other _ owner => ?_
    exact ⟨owner.1.1, List.not_mem_cons_of_ne_of_not_mem owner.1.2 owner.2⟩

/-! ### Growing -/

/-- What a growth gives: room for the new size, and the bytes that the size covers. -/
structure Grown (ram grown : Ram) (size node newSize : Nat) : Prop where
  room : newSize ≤ grown.cap node
  bytes : ((grown.buf node).getD []).take size = ((ram.buf node).getD []).take size
  more : ram.cap node ≤ grown.cap node
  others : ∀ other, other ≠ node →
    grown.buf other = ram.buf other ∧ grown.cap other = ram.cap other

theorem Ram.Balanced.grow (balanced : ram.Balanced file) {size node newSize : Nat} {heap : Bool}
    (within : node < maxNodes) (owner : file node) (sized : size ≤ ram.cap node)
    (is : tmpfsGrow ram size node newSize heap = some grown) :
    grown.Balanced file ∧ Grown ram grown size node newSize := by
  unfold tmpfsGrow at is
  split at is
  · exact absurd is (by simp)
  rename_i room
  split at is
  · rename_i fits
    obtain rfl := Option.some.inj is
    exact ⟨balanced, fits, rfl, Nat.le_refl _, fun _ _ => ⟨rfl, rfl⟩⟩
  rename_i short
  have more : roundUp newSize - ram.cap node ≤ tmpfsMaxBytes - ram.used := by
    unfold tmpfsRoom at room
    rw [Bool.not_eq_false, Bool.and_eq_true, Bool.or_eq_true, Bool.and_eq_true,
      decide_eq_true_iff, decide_eq_true_iff, decide_eq_true_iff] at room
    rcases room.2 with fits | ⟨budget, _⟩
    · exact absurd fits short
    · exact budget
  have reach : newSize ≤ roundUp newSize := by
    unfold roundUp
    omega
  simp only at is
  rw [balanced.taken] at is
  generalize roundUp newSize = want at is more reach
  have covers : ((ram.buf node).getD []).take (min size newSize) =
      ((ram.buf node).getD []).take size := by
    rw [Nat.min_eq_left (by omega)]
  have long : (((ram.buf node).getD []).take size).length = size := by
    rw [List.length_take]
    rcases balanced.buffer node with ⟨none', zero⟩ | ⟨bytes, some', length, _⟩
    · omega
    · rw [some', Option.getD_some]
      omega
  rw [covers, long] at is
  obtain rfl := Option.some.inj is
  have small := balanced.cap_le node
  have sum := sum_update ram.cap within want
  have total := balanced.total
  have budget := balanced.budget
  refine ⟨⟨?_, ?_, fun other => ?_⟩, ?_, ?_, ?_, fun other different =>
    ⟨update_of_ne different _ _, update_of_ne different _ _⟩⟩
  · show ram.used - ram.cap node + want =
      ∑ other ∈ Finset.range maxNodes, update ram.cap node want other
    omega
  · show ram.used - ram.cap node + want ≤ tmpfsMaxBytes
    omega
  · rcases eq_or_ne other node with rfl | different
    · refine Or.inr ⟨_, update_self _ _ _, ?_, ?_, within, owner⟩
      · simp only [update_self, List.length_append, List.length_replicate, long]
        omega
      · simp only [update_self]
        omega
    · simp only [update_of_ne different]
      exact balanced.buffer other
  · simp only [update_self]
    exact reach
  · simp only [update_self, Option.getD_some]
    exact List.take_left' long
  · simp only [update_self]
    omega

theorem Ram.Balanced.setBuf (balanced : ram.Balanced file) (node : Nat)
    {change : List UInt8 → List UInt8}
    (keeps : ∀ bytes, ram.buf node = some bytes → (change bytes).length = bytes.length) :
    (ram.setBuf node change).Balanced file := by
  refine ⟨balanced.total, balanced.budget, fun other => ?_⟩
  unfold Ram.setBuf
  rcases eq_or_ne other node with rfl | different
  · simp only [update_self]
    rcases balanced.buffer other with ⟨none', zero⟩ | ⟨bytes, is, length, others⟩
    · exact Or.inl ⟨by rw [none']; rfl, zero⟩
    · exact Or.inr ⟨change bytes, by rw [is]; rfl, (keeps bytes is).trans length, others⟩
  · simp only [update_of_ne different]
    exact balanced.buffer other

/-! ### Writes -/

/-- A whole write is refused and changes nothing, or it grows the buffer and fills it. -/
theorem tmpfsWriteWhole_cases (nodes : Nodes) (ram : Ram) (node : Nat) (data : List UInt8)
    (heap : Bool) :
    (∃ code < 0, tmpfsWriteWhole nodes ram node data heap = (code, nodes, ram)) ∨
    ∃ grown, tmpfsGrow ram (nodes node).size node data.length heap = some grown ∧
      tmpfsWriteWhole nodes ram node data heap =
        ((data.length : Int), setSize nodes node data.length,
          grown.setBuf node (overwrite · 0 data)) := by
  unfold tmpfsWriteWhole
  split
  · exact Or.inl ⟨-3, by decide, rfl⟩
  split
  · exact Or.inl ⟨-3, by decide, rfl⟩
  · rename_i grown grew
    exact Or.inr ⟨grown, grew, rfl⟩

/-- A write at an offset is refused and changes nothing, or it stores as much as the limit
allows. -/
theorem writeFileOffset_cases (nodes : Nodes) (ram : Ram) (node offset : Nat)
    (data : List UInt8) (append heap : Bool) {off : Nat}
    (begins : (if append then (nodes node).size else offset) = off) :
    (∃ code < 0, writeFileOffset nodes ram node offset data append heap = (code, nodes, ram)) ∨
    ∃ grown stored, stored = data.take (tmpfsMaxFile - off) ∧ node < maxNodes ∧
      (nodes node).inUse = true ∧ (nodes node).type = .ramFile ∧ off ≤ tmpfsMaxFile ∧
      data.length ≤ tmpfsMaxFile ∧ (tmpfsMaxFile < off + data.length → off < tmpfsMaxFile) ∧
      tmpfsGrow ram (nodes node).size node (off + stored.length) heap = some grown ∧
      writeFileOffset nodes ram node offset data append heap =
        ((stored.length : Int), setSize nodes node (max (nodes node).size (off + stored.length)),
          grown.setBuf node fun buffer =>
            overwrite (clearGap 0 buffer (nodes node).size off) off stored) := by
  unfold writeFileOffset
  split
  · exact Or.inl ⟨-1, by decide, rfl⟩
  rename_i used
  rw [not_or, Bool.not_eq_false, Nat.not_le] at used
  split
  · exact Or.inl ⟨-1, by decide, rfl⟩
  rename_i ramFile
  rw [ne_eq, not_not] at ramFile
  simp only
  rw [begins]
  split
  · exact Or.inl ⟨-1, by decide, rfl⟩
  rename_i small
  rw [not_or, Nat.not_lt, Nat.not_lt] at small
  split
  · exact Or.inl ⟨-1, by decide, rfl⟩
  rename_i below
  split
  · exact Or.inl ⟨-3, by decide, rfl⟩
  · rename_i grown grew
    exact Or.inr ⟨grown, _, rfl, used.1, used.2, ramFile, small.1, small.2, by omega, grew, rfl⟩

/-! ### The invariant -/

variable {state next : RamFs}

/-- What a fitting run keeps. -/
structure RamSound (state : RamFs) : Prop where
  balanced : state.ram.Balanced state.IsFile
  sized : ∀ node, state.IsFile node → (state.nodes node).size ≤ state.ram.cap node
  contents : ∀ node, state.IsFile node →
    state.contents node = ((state.ram.buf node).getD []).take (state.nodes node).size
  offsets : ∀ index fd, state.fds index = some fd → fd.offset = state.positions index

/-- A buffer is as long as its capacity, also where there is none. -/
theorem Ram.Balanced.length (balanced : ram.Balanced file) (node : Nat) :
    ((ram.buf node).getD []).length = ram.cap node := by
  rcases balanced.buffer node with ⟨none', zero⟩ | ⟨bytes, is, length, _⟩
  · rw [none', zero]
    rfl
  · rw [is]
    exact length

/-- A file is written: its buffer has grown and changed, and its contents follow. -/
theorem RamSound.written (sound : RamSound state) {node newSize size : Nat} {heap : Bool}
    {change : List UInt8 → List UInt8} {value : List UInt8} (isFile : state.IsFile node)
    (grew : tmpfsGrow state.ram (state.nodes node).size node newSize heap = some grown)
    (keeps : ∀ bytes, grown.buf node = some bytes → (change bytes).length = bytes.length)
    (fits : size ≤ grown.cap node)
    (holds : value = (((grown.buf node).map change).getD []).take size) :
    RamSound { state with
      nodes := setSize state.nodes node size
      ram := grown.setBuf node change
      contents := update state.contents node value } := by
  obtain ⟨balanced, grown'⟩ :=
    sound.balanced.grow isFile.1 isFile (sound.sized node isFile) grew
  have files : ∀ other, RamFs.IsFile { state with
      nodes := setSize state.nodes node size
      ram := grown.setBuf node change
      contents := update state.contents node value } other ↔ state.IsFile other := by
    intro other
    unfold RamFs.IsFile setSize
    rcases eq_or_ne other node with rfl | different
    · simp only [update_self]
    · simp only [update_of_ne different]
  refine ⟨(balanced.setBuf node keeps).mono fun other _ owner => (files other).mpr owner,
    fun other owner => ?_, fun other owner => ?_, sound.offsets⟩
  · have before := (files other).mp owner
    rcases eq_or_ne other node with rfl | different
    · simp only [setSize, update_self]
      exact fits
    · simp only [setSize, update_of_ne different]
      show _ ≤ grown.cap other
      rw [(grown'.others other different).2]
      exact sound.sized other before
  · have before := (files other).mp owner
    rcases eq_or_ne other node with rfl | different
    · simp only [setSize, Ram.setBuf, update_self]
      exact holds
    · simp only [setSize, Ram.setBuf, update_of_ne different]
      rw [(grown'.others other different).1]
      exact sound.contents other before

theorem RamSound.writeWhole (sound : RamSound state) (node : Nat) (data : List UInt8)
    (heap : Bool) : RamSound (state.writeWhole node data heap) := by
  unfold RamFs.writeWhole
  split
  · exact sound
  rename_i used
  rw [not_or, not_or, Bool.not_eq_false, ne_eq, not_not, Nat.not_le] at used
  have isFile : state.IsFile node := used
  have within := used.1
  simp only
  rcases tmpfsWriteWhole_cases state.nodes state.ram node data heap with
    ⟨code, negative, done⟩ | ⟨grown, grew, done⟩
  · rw [done]
    simp only [negative, if_true]
    exact sound
  · rw [done]
    simp only
    rw [if_neg (by omega)]
    obtain ⟨balanced, grown'⟩ :=
      sound.balanced.grow within isFile (sound.sized node isFile) grew
    have long := balanced.length node
    refine sound.written isFile grew (fun bytes is => ?_) grown'.room ?_
    · rw [is, Option.getD_some] at long
      refine overwrite_length ?_
      rw [Nat.zero_add, long]
      exact grown'.room
    · cases is : grown.buf node with
      | none =>
        have room := grown'.room
        rw [is] at long
        simp only [Option.getD_none, List.length_nil] at long
        have empty : data = [] := List.length_eq_zero_iff.mp (by omega)
        rw [empty]
        rfl
      | some bytes =>
        have covered := @overwrite_take _ bytes data 0 (Nat.zero_le _)
        rw [Nat.zero_add, List.take_zero, List.nil_append] at covered
        exact covered.symm

theorem RamSound.writeAt (sound : RamSound state) (node offset : Nat) (data : List UInt8)
    (append heap : Bool) : RamSound (state.writeAt node offset data append heap) := by
  unfold RamFs.writeAt
  generalize begins : (if append then (state.nodes node).size else offset) = off
  rcases writeFileOffset_cases state.nodes state.ram node offset data append heap begins with
    ⟨code, negative, done⟩ | ⟨grown, stored, is, within, used, ramFile, _, _, _, grew, done⟩
  · rw [done]
    unfold RamFs.store
    simp only
    rw [if_pos negative]
    exact sound
  · rw [done]
    have isFile : state.IsFile node := ⟨within, used, ramFile⟩
    have taken : data.take stored.length = stored := by
      rw [is, List.length_take, List.take_eq_take_iff]
      omega
    unfold RamFs.store
    simp only
    rw [if_neg (by omega), Int.toNat_natCast, taken]
    obtain ⟨balanced, grown'⟩ :=
      sound.balanced.grow within isFile (sound.sized node isFile) grew
    have long := balanced.length node
    have room := grown'.room
    have sized := Nat.le_trans (sound.sized node isFile) grown'.more
    refine sound.written isFile grew (fun bytes is => ?_) (by omega) ?_
    · rw [is, Option.getD_some] at long
      have cleared := @clearGap_length _ 0 bytes (state.nodes node).size off (by omega) (by omega)
      rw [overwrite_length (by rw [cleared]; omega), cleared]
    · rw [sound.contents node isFile, ← grown'.bytes]
      cases is : grown.buf node with
      | none =>
        rw [is] at long
        simp only [Option.getD_none, List.length_nil] at long
        have empty : stored = [] := List.length_eq_zero_iff.mp (by omega)
        have start : off = 0 := by omega
        rw [empty, start]
        simp [storeAt, overwrite]
      | some bytes =>
        rw [is, Option.getD_some] at long
        exact (@storeAt_buffer _ 0 bytes stored (state.nodes node).size off (by omega)
          (by omega)).symm

/-! ### Changes of the table -/

/-- Is the node a RAM file of that table? -/
def IsRamFile (nodes : Nodes) (node : Nat) : Prop :=
  (nodes node).inUse = true ∧ (nodes node).type = .ramFile

/-- The RAM files of a table are those of the one before, less the slots that were freed. -/
structure SameFiles (before after : Nodes) (freed : List Nat) : Prop where
  back : ∀ node, IsRamFile after node →
    IsRamFile before node ∧ node ∉ freed ∧ (after node).size = (before node).size
  forth : ∀ node, IsRamFile before node → node ∉ freed → IsRamFile after node

variable {nodes after later : Nodes} {freed gone : List Nat}

theorem SameFiles.refl (nodes : Nodes) : SameFiles nodes nodes [] :=
  ⟨fun _ file => ⟨file, List.not_mem_nil, rfl⟩, fun _ file _ => file⟩

theorem SameFiles.trans (first : SameFiles nodes after freed)
    (second : SameFiles after later gone) : SameFiles nodes later (freed ++ gone) := by
  refine ⟨fun node file => ?_, fun node file stays => ?_⟩
  · obtain ⟨between, here, same⟩ := second.back node file
    obtain ⟨start, there, same'⟩ := first.back node between
    exact ⟨start, fun member => (List.mem_append.mp member).elim there here, same.trans same'⟩
  · exact second.forth node
      (first.forth node file fun member => stays (List.mem_append_left _ member))
      fun member => stays (List.mem_append_right _ member)

theorem Freed.sameFiles {may : Nat → Prop} (freed' : Freed nodes after freed may) :
    SameFiles nodes after freed := by
  refine ⟨fun node file => ?_, fun node file stays => ?_⟩
  · have same := freed'.same file.1
    refine ⟨by rwa [IsRamFile, ← same], fun member => ?_, by rw [same]⟩
    exact absurd file.1 (by rw [freed'.gone member]; simp)
  · rwa [IsRamFile, freed'.kept stays]

/-- Slots change that hold no RAM file before or after. -/
theorem SameFiles.of_others {slots : Nat → Prop}
    (others : ∀ node, ¬ slots node → after node = nodes node)
    (before : ∀ node, slots node → ¬ IsRamFile nodes node)
    (behind : ∀ node, slots node → ¬ IsRamFile after node) : SameFiles nodes after [] := by
  refine ⟨fun node file => ?_, fun node file _ => ?_⟩
  · have apart : ¬ slots node := fun slot => behind node slot file
    have same := others node apart
    exact ⟨by rwa [IsRamFile, ← same], List.not_mem_nil, by rw [same]⟩
  · have apart : ¬ slots node := fun slot => before node slot file
    rwa [IsRamFile, others node apart]

/-- One node is replaced by one that is no RAM file either. -/
theorem SameFiles.update {node : Nat} {changed : FsNode} (before : ¬ IsRamFile nodes node)
    (behind : changed.type ≠ .ramFile) :
    SameFiles nodes (Function.update nodes node changed) [] := by
  refine @SameFiles.of_others _ _ (fun other => other = node)
    (fun other apart => Function.update_of_ne apart _ _) (fun other is => is ▸ before) ?_
  rintro other rfl file
  rw [IsRamFile, Function.update_self] at file
  exact behind file.2

/-- The table changes, and freed slots lose their buffers. -/
theorem RamSound.retable (sound : RamSound state) (same : SameFiles state.nodes after freed)
    (layer : MountLayer) :
    RamSound { state with
      nodes := after, layer := layer, ram := tmpfsFreeAll state.ram freed } := by
  refine ⟨(sound.balanced.freeAll freed).mono fun node _ owner => ?_, fun node file => ?_,
    fun node file => ?_, sound.offsets⟩
  · exact ⟨owner.1.1, same.forth node owner.1.2 owner.2⟩
  · obtain ⟨before, stays, size⟩ := same.back node file.2
    show (after node).size ≤ (tmpfsFreeAll state.ram freed).cap node
    rw [size, (tmpfsFreeAll_same state.ram stays).2]
    exact sound.sized node ⟨file.1, before⟩
  · obtain ⟨before, stays, size⟩ := same.back node file.2
    show state.contents node =
      (((tmpfsFreeAll state.ram freed).buf node).getD []).take (after node).size
    rw [size, (tmpfsFreeAll_same state.ram stays).1]
    exact sound.contents node ⟨file.1, before⟩

/-- A creation that fails leaves the RAM files alone. -/
theorem createNode_error {nodes next : Nodes} {answer : Answer} {uid : Nat} {name : Name}
    {type : FsType} {parent : Nat} {code : Int}
    (done : createNode nodes answer uid name type parent = (.error code, next)) :
    SameFiles nodes next [] := by
  rcases createNode_cases nodes answer uid name type parent with
    ⟨slot, settled, given, _, _⟩ | ⟨code', next', given, _, idle⟩
  · rw [given] at done
    exact absurd (Prod.mk.inj done).1 (by simp)
  · rw [given] at done
    obtain ⟨_, rfl⟩ := Prod.mk.inj done
    refine @SameFiles.of_others _ _ (fun node => (nodes node).inUse = false ∧
      (next' node).inUse = false) (fun node used => (idle node).resolve_right used) ?_ ?_
    · exact fun node slot file => absurd file.1 (by rw [slot.1]; simp)
    · exact fun node slot file => absurd file.1 (by rw [slot.2]; simp)

/-- A new node in a free slot: if it is a RAM file, it is empty. -/
theorem RamSound.create (sound : RamSound state) (answer : Answer) (uid : Nat) (name : Name)
    (type : FsType) (parent : Nat) : RamSound (state.create answer uid name type parent) := by
  unfold RamFs.create
  rcases createNode_cases state.nodes answer uid name type parent with
    ⟨index, settled, done, is, added⟩ | ⟨code, next, done, _, idle⟩
  · rw [done]
    have empty : settled.type = .ramFile → settled.size = 0 := by
      intro ramFile
      unfold settleNode at is
      split at is
      · obtain rfl := Option.some.inj is
        rfl
      split at is
      · obtain ⟨entry, _, rfl⟩ := Option.map_eq_some_iff.mp is
        simp only at ramFile
        split at ramFile <;> exact absurd ramFile (by simp)
      · obtain ⟨entry, _, rfl⟩ := Option.map_eq_some_iff.mp is
        rfl
      · obtain rfl := Option.some.inj is
        rfl
      · obtain rfl := Option.some.inj is
        rfl
    have files : ∀ node, node ≠ index →
        (RamFs.IsFile { state with
          nodes := update state.nodes index settled
          contents := update state.contents index [] } node ↔ state.IsFile node) := by
      intro node different
      unfold RamFs.IsFile
      simp only [update_of_ne different]
    refine ⟨sound.balanced.mono fun node some' owner => ?_, fun node file => ?_,
      fun node file => ?_, sound.offsets⟩
    · refine (files node ?_).mpr owner
      rintro rfl
      exact absurd owner.2.1 (by rw [added.free]; simp)
    · rcases eq_or_ne node index with rfl | different
      · have ramFile := file.2.2
        simp only [update_self] at ramFile ⊢
        rw [empty ramFile]
        exact Nat.zero_le _
      · have before := (files node different).mp file
        simp only [update_of_ne different]
        exact sound.sized node before
    · rcases eq_or_ne node index with rfl | different
      · have ramFile := file.2.2
        simp only [update_self] at ramFile ⊢
        rw [empty ramFile, List.take_zero]
      · have before := (files node different).mp file
        simp only [update_of_ne different]
        exact sound.contents node before
  · have same := createNode_error done
    rw [done]
    exact sound.retable same state.layer

/-! ### Mounts -/

/-- A node that is created is a RAM file only when that type was asked for, or in a RAM
directory. -/
theorem createNode_type {nodes next : Nodes} {answer : Answer} {uid : Nat} {name : Name}
    {type : FsType} {parent index : Nat}
    (done : createNode nodes answer uid name type parent = (.ok index, next))
    (asked : type ≠ .ramFile) (plain : type = .dir ∨ type ≠ .file) :
    SameFiles nodes next [] ∧ (next index).type ≠ .ramFile := by
  rcases createNode_cases nodes answer uid name type parent with
    ⟨slot, settled, given, is, added⟩ | ⟨code, next, given, _, _⟩
  · rw [given] at done
    obtain ⟨same, rfl⟩ := Prod.mk.inj done
    obtain rfl := Except.ok.inj same
    have typed : settled.type ≠ .ramFile := by
      unfold settleNode at is
      split at is
      · obtain rfl := Option.some.inj is
        exact asked
      rename_i dir
      have isDir : type = .dir := by
        rcases plain with isDir | noFile
        · exact isDir
        · by_contra noDir
          exact dir ⟨noDir, noFile⟩
      subst isDir
      split at is
      · obtain ⟨entry, _, rfl⟩ := Option.map_eq_some_iff.mp is
        simp [newNode]
      · obtain ⟨entry, _, rfl⟩ := Option.map_eq_some_iff.mp is
        simp [newNode]
      · obtain rfl := Option.some.inj is
        simp [newNode]
      · obtain rfl := Option.some.inj is
        exact asked
    refine ⟨SameFiles.update (fun file => ?_) typed, by rwa [update_self]⟩
    exact absurd file.1 (by rw [added.free]; simp)
  · rw [given] at done
    exact absurd (Prod.mk.inj done).1 (by simp)

/-- The entries of a volume are no RAM files. -/
theorem populate_files {fill : VolumeEntry → FsNode → FsNode} {dirType fileType : FsType}
    (uid : Nat) (keeps : ∀ entry node, (fill entry node).inUse = node.inUse ∧
      (fill entry node).type = node.type)
    (dirs : dirType ≠ .ramFile ∧ dirType ≠ .file) (files : fileType ≠ .ramFile ∧ fileType ≠ .file)
    (entries : List VolumeEntry) (made : List Nat) (nodes : Nodes) :
    SameFiles nodes (populate fill dirType fileType uid made nodes entries) [] := by
  induction entries generalizing made nodes with
  | nil => exact SameFiles.refl nodes
  | cons entry rest inductionHypothesis =>
    unfold populate
    split
    · split
      · rename_i index next done
        have typed : (if entry.isDir then dirType else fileType) ≠ .ramFile ∧
            (if entry.isDir then dirType else fileType) ≠ .file := by
          split
          · exact dirs
          · exact files
        obtain ⟨same, ramFile⟩ := createNode_type done typed.1 (Or.inr typed.2)
        refine same.trans (SameFiles.trans (SameFiles.update (fun file => ramFile file.2) ?_)
          (inductionHypothesis _ _))
        rw [(keeps entry (next index)).2]
        exact ramFile
      · rename_i code next done
        exact (createNode_error done).trans (inductionHypothesis _ _)
    · exact inductionHypothesis _ _

theorem mountPoint_type (kind : MountKind) (rootKey : Nat) (node : FsNode) :
    (mountPoint kind rootKey node).type ≠ .ramFile := by
  cases kind <;> simp [mountPoint]

/-- A volume is put on a node that is no RAM file. -/
theorem attachVolume_files (layer : MountLayer) (kind : MountKind) (drive : Int)
    (volume : Volume) (uid : Nat) {node : Nat} (plain : ¬ IsRamFile nodes node) :
    SameFiles nodes (attachVolume nodes layer kind drive volume uid node).nodes
      (attachVolume nodes layer kind drive volume uid node).dropped := by
  have retyped := fun rootKey => @SameFiles.update nodes node
    (mountPoint kind rootKey (nodes node)) plain (mountPoint_type kind rootKey _)
  have ext2 := populate_files uid (fun entry node => ⟨rfl, rfl⟩ : ∀ entry node,
    (fillExt2 entry node).inUse = node.inUse ∧ (fillExt2 entry node).type = node.type)
    (show FsType.ext2Dir ≠ .ramFile ∧ FsType.ext2Dir ≠ .file by decide)
    (show FsType.ext2File ≠ .ramFile ∧ FsType.ext2File ≠ .file by decide)
  have fat32 := populate_files uid (fun entry node => ⟨rfl, rfl⟩ : ∀ entry node,
    (fillFat32 entry node).inUse = node.inUse ∧ (fillFat32 entry node).type = node.type)
    (show FsType.fat32Dir ≠ .ramFile ∧ FsType.fat32Dir ≠ .file by decide)
    (show FsType.fat32File ≠ .ramFile ∧ FsType.fat32File ≠ .file by decide)
  have filled : ∀ table, SameFiles nodes table [] → ∀ after : Nodes,
      SameFiles table after [] → SameFiles nodes after [] :=
    fun _ first _ second => first.trans second
  have settle : ∀ table, SameFiles nodes table [] → ¬ IsRamFile table node →
      SameFiles nodes (update (clearChildren table node).nodes node
        { (clearChildren table node).nodes node with type := .dir })
        (clearChildren table node).freed := by
    intro table same plain'
    have cleared := (clearChildren_freed table node).sameFiles
    have restored : SameFiles (clearChildren table node).nodes
        (update (clearChildren table node).nodes node
          { (clearChildren table node).nodes node with type := .dir }) [] :=
      SameFiles.update (fun file => plain' (cleared.back node file).1) (by simp)
    have whole := (same.trans cleared).trans restored
    rwa [List.nil_append, List.append_nil] at whole
  have back : ∀ table, SameFiles nodes table [] → ¬ IsRamFile table node :=
    fun table same file => plain (same.back node file).1
  unfold attachVolume
  cases kind with
  | ext2 =>
    have same := filled _ (retyped 2) _ (ext2 volume.entries [node] _)
    simp only
    split
    · exact same
    · exact settle _ same (back _ same)
  | fat32 =>
    have same := filled _ (retyped volume.rootKey) _ (fat32 volume.entries [node] _)
    simp only
    split
    · exact same
    · exact settle _ same (back _ same)
  | tmpfs =>
    have same := retyped 0
    simp only
    split
    · exact same
    · exact settle _ same (back _ same)

theorem mountAt_files (layer : MountLayer) (kind : MountKind) (drive : Int) (volume : Volume)
    (uid : Nat) {node : Nat} (plain : ¬ IsRamFile nodes node) :
    SameFiles nodes (mountAt nodes layer kind drive volume uid node).nodes
      (mountAt nodes layer kind drive volume uid node).dropped := by
  unfold mountAt
  split
  · exact SameFiles.refl nodes
  cases kind with
  | ext2 =>
    simp only
    split
    · exact attachVolume_files _ .ext2 drive volume uid plain
    · exact SameFiles.refl nodes
  | fat32 =>
    simp only
    split
    · exact attachVolume_files _ .fat32 drive volume uid plain
    · exact SameFiles.refl nodes
  | tmpfs => exact attachVolume_files layer .tmpfs drive volume uid plain

theorem mountNode_files (layer : MountLayer) (kind : MountKind) (drive : Int) (volume : Volume)
    (uid node : Nat) :
    SameFiles nodes (mountNode nodes layer kind drive volume uid node).nodes
      (mountNode nodes layer kind drive volume uid node).dropped := by
  unfold mountNode
  split
  · exact SameFiles.refl nodes
  · rename_i directory
    rw [not_or, Bool.not_eq_false, Bool.not_eq_false] at directory
    refine mountAt_files layer kind drive volume uid fun file => ?_
    have typed := directory.1
    unfold isDir at typed
    rw [file.2] at typed
    simp at typed

theorem mountFresh_files (layer : MountLayer) (kind : MountKind) (drive : Int) (volume : Volume)
    (answer : Answer) (uid : Nat) (name : Name) (parent : Nat) :
    SameFiles nodes (mountFresh nodes layer kind drive volume answer uid name parent).nodes
      (mountFresh nodes layer kind drive volume answer uid name parent).dropped := by
  unfold mountFresh
  split
  · exact SameFiles.refl nodes
  split
  · rename_i done
    exact createNode_error done
  · rename_i node next done
    obtain ⟨same, typed⟩ := createNode_type done (by decide) (Or.inl rfl)
    exact same.trans (mountAt_files layer kind drive volume uid fun file => typed file.2)

theorem umountNode_files (layer : MountLayer) {node : Nat}
    (plain : ∀ slot, mountLookup layer node = some slot → (layer.mounts slot).kind ≠ .tmpfs →
      (nodes node).type ≠ .ramFile) :
    SameFiles nodes (umountNode nodes layer node).nodes (umountNode nodes layer node).dropped := by
  unfold umountNode
  split
  · exact SameFiles.refl nodes
  rename_i slot found
  have restored : ∀ sweep : Sweep, (update sweep.nodes node
      (sweep.nodes node).unmounted node).type ≠ .ramFile := by
    intro sweep
    rw [update_self]
    simp [FsNode.unmounted]
  simp only
  split
  · have freed := (tmpfsFreeSubtree_freed nodes node).sameFiles
    refine ⟨fun other file => ?_, fun other file stays => ?_⟩
    · have different : other ≠ node := by
        rintro rfl
        exact restored _ file.2
      simp only [IsRamFile, update_of_ne different] at file ⊢
      obtain ⟨before, kept, size⟩ := freed.back other file
      exact ⟨before, List.not_mem_cons_of_ne_of_not_mem different kept, size⟩
    · simp only [IsRamFile, update_of_ne (List.ne_of_not_mem_cons stays)]
      exact freed.forth other file (List.not_mem_of_not_mem_cons stays)
  · rename_i drive
    have freed := (clearChildren_freed nodes node).sameFiles
    have point : ¬ IsRamFile (clearChildren nodes node).nodes node :=
      fun file => plain slot found drive (freed.back node file).1.2
    have whole := freed.trans (SameFiles.update point
      (show ((clearChildren nodes node).nodes node).unmounted.type ≠ .ramFile by
        simp [FsNode.unmounted]))
    rwa [List.append_nil] at whole

/-! ### Descriptors -/

/-- Descriptors change, each with its position. -/
theorem RamSound.refd (sound : RamSound state) {index : Nat} {changed : Option RamFd}
    {position : Nat} (same : ∀ fd, changed = some fd → fd.offset = position) :
    RamSound { state with
      fds := update state.fds index changed
      positions := update state.positions index position } := by
  refine ⟨sound.balanced, sound.sized, sound.contents, fun other fd is => ?_⟩
  rcases eq_or_ne other index with rfl | different
  · simp only [update_self] at is ⊢
    exact same fd is
  · simp only [update_of_ne different] at is ⊢
    exact sound.offsets other fd is

theorem RamSound.closed (sound : RamSound state) (index : Nat) :
    RamSound { state with fds := update state.fds index none } := by
  refine ⟨sound.balanced, sound.sized, sound.contents, fun other fd is => ?_⟩
  rcases eq_or_ne other index with rfl | different
  · simp only [update_self] at is
    exact absurd is (by simp)
  · simp only [update_of_ne different] at is
    exact sound.offsets other fd is

theorem RamFs.writeAt_fds (state : RamFs) (node offset : Nat) (data : List UInt8)
    (append heap : Bool) :
    (state.writeAt node offset data append heap).fds = state.fds ∧
      (state.writeAt node offset data append heap).positions = state.positions := by
  unfold RamFs.writeAt RamFs.store
  simp only
  split <;> exact ⟨rfl, rfl⟩

theorem RamSound.sysWrite (sound : RamSound state) {index : Nat} {fd : RamFd}
    {data : List UInt8} {heap : Bool} (fitting : Fitting state (.write index data heap))
    (is : state.fds index = some fd) : RamSound (state.sysWrite index fd data heap) := by
  have written := sound.writeAt fd.node (state.writeOffset fd) data fd.append heap
  have begins : (if fd.append then (state.nodes fd.node).size else state.writeOffset fd) =
      state.writeOffset fd := by
    unfold RamFs.writeOffset
    split <;> rfl
  unfold RamFs.sysWrite
  simp only
  split
  · exact written
  rename_i stored
  obtain ⟨fds, positions⟩ :=
    state.writeAt_fds fd.node (state.writeOffset fd) data fd.append heap
  rw [← fds, ← positions]
  refine written.refd fun changed same => ?_
  obtain rfl := Option.some.inj same
  rcases writeFileOffset_cases state.nodes state.ram fd.node (state.writeOffset fd) data fd.append
    heap begins with ⟨code, negative, done⟩ | ⟨grown, bytes, taken, _, used, _, _, small, below,
    grew, done⟩
  · rw [done] at stored
    exact absurd negative stored
  · rw [done]
    show state.writeOffset fd + data.length = state.writeOffset fd + ((bytes.length : Int)).toNat
    rw [Int.toNat_natCast, taken, List.length_take]
    by_cases crosses : tmpfsMaxFile < state.writeOffset fd + data.length
    · have under := below crosses
      have length : state.writeOffset fd + bytes.length = tmpfsMaxFile := by
        rw [taken, List.length_take]
        omega
      rcases fitting fd is crosses with beyond | large | full | idle
      · omega
      · omega
      · rw [length] at grew
        unfold tmpfsGrow at grew
        rw [if_pos full] at grew
        exact absurd grew (by simp)
      · rw [used] at idle
        exact absurd idle (by simp)
    · omega

/-! ### Runs -/

theorem RamSound.step {label : RamLabel} (sound : RamSound state)
    (fitting : Fitting state label) (taken : RamStep state label next) : RamSound next := by
  cases taken with
  | create => exact sound.create _ _ _ _ _
  | delete used busy =>
    exact sound.retable (deleteNode_freed state.nodes _ _ used).sameFiles state.layer
  | mount => exact sound.retable (mountNode_files state.layer _ _ _ _ _) _
  | mountFresh => exact sound.retable (mountFresh_files state.layer _ _ _ _ _ _ _) _
  | umount => exact sound.retable (umountNode_files state.layer fitting) _
  | writeWhole => exact sound.writeWhole _ _ _
  | writeAt => exact sound.writeAt _ _ _ _ _
  | open' free =>
    refine sound.refd fun fd same => ?_
    obtain rfl := Option.some.inj same
    rfl
  | close => exact sound.closed _
  | seek is =>
    refine sound.refd fun fd same => ?_
    obtain rfl := Option.some.inj same
    rfl
  | read is =>
    refine sound.refd fun fd same => ?_
    obtain rfl := Option.some.inj same
    rw [sound.offsets _ _ is]
  | write is => exact sound.sysWrite fitting is

theorem RamFs.Initial.sound (initial : state.Initial) : RamSound state := by
  obtain ⟨empty, unused, none', closed⟩ := initial
  refine ⟨⟨?_, ?_, fun node => Or.inl (empty node)⟩, fun node file => ?_, fun node file => ?_,
    fun index fd is => ?_⟩
  · rw [unused, Finset.sum_eq_zero fun node _ => (empty node).2]
  · rw [unused]
    exact Nat.zero_le _
  · exact absurd file.2.2 (none' node file.2.1)
  · exact absurd file.2.2 (none' node file.2.1)
  · rw [closed index] at is
    exact absurd is (by simp)

/-! ### The law -/

/-- A read gives a part of the contents. -/
theorem RamSound.readRange (sound : RamSound state) {node : Nat} (file : state.IsFile node)
    (offset len : Nat) :
    tmpfsReadRange state.nodes state.ram node offset len =
      ((state.contents node).drop offset).take len := by
  have sized := sound.sized node file
  have long := sound.balanced.length node
  rw [sound.contents node file]
  unfold tmpfsReadRange
  cases is : state.ram.buf node with
  | none =>
    rw [is] at long
    simp only [Option.getD_none, List.length_nil] at long
    simp
  | some bytes =>
    simp only [Option.getD_some]
    split
    · rename_i beyond
      rw [List.drop_of_length_le (by rw [List.length_take]; omega), List.take_nil]
    · rw [List.drop_take, List.take_take]

theorem RamSound.contents_length (sound : RamSound state) {node : Nat}
    (file : state.IsFile node) : (state.contents node).length = (state.nodes node).size := by
  have sized := sound.sized node file
  have long := sound.balanced.length node
  rw [sound.contents node file, List.length_take, long, Nat.min_eq_left sized]

theorem RamSound.kept (sound : RamSound state) : RamKept state := by
  refine ⟨sound.balanced.total, sound.balanced.budget, sound.balanced.some_iff,
    fun node some' => ?_, fun node offset len file => ?_, fun node maxSize file => ?_,
    fun node offset data append heap failed => ?_, fun node data heap failed => ?_,
    sound.offsets⟩
  · rcases sound.balanced.buffer node with ⟨none', _⟩ | ⟨_, _, _, _, _, owner⟩
    · rw [none'] at some'
      exact absurd some' (by simp)
    · exact ⟨owner, sound.sized node owner⟩
  · have length := sound.contents_length file
    unfold readFileOffset
    split
    · rw [List.drop_of_length_le (by omega), List.take_nil]
    · rw [sound.readRange file, List.take_eq_take_iff, List.length_drop]
      omega
  · have length := sound.contents_length file
    unfold tmpfsReadWhole
    split
    · refine (List.eq_nil_of_length_eq_zero ?_).symm
      rw [List.length_take]
      omega
    · rw [sound.readRange file, List.drop_zero, List.take_eq_take_iff]
      omega
  · rcases writeFileOffset_cases state.nodes state.ram node offset data append heap rfl with
      ⟨code, _, done⟩ | ⟨grown, bytes, _, _, _, _, _, _, _, _, done⟩
    · rw [done]
    · rw [done] at failed
      exact absurd failed (by simp)
  · rcases tmpfsWriteWhole_cases state.nodes state.ram node data heap with
      ⟨code, _, done⟩ | ⟨grown, _, done⟩
    · rw [done]
    · rw [done] at failed
      exact absurd failed (by simp)

/-- In every run whose descriptor writes fit, tmpfs keeps its promises. -/
theorem tmpfs_kept (reachable : ramSystem.Reachable Fitting state) : RamKept state :=
  (reachable.invariant RamSound (fun _ initial => RamFs.Initial.sound initial)
    fun _ _ _ sound fitting taken => sound.step fitting taken).kept

/-- A free slot. -/
def blankNode : FsNode := ⟨[], .file, none, 0, 0, false, 0, 0, 0, 0, []⟩

/-- After the boot: the root and the RAM directory `/tmp`. -/
def bootTmpfs : RamFs where
  nodes node := match node with
    | 0 => ⟨['r', 'o', 'o', 't'], .dir, none, 0, 0, true, 0, 0, 0, 0x1FF, []⟩
    | 1 => ⟨['t', 'm', 'p'], .ramDir, some 0, 0, 0, true, 0, 0, 0, 0x1FF, []⟩
    | _ => blankNode
  layer := ⟨fun _ => ⟨false, 0, .tmpfs, 0, 0⟩, ⟨-1, none⟩, ⟨-1, none⟩⟩
  ram := ⟨fun _ => none, fun _ => 0, 0⟩
  fds _ := none
  contents _ := []
  positions _ := 0

theorem bootTmpfs_initial : bootTmpfs.Initial := by
  refine ⟨fun _ => ⟨rfl, rfl⟩, rfl, fun node used => ?_, fun _ => rfl⟩
  match node with
  | 0 => decide
  | 1 => decide
  | node + 2 => exact absurd used (by simp [bootTmpfs, blankNode])

/-- After the boot a file is made. -/
def createdTmpfs : RamFs :=
  bootTmpfs.create none 1000 ['f'] .file 1

/-- The descriptor of the file. -/
def firstFd : RamFd := ⟨2, 0, false⟩

/-- The file is open. -/
def openedTmpfs : RamFs :=
  { createdTmpfs with
    fds := update createdTmpfs.fds 0 (some firstFd)
    positions := update createdTmpfs.positions 0 0 }

theorem openedTmpfs_file : (openedTmpfs.nodes firstFd.node).type = .ramFile := by
  decide +kernel

theorem openedTmpfs_reachable {guard : RamFs → RamLabel → Prop}
    (made : guard bootTmpfs (.create none 1000 ['f'] .file 1))
    (opens : guard createdTmpfs (.open' 0 2 false)) :
    ramSystem.Reachable guard openedTmpfs := by
  have initial : ramSystem.Reachable guard bootTmpfs := .init bootTmpfs_initial
  have created : ramSystem.Reachable guard createdTmpfs := initial.step made .create
  exact created.step opens (.open' rfl)

/-- A descriptor stores two bytes in a new file. -/
theorem tmpfs_kept_written : ∃ state : RamFs,
    readFileOffset state.nodes state.ram 2 0 4 = [7, 8] ∧ RamKept state := by
  have opened : ramSystem.Reachable Fitting openedTmpfs :=
    openedTmpfs_reachable trivial trivial
  have fits : Fitting openedTmpfs (.write 0 [7, 8] true) := by
    intro fd is crosses
    obtain rfl := Option.some.inj is
    exact absurd crosses (by decide +kernel)
  have step : RamStep openedTmpfs (.write 0 [7, 8] true)
      (openedTmpfs.sysWrite 0 firstFd [7, 8] true) := .write rfl openedTmpfs_file
  exact ⟨_, by decide +kernel, tmpfs_kept (opened.step fits step)⟩

/-- The descriptor stands one byte below the limit of a file. -/
def soughtTmpfs : RamFs :=
  { openedTmpfs with
    fds := update openedTmpfs.fds 0 (some { firstFd with offset := 262143 })
    positions := update openedTmpfs.positions 0 262143 }

theorem soughtTmpfs_file :
    (soughtTmpfs.nodes ({ firstFd with offset := 262143 } : RamFd).node).type = .ramFile := by
  decide +kernel

/-- One byte is stored. -/
def overrunTmpfs : RamFs :=
  soughtTmpfs.sysWrite 0 { firstFd with offset := 262143 } [7, 8] true

theorem overrunTmpfs_moved :
    overrunTmpfs.fds 0 = some ⟨2, 262145, false⟩ ∧ overrunTmpfs.positions 0 = 262144 := by
  decide +kernel

/-- A write of two bytes that begins one byte below the limit of a file stores one byte, and the
descriptor moves by two. -/
theorem tmpfs_write_overruns :
    ¬ ∀ state, ramSystem.Reachable anyStep state → RamKept state := by
  intro promised
  have opened : ramSystem.Reachable anyStep openedTmpfs :=
    openedTmpfs_reachable trivial trivial
  have seek : RamStep openedTmpfs (.seek 0 262143) soughtTmpfs := .seek rfl
  have sought : ramSystem.Reachable anyStep soughtTmpfs := opened.step trivial seek
  have write : RamStep soughtTmpfs (.write 0 [7, 8] true) overrunTmpfs :=
    .write rfl soughtTmpfs_file
  have overrun : ramSystem.Reachable anyStep overrunTmpfs := sought.step trivial write
  have moved := (promised overrunTmpfs overrun).offsets 0 _ overrunTmpfs_moved.1
  rw [overrunTmpfs_moved.2] at moved
  exact absurd moved (by decide)

end MectovOS.Vfs
