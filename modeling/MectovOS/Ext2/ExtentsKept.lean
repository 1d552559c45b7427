/-
This file states what the extent format assigns to a logical block, when the
bytes of an inode and of its node blocks form a valid tree, and when
`ext4_get_block` returns what the format assigns and reads no record behind the
last one that fits. An extent of exactly 32768 blocks has the length field of an
unwritten extent of none; and the number of records is not compared with what
fits.
-/

import MectovOS.Ext2.Extents

namespace MectovOS.Ext2

open ByteMemory

/-! ### The format -/

/-- The number of blocks of an extent; a length field above 32768 marks an unwritten one. -/
def Extent.count (extent : Extent) : Nat :=
  if extent.len ≤ 32768 then extent.len else extent.len - 32768

/-- The extent holds the logical block. -/
def Extent.Covers (extent : Extent) (lb : Word) : Prop :=
  extent.block.toNat ≤ lb.toNat ∧ lb.toNat < extent.block.toNat + extent.count

/-- The physical block of a logical one. -/
def Extent.physical (extent : Extent) (lb : Word) : Word :=
  extent.startLo + (lb - extent.block)

/-- What the extents assign to a logical block: the physical block of a written extent that holds
it, and 0 when there is none. -/
def Assigned (extents : List Extent) (lb block : Word) : Prop :=
  (∃ extent ∈ extents, extent.Covers lb ∧ extent.len ≤ 32768 ∧ block = extent.physical lb) ∨
    ((∀ extent ∈ extents, extent.Covers lb → ¬ extent.len ≤ 32768) ∧ block = 0)

/-- An extent in a range of logical blocks, with its physical blocks below 2^32. -/
structure Extent.Valid (extent : Extent) (lo hi : Nat) : Prop where
  some' : extent.len ≠ 0
  low : lo ≤ extent.block.toNat
  high : extent.block.toNat + extent.count ≤ hi
  startHi : extent.startHi = 0
  physical : extent.startLo.toNat + extent.count ≤ 2 ^ 32

/-- How many records fit in the root and in a node block. -/
def rootCapacity : Nat := 4
def Volume.capacity (volume : Volume) : Nat := (volume.blockSize - 12) / 12

/-- Where the blocks of an index record end: at the next record, or where those of the node do. -/
def upper (node : Bytes) (hi index : Nat) : Nat :=
  if index + 1 < ehEntries node then (extentIdxAt node (index + 1)).block.toNat else hi

/-- An index record whose blocks lie in a range and which points to a block. -/
structure ExtentIdx.Valid (node : Bytes) (index lo hi : Nat) : Prop where
  low : lo ≤ (extentIdxAt node index).block.toNat
  sorted : (extentIdxAt node index).block.toNat < upper node hi index
  high : upper node hi index ≤ hi
  leafHi : (extentIdxAt node index).leafHi = 0
  leafLo : (extentIdxAt node index).leafLo ≠ 0

/-- The bytes form a valid tree of a depth, for a range of logical blocks, with these extents in
its leaves. -/
def ValidNode (volume : Volume) : Nat → Nat → Bytes → Nat → Nat → List Extent → Prop
  | 0, capacity, node, lo, hi, extents =>
    ehMagic node = ext4ExtMagic ∧ ehDepth node = 0 ∧ ehEntries node ≤ capacity ∧
      extents = (List.range (ehEntries node)).map (extentAt node) ∧
      (∀ extent ∈ extents, extent.Valid lo hi) ∧
      extents.Pairwise fun first second =>
        first.block.toNat + first.count ≤ second.block.toNat
  | depth + 1, capacity, node, lo, hi, extents =>
    ehMagic node = ext4ExtMagic ∧ ehDepth node = depth + 1 ∧ ehEntries node ≤ capacity ∧
      ∃ parts : Nat → List Extent, extents = (List.range (ehEntries node)).flatMap parts ∧
        ∀ index < ehEntries node, ExtentIdx.Valid node index lo hi ∧
          ∃ child, volume.load (extentIdxAt node index).leafLo = some child ∧
            ValidNode volume depth volume.capacity child
              (extentIdxAt node index).block.toNat (upper node hi index) (parts index)

/-- A valid tree of an inode. -/
def ValidTree (volume : Volume) (inode : Bytes) (extents : List Extent) : Prop :=
  ∃ depth ≤ ext4MaxDepth, ValidNode volume depth rootCapacity inode 0 (2 ^ 32) extents

/-- How many records fit in a node. -/
def Visit.capacity (volume : Volume) (visit : Visit) : Nat :=
  if visit.isRoot then rootCapacity else volume.capacity

/-- No record behind the last one that fits is read. -/
def Visit.InBounds (volume : Volume) (lb : Word) (visit : Visit) : Prop :=
  ∀ record ∈ visit.records lb, record < visit.capacity volume

/-- The walk returns what a valid tree assigns, and stays inside the nodes of any tree. -/
structure Ext4Right (volume : Volume) (inode : Bytes) (lb : Word) : Prop where
  assigned : ∀ extents, ValidTree volume inode extents →
    Assigned extents lb (ext4GetBlock volume inode lb).2
  inBounds : ∀ visit ∈ (ext4GetBlock volume inode lb).1, visit.InBounds volume lb

/-! ### Leaves -/

variable {volume : Volume} {lb : Word}

/-- The walk takes an extent of exactly 32768 blocks for an unwritten one of none, and goes on. -/
theorem answer_eq {extent : Extent} {lo hi : Nat} (valid : extent.Valid lo hi) :
    (extent.Covers lb → extent.len < 32768 → extent.answer lb = some (extent.physical lb)) ∧
      (extent.Covers lb → 32768 < extent.len → extent.answer lb = some 0) ∧
      (extent.Covers lb → extent.len = 32768 → extent.answer lb = none) ∧
      (¬ extent.Covers lb → extent.answer lb = none) := by
  have nonzero := valid.some'
  have start : extent.startLo ||| BitVec.ofNat 32 extent.startHi <<< 16 = extent.startLo := by
    rw [valid.startHi]
    simp
  unfold Extent.Covers Extent.count Extent.answer Extent.physical ext4ExtUnwritten
  dsimp only
  rw [start]
  by_cases below : lb < extent.block
  · have less : lb.toNat < extent.block.toNat := below
    rw [if_pos below]
    exact ⟨fun covers => absurd covers.1 (by omega), fun covers => absurd covers.1 (by omega),
      fun _ _ => rfl, fun _ => rfl⟩
  · have least : extent.block.toNat ≤ lb.toNat := Nat.le_of_not_lt below
    have distance : (lb - extent.block).toNat = lb.toNat - extent.block.toNat :=
      BitVec.toNat_sub_of_le least
    rw [if_neg below, distance]
    refine ⟨fun covers short => ?_, fun covers long => ?_, fun covers boundary => ?_,
      fun outside => ?_⟩
    · rw [if_pos (by omega)] at covers
      rw [if_neg (by omega : ¬ 0x8000 ≤ extent.len), if_neg (by omega),
        if_neg (by omega : ¬ 0x8000 ≤ extent.len)]
    · rw [if_neg (by omega)] at covers
      rw [if_pos (by omega : 0x8000 ≤ extent.len), if_neg (by omega),
        if_pos (by omega : 0x8000 ≤ extent.len)]
    · rw [if_pos (by omega : 0x8000 ≤ extent.len), if_pos (by omega)]
    · by_cases long : 0x8000 < extent.len
      · rw [if_neg (by omega)] at outside
        rw [if_pos (by omega : 0x8000 ≤ extent.len), if_pos (by omega)]
      · rw [if_pos (by omega)] at outside
        by_cases full : 0x8000 ≤ extent.len
        · rw [if_pos full, if_pos (by omega)]
        · rw [if_neg full, if_pos (by omega)]

/-- The scan of a leaf returns the answer of the first extent that has one. -/
theorem scanLeaf_snd (node : Bytes) (lb : Word) (entries index : Nat) :
    (scanLeaf node lb entries index).2 =
      (((List.range' index entries).map (extentAt node)).findSome? (Extent.answer · lb)).getD 0 := by
  induction entries generalizing index with
  | zero => rfl
  | succ entries inductionHypothesis =>
    unfold scanLeaf
    rw [List.range'_succ, List.map_cons, List.findSome?_cons]
    cases (extentAt node index).answer lb with
    | some block => rfl
    | none => exact inductionHypothesis (index + 1)

/-- What the walk takes the extents for: those of exactly 32768 blocks are left out. -/
def Seen (extents : List Extent) (lb block : Word) : Prop :=
  (∃ extent ∈ extents, extent.Covers lb ∧ extent.len < 32768 ∧ block = extent.physical lb) ∨
    ((∀ extent ∈ extents, extent.Covers lb → ¬ extent.len < 32768) ∧ block = 0)

/-- In a list of extents that come one after the other, the scan finds the one that holds a
block. -/
theorem seen_sorted {extents : List Extent} {lo hi : Nat}
    (valid : ∀ extent ∈ extents, extent.Valid lo hi)
    (sorted : extents.Pairwise fun first second =>
      first.block.toNat + first.count ≤ second.block.toNat) :
    Seen extents lb ((extents.findSome? (Extent.answer · lb)).getD 0) := by
  induction extents with
  | nil => exact Or.inr ⟨fun extent member => absurd member List.not_mem_nil, rfl⟩
  | cons first rest inductionHypothesis =>
    obtain ⟨behind, sorted⟩ := List.pairwise_cons.mp sorted
    have here := valid first List.mem_cons_self
    obtain ⟨written, unwritten, boundary, outside⟩ := @answer_eq lb first lo hi here
    have later := inductionHypothesis (fun extent member =>
      valid extent (List.mem_cons_of_mem first member)) sorted
    have only : first.Covers lb → ∀ extent ∈ rest, ¬ extent.Covers lb := by
      intro covers extent member other
      have apart := behind extent member
      unfold Extent.Covers at covers other
      omega
    rw [List.findSome?_cons]
    by_cases covers : first.Covers lb
    · rcases Nat.lt_trichotomy first.len 32768 with short | exact' | long
      · rw [written covers short]
        exact Or.inl ⟨first, List.mem_cons_self, covers, short, rfl⟩
      · rw [boundary covers exact']
        have none' : rest.findSome? (Extent.answer · lb) = none := by
          refine List.findSome?_eq_none_iff.mpr fun extent member => ?_
          exact (@answer_eq lb extent lo hi (valid extent (List.mem_cons_of_mem first member))).2.2.2
            (only covers extent member)
        rw [none']
        refine Or.inr ⟨fun extent member other => ?_, rfl⟩
        rcases List.mem_cons.mp member with rfl | inside
        · omega
        · exact absurd other (only covers extent inside)
      · rw [unwritten covers long]
        refine Or.inr ⟨fun extent member other => ?_, rfl⟩
        rcases List.mem_cons.mp member with rfl | inside
        · omega
        · exact absurd other (only covers extent inside)
    · rw [outside covers]
      rcases later with ⟨extent, member, rest'⟩ | ⟨none', zero⟩
      · exact Or.inl ⟨extent, List.mem_cons_of_mem first member, rest'⟩
      · refine Or.inr ⟨fun extent member other => ?_, zero⟩
        rcases List.mem_cons.mp member with rfl | inside
        · exact absurd other covers
        · exact none' extent inside other

/-! ### Index nodes -/

/-- A fold that keeps the last index with a property. -/
theorem foldl_last {Item : Type} (may : Nat → Prop) [DecidablePred may] (item : Nat → Item)
    (start : Item) (count : Nat) :
    ((∀ index < count, ¬ may index) ∧ (List.range count).foldl
        (fun chosen index => if may index then item index else chosen) start = start) ∨
      ∃ last < count, may last ∧ (∀ index < count, may index → index ≤ last) ∧
        (List.range count).foldl
          (fun chosen index => if may index then item index else chosen) start = item last := by
  induction count with
  | zero => exact Or.inl ⟨fun index below => absurd below (Nat.not_lt_zero index), rfl⟩
  | succ count inductionHypothesis =>
    rw [List.range_succ, List.foldl_append, List.foldl_cons, List.foldl_nil]
    by_cases here : may count
    · exact Or.inr ⟨count, Nat.lt_succ_self count, here,
        fun index below _ => Nat.le_of_lt_succ below, if_pos here⟩
    · rw [if_neg here]
      rcases inductionHypothesis with ⟨none', same⟩ | ⟨last, below, holds, greatest, same⟩
      · refine Or.inl ⟨fun index under => ?_, same⟩
        rcases Nat.lt_succ_iff_lt_or_eq.mp under with before | rfl
        · exact none' index before
        · exact here
      · refine Or.inr ⟨last, Nat.lt_succ_of_lt below, holds, fun index under holds' => ?_, same⟩
        rcases Nat.lt_succ_iff_lt_or_eq.mp under with before | rfl
        · exact greatest index before holds'
        · exact absurd holds' here

/-- The extents of a valid node lie in its range. -/
theorem ValidNode.within {depth capacity lo hi : Nat} {node : Bytes} {extents : List Extent}
    (valid : ValidNode volume depth capacity node lo hi extents) :
    ∀ extent ∈ extents, extent.Valid lo hi := by
  induction depth generalizing capacity node lo hi extents with
  | zero => exact valid.2.2.2.2.1
  | succ depth inductionHypothesis =>
    obtain ⟨_, _, _, parts, rfl, children⟩ := valid
    intro extent member
    obtain ⟨index, below, inside⟩ := List.mem_flatMap.mp member
    obtain ⟨record, child, _, validChild⟩ := children index (List.mem_range.mp below)
    have own := inductionHypothesis validChild extent inside
    exact ⟨own.some', Nat.le_trans record.low own.low, Nat.le_trans own.high record.high,
      own.startHi, own.physical⟩

/-- The blocks of an earlier record end where those of a later one start, or before. -/
theorem upper_le {node : Bytes} {lo hi : Nat}
    (records : ∀ index < ehEntries node, ExtentIdx.Valid node index lo hi) {first second : Nat}
    (before : first < second) (below : second < ehEntries node) :
    upper node hi first ≤ (extentIdxAt node second).block.toNat := by
  induction second with
  | zero => exact absurd before (Nat.not_lt_zero first)
  | succ second inductionHypothesis =>
    have next : upper node hi second = (extentIdxAt node (second + 1)).block.toNat := if_pos below
    rcases Nat.lt_succ_iff_lt_or_eq.mp before with earlier | rfl
    · have reached := inductionHypothesis earlier (Nat.lt_of_succ_lt below)
      have sorted := (records second (Nat.lt_of_succ_lt below)).sorted
      omega
    · exact Nat.le_of_eq next

/-- A block that an extent of a valid node holds belongs to the record of its part. -/
theorem part_covers {depth : Nat} {node child : Bytes} {hi index : Nat} {part : List Extent}
    (validChild : ValidNode volume depth volume.capacity child
      (extentIdxAt node index).block.toNat (upper node hi index) part) {extent : Extent}
    (member : extent ∈ part) (covers : extent.Covers lb) :
    (extentIdxAt node index).block ≤ lb ∧ lb.toNat < upper node hi index := by
  have own := validChild.within extent member
  have low := own.low
  have high := own.high
  unfold Extent.Covers at covers
  refine ⟨?_, by omega⟩
  show (extentIdxAt node index).block.toNat ≤ lb.toNat
  omega

/-! ### The walk on a valid tree -/

/-- The scan of a valid leaf. -/
theorem scanLeaf_seen {capacity lo hi : Nat} {node : Bytes} {extents : List Extent}
    (valid : ValidNode volume 0 capacity node lo hi extents) :
    Seen extents lb (scanLeaf node lb (ehEntries node) 0).2 := by
  obtain ⟨_, _, _, same, each, sorted⟩ := valid
  rw [scanLeaf_snd, ← List.range_eq_range', ← same]
  exact seen_sorted each sorted

/-- An index node leads to the part that holds the block, if there is one. -/
theorem chosenBlock_part {depth : Nat} {node : Bytes} {lo hi : Nat} {parts : Nat → List Extent}
    (below : lb.toNat < hi)
    (children : ∀ index < ehEntries node, ExtentIdx.Valid node index lo hi ∧
      ∃ child, volume.load (extentIdxAt node index).leafLo = some child ∧
        ValidNode volume depth volume.capacity child
          (extentIdxAt node index).block.toNat (upper node hi index) (parts index)) :
    (chosenBlock node lb = 0 ∧
      Seen ((List.range (ehEntries node)).flatMap parts) lb 0) ∨
    (chosenBlock node lb ≠ 0 ∧ ∃ index < ehEntries node, ∃ child,
      volume.load (chosenBlock node lb) = some child ∧ lb.toNat < upper node hi index ∧
      ValidNode volume depth volume.capacity child
        (extentIdxAt node index).block.toNat (upper node hi index) (parts index) ∧
      ∀ block, Seen (parts index) lb block →
        Seen ((List.range (ehEntries node)).flatMap parts) lb block) := by
  have records : ∀ index < ehEntries node, ExtentIdx.Valid node index lo hi :=
    fun index under => (children index under).1
  rcases foldl_last (fun index => (extentIdxAt node index).block ≤ lb)
    (fun index => (extentIdxAt node index).leaf) 0 (ehEntries node) with
    ⟨none', same⟩ | ⟨last, under, reached, greatest, same⟩
  · refine Or.inl ⟨same, Or.inr ⟨fun extent member covers => ?_, rfl⟩⟩
    obtain ⟨index, inside, member⟩ := List.mem_flatMap.mp member
    obtain ⟨_, child, _, validChild⟩ := children index (List.mem_range.mp inside)
    exact absurd (part_covers validChild member covers).1 (none' index (List.mem_range.mp inside))
  · obtain ⟨record, child, loaded, validChild⟩ := children last under
    have leaf : (extentIdxAt node last).leaf = (extentIdxAt node last).leafLo := by
      unfold ExtentIdx.leaf
      rw [record.leafHi]
      simp
    have chosen : chosenBlock node lb = (extentIdxAt node last).leafLo := same.trans leaf
    have inside : lb.toNat < upper node hi last := by
      by_cases more : last + 1 < ehEntries node
      · have next : upper node hi last = (extentIdxAt node (last + 1)).block.toNat := if_pos more
        rw [next]
        refine Nat.lt_of_not_le fun reached' => ?_
        have late := greatest (last + 1) more reached'
        omega
      · have ends : upper node hi last = hi := if_neg more
        rw [ends]
        exact below
    have only : ∀ index < ehEntries node, ∀ extent ∈ parts index, extent.Covers lb →
        index = last := by
      intro index under' extent member covers
      obtain ⟨_, child', _, validChild'⟩ := children index under'
      obtain ⟨reached', inside'⟩ := part_covers validChild' member covers
      rcases Nat.lt_or_eq_of_le (greatest index under' reached') with earlier | same'
      · have ends := upper_le records earlier under
        have least : (extentIdxAt node last).block.toNat ≤ lb.toNat := reached
        omega
      · exact same'
    refine Or.inr ⟨chosen ▸ record.leafLo, last, under, child, chosen ▸ loaded, inside, validChild,
      fun block seen => ?_⟩
    rcases seen with ⟨extent, member, rest⟩ | ⟨none', zero⟩
    · exact Or.inl ⟨extent, List.mem_flatMap.mpr ⟨last, List.mem_range.mpr under, member⟩, rest⟩
    · refine Or.inr ⟨fun extent member covers => ?_, zero⟩
      obtain ⟨index, inside', member⟩ := List.mem_flatMap.mp member
      obtain rfl := only index (List.mem_range.mp inside') extent member covers
      exact none' extent member covers

/-- The walk finds what the tree holds, as far as the scan of a leaf sees it. -/
theorem walk_seen {depth capacity lo hi : Nat} {node : Bytes} {extents : List Extent}
    (isRoot : Bool) (valid : ValidNode volume (depth + 1) capacity node lo hi extents)
    (below : lb.toNat < hi) : Seen extents lb (walk volume lb depth isRoot node).2 := by
  induction depth generalizing capacity node lo hi extents isRoot with
  | zero =>
    obtain ⟨magic, level, _, parts, rfl, children⟩ := valid
    unfold walk
    rw [if_neg fun other => other.2 magic, if_neg (by omega)]
    dsimp only
    rcases chosenBlock_part below children with
      ⟨zero, none'⟩ | ⟨nonzero, index, under, child, loaded, _, validChild, seen⟩
    · rw [if_pos zero]
      exact none'
    · rw [if_neg nonzero, loaded]
      dsimp only
      unfold leafTail
      rw [if_neg (not_not.mpr validChild.1)]
      exact seen _ (scanLeaf_seen validChild)
  | succ depth inductionHypothesis =>
    obtain ⟨magic, level, _, parts, rfl, children⟩ := valid
    unfold walk
    rw [if_neg fun other => other.2 magic, if_neg (by omega)]
    dsimp only
    rcases chosenBlock_part below children with
      ⟨zero, none'⟩ | ⟨nonzero, index, under, child, loaded, inside, validChild, seen⟩
    · rw [if_pos zero]
      exact none'
    · rw [if_neg nonzero, loaded]
      exact seen _ (inductionHypothesis false validChild inside)

/-- What `ext4_get_block` returns for a valid tree. -/
theorem ext4GetBlock_seen {inode : Bytes} {extents : List Extent}
    (valid : ValidTree volume inode extents) :
    Seen extents lb (ext4GetBlock volume inode lb).2 := by
  obtain ⟨depth, most, valid⟩ := valid
  unfold ext4GetBlock
  cases depth with
  | zero =>
    rw [if_neg (not_not.mpr valid.1)]
    unfold walk
    rw [if_neg fun other => other.2 valid.1, if_pos valid.2.1]
    exact scanLeaf_seen valid
  | succ depth =>
    rw [if_neg (not_not.mpr valid.1), valid.2.1, Nat.min_eq_left most, Nat.add_sub_cancel]
    exact walk_seen true valid lb.isLt

/-! ### When the walk is right -/

/-- A block of an extent of exactly 32768 blocks, with a physical block other than 0. -/
def Boundary (extents : List Extent) (lb : Word) : Prop :=
  ∃ extent ∈ extents, extent.Covers lb ∧ extent.len = 32768 ∧ extent.physical lb ≠ 0

/-- No two extents of a valid node hold the same block. -/
theorem ValidNode.single {depth capacity lo hi : Nat} {node : Bytes} {extents : List Extent}
    (valid : ValidNode volume depth capacity node lo hi extents) {first second : Extent}
    (member : first ∈ extents) (member' : second ∈ extents) (covers : first.Covers lb)
    (covers' : second.Covers lb) : first = second := by
  induction depth generalizing capacity node lo hi extents with
  | zero =>
    obtain ⟨_, _, _, _, _, sorted⟩ := valid
    by_contra different
    let Apart (one two : Extent) : Prop := one.block.toNat + one.count ≤ two.block.toNat ∨
      two.block.toNat + two.count ≤ one.block.toNat
    have symmetric : Std.Symm Apart := ⟨fun _ _ => Or.symm⟩
    have each : extents.Pairwise Apart := sorted.imp Or.inl
    have apart : Apart first second := each.forall member member' different
    unfold Extent.Covers at covers covers'
    rcases apart with before | behind
    · omega
    · omega
  | succ depth inductionHypothesis =>
    obtain ⟨_, _, _, parts, rfl, children⟩ := valid
    obtain ⟨one, inside, member⟩ := List.mem_flatMap.mp member
    obtain ⟨two, inside', member'⟩ := List.mem_flatMap.mp member'
    have records : ∀ index < ehEntries node, ExtentIdx.Valid node index lo hi :=
      fun index under => (children index under).1
    obtain ⟨_, child, _, validChild⟩ := children one (List.mem_range.mp inside)
    obtain ⟨_, child', _, validChild'⟩ := children two (List.mem_range.mp inside')
    obtain ⟨reached, before⟩ := part_covers validChild member covers
    obtain ⟨reached', before'⟩ := part_covers validChild' member' covers'
    have least : (extentIdxAt node one).block.toNat ≤ lb.toNat := reached
    have least' : (extentIdxAt node two).block.toNat ≤ lb.toNat := reached'
    rcases Nat.lt_trichotomy one two with earlier | rfl | later
    · have ends := upper_le records earlier (List.mem_range.mp inside')
      omega
    · exact inductionHypothesis validChild member member'
    · have ends := upper_le records later (List.mem_range.mp inside)
      omega

/-- What is seen is what is assigned, unless the block belongs to an extent of exactly 32768
blocks. -/
theorem assigned_iff {extents : List Extent} {block : Word} (seen : Seen extents lb block)
    (single : ∀ first ∈ extents, ∀ second ∈ extents, first.Covers lb → second.Covers lb →
      first = second) : Assigned extents lb block ↔ ¬ Boundary extents lb := by
  constructor
  · rintro assigned ⟨extent, member, covers, boundary, nonzero⟩
    have zero : block = 0 := by
      rcases seen with ⟨other, member', covers', short, _⟩ | ⟨_, zero⟩
      · obtain rfl := single other member' extent member covers' covers
        omega
      · exact zero
    rcases assigned with ⟨other, member', covers', _, same⟩ | ⟨none', _⟩
    · obtain rfl := single other member' extent member covers' covers
      exact nonzero (same.symm.trans zero)
    · exact none' extent member covers (Nat.le_of_eq boundary)
  · intro inner
    rcases seen with ⟨extent, member, covers, short, same⟩ | ⟨none', zero⟩
    · exact Or.inl ⟨extent, member, covers, Nat.le_of_lt short, same⟩
    · by_cases written : ∃ extent ∈ extents, extent.Covers lb ∧ extent.len ≤ 32768
      · obtain ⟨extent, member, covers, most⟩ := written
        have least := none' extent member covers
        refine Or.inl ⟨extent, member, covers, most, zero.trans ?_⟩
        by_contra nonzero
        exact inner ⟨extent, member, covers, by omega, fun same => nonzero same.symm⟩
      · exact Or.inr ⟨fun extent member covers most => written ⟨extent, member, covers, most⟩, zero⟩

/-- A node whose records fit, or a leaf that is left at a record that fits. -/
def Visit.Fits (volume : Volume) (lb : Word) (visit : Visit) : Prop :=
  ehEntries visit.node ≤ visit.capacity volume ∨
    (visit.asLeaf = true ∧ ∃ index < visit.capacity volume,
      (extentAt visit.node index).answer lb ≠ none)

/-- The scan of a leaf stays below a bound when its records do, or it is left before. -/
theorem scanLeaf_below (node : Bytes) (lb : Word) (bound entries index : Nat) :
    (∀ record ∈ (scanLeaf node lb entries index).1, record < bound) ↔
      entries = 0 ∨ index + entries ≤ bound ∨
        ∃ record, index ≤ record ∧ record < bound ∧ (extentAt node record).answer lb ≠ none := by
  induction entries generalizing index with
  | zero => exact ⟨fun _ => Or.inl rfl, fun _ record member => absurd member List.not_mem_nil⟩
  | succ entries inductionHypothesis =>
    unfold scanLeaf
    cases here : (extentAt node index).answer lb with
    | some block =>
      dsimp only
      constructor
      · intro all
        refine Or.inr (Or.inr ⟨index, Nat.le_refl index, all index (List.mem_singleton_self index), ?_⟩)
        rw [here]
        exact Option.some_ne_none block
      · rintro (zero | fits | ⟨record, reached, below, _⟩) other member
        · exact absurd zero (Nat.succ_ne_zero entries)
        · rw [List.mem_singleton.mp member]
          omega
        · rw [List.mem_singleton.mp member]
          omega
    | none =>
      dsimp only
      rw [List.forall_mem_cons, inductionHypothesis (index + 1)]
      constructor
      · rintro ⟨below, zero | fits | ⟨record, reached, below', answers⟩⟩
        · exact Or.inr (Or.inl (by omega))
        · exact Or.inr (Or.inl (by omega))
        · exact Or.inr (Or.inr ⟨record, by omega, below', answers⟩)
      · rintro (zero | fits | ⟨record, reached, below, answers⟩)
        · exact absurd zero (Nat.succ_ne_zero entries)
        · exact ⟨by omega, Or.inr (Or.inl (by omega))⟩
        · have apart : index ≠ record := by
            rintro rfl
            exact answers here
          exact ⟨by omega, Or.inr (Or.inr ⟨record, by omega, below, answers⟩)⟩

theorem inBounds_iff (volume : Volume) (lb : Word) (visit : Visit) :
    visit.InBounds volume lb ↔ visit.Fits volume lb := by
  unfold Visit.InBounds Visit.Fits Visit.records
  generalize visit.capacity volume = bound
  by_cases leaf : visit.asLeaf = true
  · rw [if_pos leaf, scanLeaf_below, Nat.zero_add]
    constructor
    · rintro (zero | fits | ⟨record, _, below, answers⟩)
      · exact Or.inl (by omega)
      · exact Or.inl fits
      · exact Or.inr ⟨leaf, record, below, answers⟩
    · rintro (fits | ⟨_, record, below, answers⟩)
      · exact Or.inr (Or.inl fits)
      · exact Or.inr (Or.inr ⟨record, Nat.zero_le record, below, answers⟩)
  · rw [if_neg leaf]
    constructor
    · intro all
      refine Or.inl (Nat.le_of_not_lt fun more => ?_)
      exact absurd (all bound (List.mem_range.mpr more)) (Nat.lt_irrefl bound)
    · rintro (fits | ⟨other, _⟩) record member
      · exact Nat.lt_of_lt_of_le (List.mem_range.mp member) fits
      · exact absurd other leaf

/-- `ext4_get_block` is right about a block exactly when no valid tree puts it in an extent of
exactly 32768 blocks and the records of the nodes on its way fit. -/
theorem ext4GetBlock_right_iff (volume : Volume) (inode : Bytes) (lb : Word) :
    Ext4Right volume inode lb ↔
      (∀ extents, ValidTree volume inode extents → ¬ Boundary extents lb) ∧
        ∀ visit ∈ (ext4GetBlock volume inode lb).1, visit.Fits volume lb := by
  have tree : ∀ extents, ValidTree volume inode extents →
      (Assigned extents lb (ext4GetBlock volume inode lb).2 ↔ ¬ Boundary extents lb) := by
    intro extents valid
    refine assigned_iff (ext4GetBlock_seen valid) fun first member second member' covers covers' => ?_
    obtain ⟨_, _, node⟩ := valid
    exact node.single member member' covers covers'
  refine ⟨fun right => ⟨fun extents valid => (tree extents valid).mp (right.assigned extents valid),
    fun visit member => (inBounds_iff volume lb visit).mp (right.inBounds visit member)⟩,
    fun both => ⟨fun extents valid => (tree extents valid).mpr (both.1 extents valid),
    fun visit member => (inBounds_iff volume lb visit).mpr (both.2 visit member)⟩⟩

/-- The inode of a file with one extent of 32768 blocks, from physical block 100 on. -/
def fullExtent : Bytes := fun index =>
  [0x0A, 0xF3, 1, 0, 4, 0, 0, 0, 0, 0, 0, 0, 0, 0, 0, 0, 0x00, 0x80, 0, 0, 100, 0, 0, 0].getD index 0

/-- A volume whose blocks nobody reads. -/
def fourKilobytes : Volume := ⟨4096, fun _ => none⟩

/-- The longest extent there is reads as a hole. -/
theorem ext4GetBlock_right_full : ¬ ∀ (volume : Volume) (inode : Bytes) (lb : Word),
    Ext4Right volume inode lb := by
  intro always
  have extent : extentAt fullExtent 0 = ⟨0, 32768, 0, 100⟩ := by decide +kernel
  have entries : ehEntries fullExtent = 1 := by decide +kernel
  have valid : ValidTree fourKilobytes fullExtent [⟨0, 32768, 0, 100⟩] := by
    refine ⟨0, Nat.zero_le _, by decide +kernel, by decide +kernel, by decide +kernel, ?_, ?_, ?_⟩
    · rw [entries, ← extent]
      rfl
    · intro other member
      obtain rfl := List.mem_singleton.mp member
      exact ⟨by decide, by decide, by decide, rfl, by decide⟩
    · exact List.pairwise_singleton _ _
  have hole : (ext4GetBlock fourKilobytes fullExtent 0).2 = 0 := by decide +kernel
  have assigned := (always fourKilobytes fullExtent 0).assigned _ valid
  rw [hole] at assigned
  rcases assigned with ⟨other, member, _, _, same⟩ | ⟨none', _⟩
  · obtain rfl := List.mem_singleton.mp member
    exact absurd same (by decide)
  · exact none' _ (List.mem_singleton_self _) ⟨by decide, by decide⟩ (by decide)

end MectovOS.Ext2
