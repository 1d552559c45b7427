/-
This file proves when a clone of an address space is exact: every user page of
the source is in the child, shared, every frame gains one reference for each
page that maps it, and nothing else is written. The child of a source with a
table in a PDPT slot the boot map does not have loses the pages there.
-/

import MectovOS.Vmm.Clone

namespace MectovOS.Vmm

/-! ### References -/

theorem frameShare_bounds (frames : Frames) (frame : Nat) :
    (frameShare frames frame).reservedPages = frames.reservedPages := by
  unfold frameShare
  split_ifs <;> rfl

theorem refCount_frameShare (frames : Frames) (shared frame : Nat) :
    (frameShare frames shared).refCount frame =
      if frame = shared ∧ frames.reservedPages ≤ frame ∧ frames.refCount frame < framePinned then
        frames.refCount frame + 1
      else frames.refCount frame := by
  unfold frameShare
  by_cases same : frame = shared
  · rw [same]
    split_ifs with counted both both
    · exact Function.update_self _ _ _
    · exact absurd ⟨rfl, counted⟩ both
    · exact absurd both.2 counted
    · rfl
  · have unshared : ¬(frame = shared ∧ frames.reservedPages ≤ frame ∧
        frames.refCount frame < framePinned) := fun both => same both.1
    rw [if_neg unshared]
    split_ifs
    · exact Function.update_of_ne same _ _
    · rfl

/-- A frame gains one reference for each time it is shared, up to the pin. -/
theorem refCount_foldl_frameShare (shares : List Nat) (frames : Frames) (frame : Nat) :
    (shares.foldl frameShare frames).refCount frame =
      if frames.reservedPages ≤ frame ∧ frames.refCount frame < framePinned then
        min framePinned (frames.refCount frame + shares.count frame)
      else frames.refCount frame := by
  induction shares generalizing frames with
  | nil =>
    rw [List.foldl_nil, List.count_nil, Nat.add_zero]
    split_ifs with counted
    · exact (Nat.min_eq_right (Nat.le_of_lt counted.2)).symm
    · rfl
  | cons shared rest inductionHypothesis =>
    rw [List.foldl_cons, inductionHypothesis, frameShare_bounds, List.count_cons]
    have shown := refCount_frameShare frames shared frame
    generalize (frameShare frames shared).refCount frame = shares at shown ⊢
    rw [shown]
    unfold framePinned
    by_cases same : frame = shared
    · rw [same, if_pos (beq_self_eq_true shared)]
      split_ifs <;> omega
    · have other : ¬(shared == frame) = true := fun equal => same (beq_iff_eq.mp equal).symm
      have unshared : ¬(frame = shared ∧ frames.reservedPages ≤ frame ∧
          frames.refCount frame < 255) := fun both => same both.1
      rw [if_neg other, if_neg unshared, Nat.add_zero]

/-! ### Pages and the places of the walk -/

/-- A page the child inherits: a user page, or any page of a region without a boot table. -/
def inherited (boot : BootTables) (source : AddressSpace) (vaddr : Nat) : Bool :=
  (source.entry vaddr).cloned &&
    ((source.entry vaddr).user || (boot.space.table vaddr).isNone)

/-- The number of pages of a source that map a frame and are inherited. -/
def mappings (boot : BootTables) (source : AddressSpace) (frame : Nat) : Nat :=
  (List.range (2 ^ 20)).countP fun page =>
    inherited boot source (page * pageSize) &&
      decide ((source.entry (page * pageSize)).frame = frame)

theorem range_mul (rows columns : Nat) :
    List.range (rows * columns) =
      (List.range rows).flatMap fun row => (List.range columns).map fun column =>
        row * columns + column := by
  induction rows with
  | zero => rw [Nat.zero_mul]; rfl
  | succ rows inductionHypothesis =>
    rw [Nat.succ_mul, List.range_add, inductionHypothesis, List.range_succ, List.flatMap_append,
      List.flatMap_singleton]

theorem flatMap_filter {First Second : Type} (kept : First → Bool) (image : First → List Second)
    (empty : ∀ item, kept item = false → image item = []) (items : List First) :
    (items.filter kept).flatMap image = items.flatMap image := by
  induction items with
  | nil => rfl
  | cons item rest inductionHypothesis =>
    rw [List.filter_cons, List.flatMap_cons]
    cases keep : kept item with
    | true => rw [if_pos rfl, List.flatMap_cons, inductionHypothesis]
    | false => rw [if_neg Bool.false_ne_true, inductionHypothesis, empty item keep, List.nil_append]

/-- The address of a page, from its place in the three levels. -/
def placeAddress (slot index entry : Nat) : Nat :=
  (slot * (512 * 512) + (index * 512 + entry)) * pageSize

theorem placeAddress_indices {slot index entry : Nat} (index_lt : index < 512)
    (entry_lt : entry < 512) :
    pdptIndex (placeAddress slot index entry) = slot ∧
      pdIndex (placeAddress slot index entry) = index ∧
      ptIndex (placeAddress slot index entry) = entry := by
  unfold placeAddress pdptIndex pdIndex ptIndex pageSize
  omega

/-- The copies made of one table that map a frame. -/
theorem count_copiedEntries (boot : BootTables) (source : AddressSpace) (frame : Nat)
    {slot index : Nat} (index_lt : index < 512) :
    ((copiedEntries boot source (slot, index)).map Pte.frame).count frame =
      (List.range 512).countP fun entry =>
        inherited boot source (placeAddress slot index entry) &&
          decide ((source.entry (placeAddress slot index entry)).frame = frame) := by
  unfold copiedEntries
  dsimp only
  cases found : source.tableAt slot index with
  | none =>
    refine (List.countP_eq_zero.mpr fun entry member => ?_).symm
    obtain ⟨sameSlot, sameIndex, _⟩ :=
      @placeAddress_indices slot index entry index_lt (List.mem_range.mp member)
    have absent : source.entry (placeAddress slot index entry) = Pte.zero := by
      unfold AddressSpace.entry
      rw [table_tableAt, sameSlot, sameIndex, found]
    unfold inherited
    rw [absent]
    exact Bool.false_ne_true
  | some table =>
    dsimp only
    rw [List.count_eq_countP, List.countP_map, List.countP_filter, List.countP_map]
    refine List.countP_congr fun entry member => ?_
    obtain ⟨sameSlot, sameIndex, sameEntry⟩ :=
      @placeAddress_indices slot index entry index_lt (List.mem_range.mp member)
    have shown : source.entry (placeAddress slot index entry) = table.entries entry := by
      unfold AddressSpace.entry
      rw [table_tableAt, sameSlot, sameIndex, found, sameEntry]
    unfold inherited
    rw [shown, table_tableAt, sameSlot, sameIndex]
    simp only [Function.comp_apply, Bool.and_eq_true, beq_iff_eq, decide_eq_true_eq]
    exact And.comm

/-- What the walk collects from its tables, counted by pages: each table collects a frame once
for each of its pages that passes a test. -/
theorem count_walk {source : AddressSpace} {image : Nat × Nat → List Nat} {frame : Nat}
    {passes : Nat → Bool}
    (empty : ∀ slot index, source.tableAt slot index = none → image (slot, index) = [])
    (counted : ∀ slot index, index < 512 → (image (slot, index)).count frame =
      (List.range 512).countP fun entry => passes (placeAddress slot index entry)) :
    ((cloneVisits source).flatMap image).count frame =
      (List.range (2 ^ 20)).countP fun page => passes (page * pageSize) := by
  rw [show 2 ^ 20 = 4 * (512 * 512) by norm_num, range_mul, List.countP_flatMap]
  unfold cloneVisits
  rw [List.flatMap_assoc, List.count_flatMap]
  refine congrArg List.sum (List.map_congr_left fun slot _ => ?_)
  rw [Function.comp_apply, Function.comp_apply, range_mul, List.map_flatMap, List.countP_flatMap,
    List.flatMap_map, flatMap_filter, List.count_flatMap]
  · refine congrArg List.sum (List.map_congr_left fun index member => ?_)
    rw [Function.comp_apply, Function.comp_apply, counted slot index (List.mem_range.mp member),
      List.map_map, List.countP_map]
    rfl
  · intro index absent
    exact empty slot index (by simpa using absent)

/-- The walk copies each inherited page once. -/
theorem count_copiedFrames (boot : BootTables) (source : AddressSpace) (frame : Nat) :
    (copiedFrames boot source (cloneVisits source)).count frame =
      mappings boot source frame := by
  refine @count_walk source (fun place => (copiedEntries boot source place).map Pte.frame) frame
    (fun vaddr => inherited boot source vaddr && decide ((source.entry vaddr).frame = frame))
    (fun slot index absent => ?_)
    fun slot index index_lt => count_copiedEntries boot source frame index_lt
  unfold copiedEntries
  rw [show source.tableAt slot index = none from absent]
  rfl

/-! ### Exact clones -/

/-- Every user page of the source that is no device page is in the child, at its frame and with
its flags shared in both; device pages are not; frames gain one reference for each page that maps
them; and no directory entry went astray. -/
structure CloneExact (boot : BootTables) (source : AddressSpace) (frames : Frames)
    (result : CloneResult) (child : AddressSpace) : Prop where
  pages : ∀ vaddr < 2 ^ 32, (source.entry vaddr).present = true →
    (source.entry vaddr).user = true → (source.entry vaddr).dev = false →
    child.entry vaddr = (source.entry vaddr).share ∧
      result.source.entry vaddr = (source.entry vaddr).share
  devices : ∀ vaddr < 2 ^ 32, (source.entry vaddr).dev = true →
    ¬((child.entry vaddr).present = true ∧ (child.entry vaddr).user = true ∧
      (child.entry vaddr).dev = true)
  references : ∀ frame, result.frames.refCount frame =
    if frames.reservedPages ≤ frame ∧ frames.refCount frame < framePinned then
      min framePinned (frames.refCount frame + mappings boot source frame)
    else frames.refCount frame
  strays : result.strays = []

theorem takeWhile_all {Item : Type} {kept : Item → Bool} {items : List Item}
    (all : items.all kept = true) : items.takeWhile kept = items := by
  induction items with
  | nil => rfl
  | cons item rest inductionHypothesis =>
    obtain ⟨first, others⟩ := Bool.and_eq_true_iff.mp all
    rw [List.takeWhile_cons, first, if_pos rfl, inductionHypothesis others]

/-- A clone that succeeds walked over every table of the source. -/
theorem vmmCloneAddressSpace_spec {boot : BootTables} {source : AddressSpace} {frames : Frames}
    {bytes : Nat → UInt8} {io : CloneIo} {child : AddressSpace}
    (cloned : (vmmCloneAddressSpace boot source frames bytes io).child = some child) :
    ∃ own, vmmCreateAddressSpace boot io.create = some own ∧
      child = childSpace boot.space own source ∧
      (vmmCloneAddressSpace boot source frames bytes io).source =
        markSource source (cloneVisits source) ∧
      (vmmCloneAddressSpace boot source frames bytes io).frames =
        (copiedFrames boot source (cloneVisits source)).foldl frameShare frames ∧
      (vmmCloneAddressSpace boot source frames bytes io).strays =
        strayCopies boot own source (cloneVisits source) := by
  unfold vmmCloneAddressSpace at cloned ⊢
  cases created : vmmCreateAddressSpace boot io.create with
  | none =>
    rw [created] at cloned
    exact absurd cloned (by simp)
  | some own =>
    rw [created] at cloned
    dsimp only at cloned ⊢
    split at cloned
    · rename_i all
      rw [if_pos all, takeWhile_all all]
      refine ⟨own, rfl, (Option.some.inj cloned).symm, ?_, ?_, ?_⟩ <;> dsimp only
    · exact absurd cloned (by simp)

theorem place_of_lt {vaddr : Nat} (low : vaddr < 2 ^ 32) :
    pdptIndex vaddr < 4 ∧ pdIndex vaddr < 512 := by
  unfold pdptIndex pdIndex
  omega

theorem table_of_cloned {source : AddressSpace} {vaddr : Nat}
    (cloned : (source.entry vaddr).cloned = true) :
    (source.tableAt (pdptIndex vaddr) (pdIndex vaddr)).isSome = true := by
  unfold AddressSpace.entry at cloned
  rw [← table_tableAt]
  cases found : source.table vaddr with
  | none =>
    rw [found] at cloned
    exact absurd cloned Bool.false_ne_true
  | some table => rfl

/-- The boot map of an exact clone has a directory for every table of the source. -/
theorem CloneExact.covered {boot : BootTables} {source : AddressSpace} {frames : Frames}
    {bytes : Nat → UInt8} {io : CloneIo} {child : AddressSpace}
    (cloned : (vmmCloneAddressSpace boot source frames bytes io).child = some child)
    (exact : CloneExact boot source frames (vmmCloneAddressSpace boot source frames bytes io)
      child) {slot index : Nat} (slot_lt : slot < 4) (index_lt : index < 512)
    (there : (source.tableAt slot index).isSome = true) :
    (boot.space.pdpt slot).isSome = true := by
  obtain ⟨own, created, _, _, _, astray⟩ := vmmCloneAddressSpace_spec cloned
  obtain ⟨directories, _⟩ := vmmCreateAddressSpace_spec created
  by_contra missing
  have lost := exact.strays
  rw [astray] at lost
  have visited : (slot, index) ∈ cloneVisits source :=
    mem_cloneVisits.mpr ⟨slot_lt, index_lt, there⟩
  refine List.filter_eq_nil_iff.mp lost _ visited ?_
  have noDirectory : boot.space.pdpt slot = none := Option.not_isSome_iff_eq_none.mp missing
  have noOwn : own.pdpt slot = none := by
    refine Option.not_isSome_iff_eq_none.mp ?_
    rw [directories]
    exact missing
  have noTable : boot.space.tableAt slot index = none := by
    unfold AddressSpace.tableAt
    rw [noDirectory]
    rfl
  dsimp only
  rw [noOwn, noTable, there]
  rfl

/-- A clone is exact exactly when the boot map has a directory for every table of the source. -/
theorem vmm_clone_exact_iff {boot : BootTables} {source : AddressSpace} {frames : Frames}
    {bytes : Nat → UInt8} {io : CloneIo} {child : AddressSpace}
    (cloned : (vmmCloneAddressSpace boot source frames bytes io).child = some child) :
    CloneExact boot source frames (vmmCloneAddressSpace boot source frames bytes io) child ↔
      ∀ slot < 4, ∀ index < 512, (source.tableAt slot index).isSome = true →
        (boot.space.pdpt slot).isSome = true := by
  constructor
  · exact fun exact slot slot_lt index index_lt there => exact.covered cloned slot_lt index_lt there
  · intro covered
    obtain ⟨own, created, same, marked, shared, astray⟩ := vmmCloneAddressSpace_spec cloned
    obtain ⟨directories, tables, userOnly⟩ := vmmCreateAddressSpace_spec created
    have reached : ∀ vaddr < 2 ^ 32, (source.entry vaddr).cloned = true →
        (own.pdpt (pdptIndex vaddr)).isSome = true := by
      intro vaddr low inherit
      obtain ⟨slot_lt, index_lt⟩ := place_of_lt low
      rw [directories]
      exact covered _ slot_lt _ index_lt (table_of_cloned inherit)
    refine ⟨fun vaddr low present user plain => ?_, fun vaddr low device => ?_, fun frame => ?_, ?_⟩
    · have inherit : (source.entry vaddr).cloned = true := by
        unfold Pte.cloned
        rw [present, plain]
        rfl
      obtain ⟨slot_lt, index_lt⟩ := place_of_lt low
      rw [same, marked]
      refine ⟨entry_childSpace_copied tables (reached vaddr low inherit) inherit user, ?_⟩
      rw [entry_markSource, if_pos ⟨mem_cloneVisits.mpr ⟨slot_lt, index_lt,
        table_of_cloned inherit⟩, inherit⟩]
    · rintro ⟨present, user, dev⟩
      rw [same] at present user dev
      rcases entry_childSpace_cases boot.space own source vaddr with kept | none' | ⟨inherit, _⟩
      · rw [kept] at present user dev
        exact absurd ((userOnly vaddr present user).2.symm.trans dev) Bool.false_ne_true
      · rw [none'] at present
        exact absurd present Bool.false_ne_true
      · unfold Pte.cloned at inherit
        rw [device, Bool.not_true, Bool.and_false] at inherit
        exact absurd inherit Bool.false_ne_true
    · rw [shared, refCount_foldl_frameShare, count_copiedFrames]
    · rw [astray]
      refine List.filter_eq_nil_iff.mpr fun place visited => ?_
      obtain ⟨slot, index⟩ := place
      obtain ⟨slot_lt, index_lt, there⟩ := mem_cloneVisits.mp visited
      have directory := covered slot slot_lt index index_lt there
      rw [← directories, Option.isSome_iff_exists] at directory
      obtain ⟨found, listed⟩ := directory
      dsimp only
      rw [listed]
      exact Bool.false_ne_true

/-! ### A page in the mmap window -/

/-- The identity map of the first two megabytes. -/
def smallBoot : BootTables where
  space :=
    { pdpt := fun slot => if slot = 0 then some fun index => if index = 0 then some
          ⟨false, fun page => ⟨true, true, false, false, false, false, false, page⟩⟩ else none
        else none
      widened := by
        intro slot directory index table reached listed
        split at reached
        · rw [← Option.some.inj reached] at listed
          dsimp only at listed
          split at listed
          · rw [← Option.some.inj listed]
            exact fun page _ user => absurd user Bool.false_ne_true
          · exact absurd listed (by simp)
        · exact absurd reached (by simp) }
  identity := rfl
  kernelOnly vaddr present := by
    unfold AddressSpace.entry AddressSpace.table
    dsimp only
    by_cases low : pdptIndex vaddr = 0
    · rw [if_pos low, Option.bind_some]
      dsimp only
      by_cases first : pdIndex vaddr = 0
      · rw [if_pos first]
      · rw [if_neg first]
        rfl
    · rw [if_neg low]
      rfl

/-- A space of that kernel with one private page. -/
def pageSpace (vaddr : Nat) : AddressSpace :=
  (vmmMapPage smallBoot.space ⟨true, true⟩ vaddr
    ⟨true, true, true, false, false, false, true, 30000⟩).1

/-- The allocator has a frame for everything. -/
def plentyCloneIo : CloneIo := ⟨⟨true, some 30001, ⟨true, true⟩⟩, fun _ _ => some 30002⟩

def cloneFrames : Frames := ⟨fun _ => 1, fun _ => false, 20480, 32768, 20480⟩

/-- The child of a space. -/
def childOf (source : AddressSpace) : AddressSpace :=
  ((vmmCloneAddressSpace smallBoot source cloneFrames (fun _ => 0) plentyCloneIo).child).getD
    source

theorem childOf_cloned {source : AddressSpace}
    (all : (cloneVisits source).all (copyable smallBoot plentyCloneIo) = true) :
    (vmmCloneAddressSpace smallBoot source cloneFrames (fun _ => 0) plentyCloneIo).child =
      some (childOf source) := by
  unfold childOf vmmCloneAddressSpace
  cases created : vmmCreateAddressSpace smallBoot plentyCloneIo.create with
  | none => exact absurd created (by simp [vmmCreateAddressSpace, plentyCloneIo])
  | some own =>
    dsimp only
    rw [if_pos all]
    rfl

theorem plenty_copyable (source : AddressSpace) :
    (cloneVisits source).all (copyable smallBoot plentyCloneIo) = true := by
  refine List.all_eq_true.mpr fun place _ => ?_
  unfold copyable plentyCloneIo
  rw [Option.isSome_some, Bool.or_true]

theorem vmm_clone_exact_iff_heap :
    CloneExact smallBoot (pageSpace 0x08000000) cloneFrames
        (vmmCloneAddressSpace smallBoot (pageSpace 0x08000000) cloneFrames (fun _ => 0)
          plentyCloneIo) (childOf (pageSpace 0x08000000)) ↔
      ∀ slot < 4, ∀ index < 512,
        ((pageSpace 0x08000000).tableAt slot index).isSome = true →
          (smallBoot.space.pdpt slot).isSome = true :=
  vmm_clone_exact_iff (childOf_cloned (plenty_copyable _))

/-- The child of a program that used its mmap window does not have the page. -/
theorem vmm_clone_loses_mmap :
    ¬∀ (boot : BootTables) (source : AddressSpace) (frames : Frames) (bytes : Nat → UInt8)
      (io : CloneIo) (child : AddressSpace),
      (vmmCloneAddressSpace boot source frames bytes io).child = some child →
      CloneExact boot source frames (vmmCloneAddressSpace boot source frames bytes io) child := by
  intro claimed
  have exact := claimed smallBoot (pageSpace 0x40000000) cloneFrames (fun _ => 0) plentyCloneIo _
    (childOf_cloned (plenty_copyable _))
  have covered := exact.covered (childOf_cloned (plenty_copyable _)) (show 1 < 4 from by decide)
    (show 0 < 512 from by decide) (by decide)
  exact absurd covered (by decide)

end MectovOS.Vmm
