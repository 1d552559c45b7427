/-
This file models how src/sys/vmm.c makes address spaces: a new space has copies
of the boot tables and the signal trampoline, and `vmm_clone_address_space`
copies the user pages of a space into a new one, writable private pages as
copy-on-write in both. The child gets a table for a purely user region only
where its PDPT has a directory; elsewhere the directory pointer is 0, and the
entry for the copied table is written to the bottom of physical memory.

The frames of the tables themselves are left out.
-/

import MectovOS.Vmm.Frames
import MectovOS.Vmm.Paging

namespace MectovOS.Vmm

open Function

/-! ### Boot tables and new spaces -/

/-- The table at a place of the two upper levels. -/
def AddressSpace.tableAt (space : AddressSpace) (slot index : Nat) : Option PageTable :=
  (space.pdpt slot).bind fun directory => directory index

theorem table_tableAt (space : AddressSpace) (vaddr : Nat) :
    space.table vaddr = space.tableAt (pdptIndex vaddr) (pdIndex vaddr) := rfl

theorem tableAt_widened {space : AddressSpace} {slot index : Nat} {table : PageTable}
    (found : space.tableAt slot index = some table) : table.Widened := by
  obtain ⟨directory, reached, listed⟩ := Option.bind_eq_some_iff.mp found
  exact space.widened reached listed

/-- The tables `paging_init` leaves: the identity map fills the first PDPT slot, and nothing is
mapped for user mode. -/
structure BootTables where
  space : AddressSpace
  identity : (space.pdpt 0).isSome = true
  kernelOnly : ∀ vaddr, (space.entry vaddr).present = true → (space.entry vaddr).user = false

/-- `SIG_TRAMPOLINE_VA`. -/
def sigTrampolineVa : Nat := 0x08F7F000

/-- What the allocator answers while a space is made: whether the copies of the boot tables get
frames, and the frame and the tables of the trampoline page. -/
structure CreateIo where
  boot : Bool
  trampoline : Option Nat
  tables : TableFrames

/-- `vmm_create_address_space`. -/
def vmmCreateAddressSpace (boot : BootTables) (io : CreateIo) : Option AddressSpace :=
  if io.boot then
    match io.trampoline with
    | none => some boot.space
    | some frame =>
      some (vmmMapPage boot.space io.tables sigTrampolineVa
        ⟨true, false, true, false, false, false, false, frame⟩).1
  else none

/-! ### Copied entries -/

/-- An entry that is inherited: device pages are not. -/
def Pte.cloned (pte : Pte) : Bool := pte.present && !pte.dev

/-- A private writable user page becomes read-only and copy-on-write. -/
def Pte.share (pte : Pte) : Pte :=
  if pte.user && pte.rw && !pte.shared then { pte with rw := false, cow := true } else pte

theorem share_present (pte : Pte) : pte.share.present = pte.present := by
  unfold Pte.share
  split_ifs <;> rfl

theorem share_user (pte : Pte) : pte.share.user = pte.user := by
  unfold Pte.share
  split_ifs <;> rfl

/-- The copy of a table of a purely user region. -/
def copyTable (source : PageTable) : PageTable where
  user := source.user
  entries entry := if (source.entries entry).cloned then (source.entries entry).share else Pte.zero

/-- The user entries of a table laid over the child's copy of the boot table. -/
def overlayTable (own source : PageTable) : PageTable where
  user := own.user || source.user
  entries entry :=
    if (source.entries entry).cloned && (source.entries entry).user then
      (source.entries entry).share
    else own.entries entry

/-- The source table after its entries were shared. -/
def markTable (source : PageTable) : PageTable where
  user := source.user
  entries entry :=
    if (source.entries entry).cloned then (source.entries entry).share else source.entries entry

theorem copyTable_widened {source : PageTable} (wide : source.Widened) :
    (copyTable source).Widened := by
  intro entry present user
  unfold copyTable at present user ⊢
  dsimp only at present user ⊢
  split_ifs at present user
  · rw [share_present] at present
    rw [share_user] at user
    exact wide entry present user
  · exact absurd present Bool.false_ne_true

theorem overlayTable_widened {own source : PageTable} (wide : own.Widened)
    (wideSource : source.Widened) : (overlayTable own source).Widened := by
  intro entry present user
  unfold overlayTable at present user ⊢
  dsimp only at present user ⊢
  split_ifs at present user
  · rw [share_present] at present
    rw [share_user] at user
    rw [wideSource entry present user, Bool.or_true]
  · rw [wide entry present user, Bool.true_or]

theorem markTable_widened {source : PageTable} (wide : source.Widened) :
    (markTable source).Widened := by
  intro entry present user
  unfold markTable at present user ⊢
  dsimp only at present user ⊢
  split_ifs at present user
  · rw [share_present] at present
    rw [share_user] at user
    exact wide entry present user
  · exact wide entry present user

/-! ### The walk -/

/-- The tables of the source, in the order the walk visits them. -/
def cloneVisits (source : AddressSpace) : List (Nat × Nat) :=
  (List.range 4).flatMap fun slot =>
    ((List.range 512).filter fun index => (source.tableAt slot index).isSome).map
      fun index => (slot, index)

/-- The answers of the allocator during a clone: those for the new space, and the frame of each
copied table. -/
structure CloneIo where
  create : CreateIo
  copies : Nat → Nat → Option Nat

/-- The walk gets past a table: the region has a boot table, or there is a frame for a copy. -/
def copyable (boot : BootTables) (io : CloneIo) (place : Nat × Nat) : Bool :=
  (boot.space.tableAt place.1 place.2).isSome || (io.copies place.1 place.2).isSome

local instance placeLawful : LawfulBEq (Nat × Nat) := inferInstance

/-- The source after the walk went over some of its tables. -/
def markSource (source : AddressSpace) (reached : List (Nat × Nat)) : AddressSpace where
  pdpt slot := (source.pdpt slot).map fun directory index =>
    (directory index).map fun table => if (slot, index) ∈ reached then markTable table else table
  widened := by
    intro slot directory index table reached listed
    obtain ⟨old, there, rfl⟩ := Option.map_eq_some_iff.mp reached
    obtain ⟨before, found, rfl⟩ := Option.map_eq_some_iff.mp listed
    have wide := source.widened there found
    split_ifs
    · exact markTable_widened wide
    · exact wide

/-- The table of the child at a place where its PDPT has a directory. -/
def childTable (boot source : AddressSpace) (own : Option PageTable) (slot index : Nat) :
    Option PageTable :=
  match source.tableAt slot index with
  | none => own
  | some table =>
    if (boot.tableAt slot index).isSome then own.map fun own => overlayTable own table
    else some (copyTable table)

/-- The new space with the tables of the source copied into it. -/
def childSpace (boot own source : AddressSpace) : AddressSpace where
  pdpt slot := (own.pdpt slot).map fun directory index =>
    childTable boot source (directory index) slot index
  widened := by
    intro slot directory index table reached listed
    obtain ⟨old, there, rfl⟩ := Option.map_eq_some_iff.mp reached
    dsimp only [childTable] at listed
    split at listed
    · exact own.widened there listed
    · rename_i from' found
      have wide := tableAt_widened found
      split_ifs at listed
      · obtain ⟨before, listedOwn, rfl⟩ := Option.map_eq_some_iff.mp listed
        exact overlayTable_widened (own.widened there listedOwn) wide
      · rw [← Option.some.inj listed]
        exact copyTable_widened wide

/-! ### References -/

/-- One more mapping of a frame; at 255 the frame is pinned. -/
def frameShare (frames : Frames) (frame : Nat) : Frames :=
  if frames.reservedPages ≤ frame ∧ frames.refCount frame < framePinned then
    { frames with refCount := update frames.refCount frame (frames.refCount frame + 1) }
  else frames

/-- The entries of a table the walk copies. -/
def copiedEntries (boot : BootTables) (source : AddressSpace) (place : Nat × Nat) : List Pte :=
  match source.tableAt place.1 place.2 with
  | none => []
  | some table =>
    ((List.range 512).map table.entries).filter fun pte =>
      pte.cloned && (pte.user || (boot.space.tableAt place.1 place.2).isNone)

/-- The frames of the copied entries, once for each copy. -/
def copiedFrames (boot : BootTables) (source : AddressSpace) (reached : List (Nat × Nat)) :
    List Nat :=
  reached.flatMap fun place => (copiedEntries boot source place).map Pte.frame

/-- Two entries agree in their frames and in PAGE_PRESENT, PAGE_RW and PAGE_USER. -/
def Pte.agrees (first second : Pte) : Bool :=
  first.frame = second.frame && first.present = second.present && first.rw = second.rw &&
    first.user = second.user

/-- The frames `vmm_free_address_space` gives back: those of the entries that differ from the
boot table, where there is one. -/
def ownedFrames (boot : BootTables) (space : AddressSpace) (reserved : Nat) : List Nat :=
  (cloneVisits space).flatMap fun place =>
    (((List.range 512).filter fun entry =>
      match space.tableAt place.1 place.2, boot.space.tableAt place.1 place.2 with
      | some table, some kernel =>
        (table.entries entry).cloned && !(table.entries entry).agrees (kernel.entries entry)
      | some table, none => (table.entries entry).cloned
      | none, _ => false).map fun entry =>
        ((space.tableAt place.1 place.2).elim Pte.zero fun table => table.entries entry).frame).filter
      fun frame => reserved ≤ frame

/-- `vmm_free_address_space`: what it does to the frames of the pages. -/
def vmmFreeAddressSpace (boot : BootTables) (frames : Frames) (space : AddressSpace) : Frames :=
  (ownedFrames boot space frames.reservedPages).foldl frameFree frames

/-! ### vmm_clone_address_space -/

/-- The eight bytes of a directory entry that points to a table. -/
def pdeBytes (frame : Nat) (user : Bool) (offset : Nat) : UInt8 :=
  UInt8.ofNat ((frame * pageSize + 3 + if user then 4 else 0) / 256 ^ offset)

/-- The tables copied for slots in which the new space has no directory: their entries go to the
physical addresses the walk computes from a directory at 0. -/
def strayCopies (boot : BootTables) (own source : AddressSpace) (reached : List (Nat × Nat)) :
    List (Nat × Nat) :=
  reached.filter fun place =>
    (own.pdpt place.1).isNone && (boot.space.tableAt place.1 place.2).isNone &&
      (source.tableAt place.1 place.2).isSome

/-- The bytes of memory after one stray directory entry. -/
def strayWrite (source : AddressSpace) (io : CloneIo) (bytes : Nat → UInt8)
    (place : Nat × Nat) : Nat → UInt8 := fun address =>
  if place.2 * 8 ≤ address ∧ address < place.2 * 8 + 8 then
    pdeBytes ((io.copies place.1 place.2).getD 0)
      ((source.tableAt place.1 place.2).elim false PageTable.user) (address - place.2 * 8)
  else bytes address

/-- What a clone leaves: the source, the child when there is one, the references, the bytes of
memory, and the places whose directory entries went astray. -/
structure CloneResult where
  source : AddressSpace
  child : Option AddressSpace
  frames : Frames
  bytes : Nat → UInt8
  strays : List (Nat × Nat)

/-- `vmm_clone_address_space` of a private space; when it runs out of frames the copies are
released, and the source keeps its marks. -/
def vmmCloneAddressSpace (boot : BootTables) (source : AddressSpace) (frames : Frames)
    (bytes : Nat → UInt8) (io : CloneIo) : CloneResult :=
  match vmmCreateAddressSpace boot io.create with
  | none => ⟨source, none, frames, bytes, []⟩
  | some own =>
    let reached := (cloneVisits source).takeWhile (copyable boot io)
    let copied := copiedFrames boot source reached
    let shared := copied.foldl frameShare frames
    let strays := strayCopies boot own source reached
    let marked := markSource source reached
    let written := strays.foldl (strayWrite source io) bytes
    if (cloneVisits source).all (copyable boot io) then
      ⟨marked, some (childSpace boot.space own source), shared, written, strays⟩
    else ⟨marked, none, copied.foldl frameFree shared, written, strays⟩

/-! ### Entries of the child and of the source -/

theorem mem_cloneVisits {source : AddressSpace} {slot index : Nat} :
    (slot, index) ∈ cloneVisits source ↔
      slot < 4 ∧ index < 512 ∧ (source.tableAt slot index).isSome = true := by
  unfold cloneVisits
  constructor
  · intro member
    obtain ⟨low, there, listed⟩ := List.mem_flatMap.mp member
    obtain ⟨high, kept, same⟩ := List.mem_map.mp listed
    obtain ⟨inside, found⟩ := List.mem_filter.mp kept
    cases same
    exact ⟨List.mem_range.mp there, List.mem_range.mp inside, found⟩
  · rintro ⟨low, high, found⟩
    exact List.mem_flatMap.mpr ⟨slot, List.mem_range.mpr low,
      List.mem_map.mpr ⟨index, List.mem_filter.mpr ⟨List.mem_range.mpr high, found⟩, rfl⟩⟩

theorem table_markSource (source : AddressSpace) (reached : List (Nat × Nat)) (vaddr : Nat) :
    (markSource source reached).table vaddr = (source.table vaddr).map fun table =>
      if (pdptIndex vaddr, pdIndex vaddr) ∈ reached then markTable table else table := by
  unfold AddressSpace.table markSource
  dsimp only
  cases source.pdpt (pdptIndex vaddr) <;> rfl

/-- An entry of the source keeps its frame and its flags, or is shared now. -/
theorem entry_markSource (source : AddressSpace) (reached : List (Nat × Nat)) (vaddr : Nat) :
    (markSource source reached).entry vaddr =
      if (pdptIndex vaddr, pdIndex vaddr) ∈ reached ∧ (source.entry vaddr).cloned = true then
        (source.entry vaddr).share
      else source.entry vaddr := by
  unfold AddressSpace.entry
  rw [table_markSource]
  cases source.table vaddr with
  | none =>
    rw [if_neg fun both => absurd both.2 Bool.false_ne_true]
    rfl
  | some table =>
    dsimp only [Option.map_some]
    by_cases visited : (pdptIndex vaddr, pdIndex vaddr) ∈ reached
    · rw [if_pos visited]
      unfold markTable
      dsimp only
      split_ifs with copied both both
      · rfl
      · exact absurd ⟨visited, copied⟩ both
      · exact absurd both.2 copied
      · rfl
    · rw [if_neg visited, if_neg fun both => visited both.1]

theorem table_childSpace (boot own source : AddressSpace) (vaddr : Nat) :
    (childSpace boot own source).table vaddr = (own.pdpt (pdptIndex vaddr)).bind fun directory =>
      childTable boot source (directory (pdIndex vaddr)) (pdptIndex vaddr) (pdIndex vaddr) := by
  unfold AddressSpace.table childSpace
  dsimp only
  cases own.pdpt (pdptIndex vaddr) <;> rfl

/-- A user page of the source is in the child, with its frame and its flags shared, when the
child has a directory for it. -/
theorem entry_childSpace_copied {boot own source : AddressSpace}
    (copies : ∀ slot index, (boot.tableAt slot index).isSome = true →
      (own.tableAt slot index).isSome = true) {vaddr : Nat}
    (reached : (own.pdpt (pdptIndex vaddr)).isSome = true)
    (cloned : (source.entry vaddr).cloned = true) (user : (source.entry vaddr).user = true) :
    (childSpace boot own source).entry vaddr = (source.entry vaddr).share := by
  obtain ⟨directory, there⟩ := Option.isSome_iff_exists.mp reached
  unfold AddressSpace.entry at cloned user ⊢
  rw [table_childSpace, there, Option.bind_some]
  cases found : source.table vaddr with
  | none =>
    rw [found] at cloned
    exact absurd cloned Bool.false_ne_true
  | some table =>
    rw [found] at cloned user
    dsimp only at cloned user ⊢
    unfold childTable
    rw [← table_tableAt, found]
    dsimp only
    split_ifs with inBoot
    · have ours := copies _ _ inBoot
      unfold AddressSpace.tableAt at ours
      rw [there, Option.bind_some] at ours
      obtain ⟨own', listed⟩ := Option.isSome_iff_exists.mp ours
      rw [listed, Option.map_some]
      unfold overlayTable
      dsimp only
      rw [cloned, user, Bool.and_self, if_pos rfl]
    · unfold copyTable
      dsimp only
      rw [cloned, if_pos rfl]

/-- An entry of the child is the new space's own, or none, or a shared copy. -/
theorem entry_childSpace_cases (boot own source : AddressSpace) (vaddr : Nat) :
    (childSpace boot own source).entry vaddr = own.entry vaddr ∨
      (childSpace boot own source).entry vaddr = Pte.zero ∨
      (source.entry vaddr).cloned = true ∧
        (childSpace boot own source).entry vaddr = (source.entry vaddr).share := by
  unfold AddressSpace.entry
  rw [table_childSpace]
  unfold AddressSpace.table
  cases own.pdpt (pdptIndex vaddr) with
  | none => exact Or.inl rfl
  | some directory =>
    dsimp only [Option.bind_some]
    unfold childTable
    rw [show source.tableAt (pdptIndex vaddr) (pdIndex vaddr) = source.table vaddr from rfl]
    unfold AddressSpace.table
    cases (source.pdpt (pdptIndex vaddr)).bind fun directory => directory (pdIndex vaddr) with
    | none => exact Or.inl rfl
    | some table =>
      dsimp only
      split_ifs with inBoot
      · cases directory (pdIndex vaddr) with
        | none => exact Or.inl rfl
        | some own' =>
          dsimp only [Option.map_some, overlayTable]
          split_ifs with copied
          · exact Or.inr (Or.inr ⟨(Bool.and_eq_true_iff.mp copied).1, rfl⟩)
          · exact Or.inl rfl
      · dsimp only [copyTable]
        split_ifs with copied
        · exact Or.inr (Or.inr ⟨copied, rfl⟩)
        · exact Or.inr (Or.inl rfl)

/-! ### The new space -/

theorem tableAt_setTable_isSome {space : AddressSpace} {vaddr slot index : Nat} {table : PageTable}
    (widened : table.Widened) (there : (space.tableAt slot index).isSome = true) :
    ((space.setTable vaddr table widened).tableAt slot index).isSome = true := by
  obtain ⟨old, found⟩ := Option.isSome_iff_exists.mp there
  obtain ⟨directory, reached, listed⟩ := Option.bind_eq_some_iff.mp found
  unfold AddressSpace.tableAt AddressSpace.setTable
  dsimp only
  by_cases sameSlot : slot = pdptIndex vaddr
  · rw [sameSlot, update_self, Option.bind_some]
    by_cases sameIndex : index = pdIndex vaddr
    · rw [sameIndex, update_self]
      rfl
    · rw [update_of_ne sameIndex]
      rw [sameSlot] at reached
      rw [reached, Option.getD_some, listed]
      rfl
  · rw [update_of_ne sameSlot, reached, Option.bind_some, listed]
    rfl

/-- Mapping a page in a slot that has a directory keeps the directories and adds to the tables. -/
theorem vmmMapPage_tables {space : AddressSpace} {frames : TableFrames} {vaddr : Nat} {pte : Pte}
    (there : (space.pdpt (pdptIndex vaddr)).isSome = true) :
    (∀ slot, ((vmmMapPage space frames vaddr pte).1.pdpt slot).isSome = (space.pdpt slot).isSome) ∧
      ∀ slot index, (space.tableAt slot index).isSome = true →
        ((vmmMapPage space frames vaddr pte).1.tableAt slot index).isSome = true := by
  unfold vmmMapPage spacePd
  rw [if_pos there]
  dsimp only
  split
  · exact ⟨fun _ => rfl, fun _ _ found => found⟩
  · rename_i table made
    refine ⟨fun slot => ?_, fun slot index found =>
      tableAt_setTable_isSome (spacePt_widened made) found⟩
    unfold AddressSpace.setTable
    dsimp only
    by_cases same : slot = pdptIndex vaddr
    · rw [same, update_self, there]
      rfl
    · rw [update_of_ne same]

/-- A new space has the directories of the boot map, its tables, and no user page but the
trampoline, which is read-only. -/
theorem vmmCreateAddressSpace_spec {boot : BootTables} {io : CreateIo} {own : AddressSpace}
    (created : vmmCreateAddressSpace boot io = some own) :
    (∀ slot, (own.pdpt slot).isSome = (boot.space.pdpt slot).isSome) ∧
      (∀ slot index, (boot.space.tableAt slot index).isSome = true →
        (own.tableAt slot index).isSome = true) ∧
      ∀ vaddr, (own.entry vaddr).present = true → (own.entry vaddr).user = true →
        (own.entry vaddr).rw = false ∧ (own.entry vaddr).dev = false := by
  unfold vmmCreateAddressSpace at created
  split_ifs at created
  have kernelOnly : ∀ vaddr, (boot.space.entry vaddr).present = true →
      (boot.space.entry vaddr).user = true →
      (boot.space.entry vaddr).rw = false ∧ (boot.space.entry vaddr).dev = false :=
    fun vaddr present user => absurd ((boot.kernelOnly vaddr present).symm.trans user)
      Bool.false_ne_true
  split at created
  · rw [← Option.some.inj created]
    exact ⟨fun _ => rfl, fun _ _ found => found, kernelOnly⟩
  · rename_i frame _
    rw [← Option.some.inj created]
    have there : (boot.space.pdpt (pdptIndex sigTrampolineVa)).isSome = true := by
      rw [show pdptIndex sigTrampolineVa = 0 from by decide]
      exact boot.identity
    obtain ⟨directories, tables⟩ := @vmmMapPage_tables boot.space io.tables sigTrampolineVa
      ⟨true, false, true, false, false, false, false, frame⟩ there
    refine ⟨directories, tables, fun vaddr => ?_⟩
    cases mapped : (vmmMapPage boot.space io.tables sigTrampolineVa
        ⟨true, false, true, false, false, false, false, frame⟩).2 with
    | false =>
      rw [entry_vmmMapPage_failed mapped]
      exact kernelOnly vaddr
    | true =>
      rw [entry_vmmMapPage mapped]
      split_ifs
      · exact fun _ _ => ⟨rfl, rfl⟩
      · exact kernelOnly vaddr

end MectovOS.Vmm
