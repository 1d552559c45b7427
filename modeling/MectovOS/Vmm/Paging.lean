/-
This file models the address spaces of src/sys/vmm.c: the three levels of page
tables a PDPT reaches, the walk that finds a page table entry, `vmm_map_page`
with the tables it makes on the way, and the ways entries are changed in place.

An address space carries the rule `vmm_map_page` keeps: an entry with PAGE_USER
lies under a directory entry with PAGE_USER. Where the tables themselves lie in
memory is left out; a table belongs to one address space.
-/

import Mathlib

namespace MectovOS.Vmm

open Function

/-! ### Entries and tables -/

def pageSize : Nat := 4096

def pdptIndex (vaddr : Nat) : Nat := vaddr / 2 ^ 30
def pdIndex (vaddr : Nat) : Nat := vaddr / 2 ^ 21 % 512
def ptIndex (vaddr : Nat) : Nat := vaddr / 2 ^ 12 % 512

/-- A page table entry: its flags and the number of the frame it maps. -/
structure Pte where
  present : Bool
  rw : Bool
  user : Bool
  cow : Bool
  shared : Bool
  dev : Bool
  nx : Bool
  frame : Nat
  deriving DecidableEq

/-- The cleared entry. -/
def Pte.zero : Pte := ⟨false, false, false, false, false, false, false, 0⟩

/-- A page table, with the PAGE_USER bit of the directory entry that points to it. -/
structure PageTable where
  user : Bool
  entries : Nat → Pte

abbrev PageDirectory := Nat → Option PageTable

/-- No entry of the table reaches user mode unless its directory entry does. -/
def PageTable.Widened (table : PageTable) : Prop :=
  ∀ index, (table.entries index).present = true → (table.entries index).user = true →
    table.user = true

/-- The tables under one PDPT. -/
structure AddressSpace where
  pdpt : Nat → Option PageDirectory
  widened : ∀ {slot directory index table}, pdpt slot = some directory →
    directory index = some table → table.Widened

/-! ### The walk -/

/-- The page table the walk reaches for an address. -/
def AddressSpace.table (space : AddressSpace) (vaddr : Nat) : Option PageTable :=
  (space.pdpt (pdptIndex vaddr)).bind fun directory => directory (pdIndex vaddr)

/-- The entry the walk reaches, the cleared one where a table is missing. -/
def AddressSpace.entry (space : AddressSpace) (vaddr : Nat) : Pte :=
  match space.table vaddr with
  | none => Pte.zero
  | some table => table.entries (ptIndex vaddr)

/-- Two addresses lie in the same page. -/
def SamePage (first second : Nat) : Prop := first / pageSize = second / pageSize

instance (first second : Nat) : Decidable (SamePage first second) :=
  inferInstanceAs (Decidable (_ = _))

theorem samePage_iff {first second : Nat} :
    SamePage first second ↔ pdptIndex first = pdptIndex second ∧
      pdIndex first = pdIndex second ∧ ptIndex first = ptIndex second := by
  unfold SamePage pdptIndex pdIndex ptIndex pageSize
  omega

theorem SamePage.symm {first second : Nat} (same : SamePage first second) :
    SamePage second first :=
  Eq.symm same

/-- The walk finds one entry for a whole page. -/
theorem entry_samePage (space : AddressSpace) {first second : Nat}
    (same : SamePage first second) : space.entry first = space.entry second := by
  obtain ⟨slot, index, page⟩ := samePage_iff.mp same
  unfold AddressSpace.entry AddressSpace.table
  rw [slot, index, page]

theorem table_widened {space : AddressSpace} {vaddr : Nat} {table : PageTable}
    (found : space.table vaddr = some table) : table.Widened := by
  obtain ⟨directory, reached, listed⟩ := Option.bind_eq_some_iff.mp found
  exact space.widened reached listed

/-- An entry that reaches user mode lies under a directory entry that does. -/
theorem entry_user {space : AddressSpace} {vaddr : Nat}
    (present : (space.entry vaddr).present = true) (user : (space.entry vaddr).user = true) :
    ∃ table, space.table vaddr = some table ∧ table.user = true ∧
      table.entries (ptIndex vaddr) = space.entry vaddr := by
  unfold AddressSpace.entry at present user ⊢
  cases found : space.table vaddr with
  | none => rw [found] at present; exact absurd present Bool.false_ne_true
  | some table =>
    rw [found] at present user
    exact ⟨table, rfl, table_widened found _ present user, rfl⟩

/-! ### Changing one table -/

/-- Put a table where the walk of an address finds it. -/
def AddressSpace.setTable (space : AddressSpace) (vaddr : Nat) (table : PageTable)
    (widened : table.Widened) : AddressSpace where
  pdpt := update space.pdpt (pdptIndex vaddr)
    (some (update ((space.pdpt (pdptIndex vaddr)).getD fun _ => none)
      (pdIndex vaddr) (some table)))
  widened := by
    intro slot directory index other reached listed
    by_cases sameSlot : slot = pdptIndex vaddr
    · rw [sameSlot, update_self, Option.some.injEq] at reached
      rw [← reached] at listed
      by_cases sameIndex : index = pdIndex vaddr
      · rw [sameIndex, update_self, Option.some.injEq] at listed
        exact listed ▸ widened
      · rw [update_of_ne sameIndex] at listed
        cases before : space.pdpt (pdptIndex vaddr) with
        | none => rw [before] at listed; exact absurd listed (by simp)
        | some old => rw [before] at listed; exact space.widened before listed
    · rw [update_of_ne sameSlot] at reached
      exact space.widened reached listed

/-- Put an empty directory into the slot of an address. -/
def AddressSpace.setDirectory (space : AddressSpace) (vaddr : Nat) : AddressSpace where
  pdpt := update space.pdpt (pdptIndex vaddr) (some fun _ => none)
  widened := by
    intro slot directory index other reached listed
    by_cases sameSlot : slot = pdptIndex vaddr
    · rw [sameSlot, update_self, Option.some.injEq] at reached
      rw [← reached] at listed
      exact absurd listed (by simp)
    · rw [update_of_ne sameSlot] at reached
      exact space.widened reached listed

theorem table_setTable (space : AddressSpace) (vaddr : Nat) (table : PageTable)
    (widened : table.Widened) (other : Nat) :
    (space.setTable vaddr table widened).table other =
      if pdptIndex other = pdptIndex vaddr ∧ pdIndex other = pdIndex vaddr then some table
      else space.table other := by
  unfold AddressSpace.table AddressSpace.setTable
  dsimp only
  by_cases sameSlot : pdptIndex other = pdptIndex vaddr
  · rw [sameSlot, update_self, Option.bind_some]
    by_cases sameIndex : pdIndex other = pdIndex vaddr
    · rw [sameIndex, update_self, if_pos ⟨rfl, rfl⟩]
    · rw [update_of_ne sameIndex, if_neg fun same => sameIndex same.2]
      cases space.pdpt (pdptIndex vaddr) <;> rfl
  · rw [update_of_ne sameSlot, if_neg fun same => sameSlot same.1]

theorem table_setDirectory {space : AddressSpace} {vaddr : Nat}
    (absent : space.pdpt (pdptIndex vaddr) = none) (other : Nat) :
    (space.setDirectory vaddr).table other = space.table other := by
  unfold AddressSpace.table AddressSpace.setDirectory
  dsimp only
  by_cases sameSlot : pdptIndex other = pdptIndex vaddr
  · rw [sameSlot, update_self, absent]
    rfl
  · rw [update_of_ne sameSlot]

theorem entry_congr {first second : AddressSpace} {vaddr : Nat}
    (same : first.table vaddr = second.table vaddr) : first.entry vaddr = second.entry vaddr := by
  unfold AddressSpace.entry
  rw [same]

/-! ### Changing one entry -/

/-- The table with the entry of an address replaced. -/
def PageTable.put (table : PageTable) (vaddr : Nat) (pte : Pte) : PageTable :=
  { table with entries := update table.entries (ptIndex vaddr) pte }

theorem put_widened {table : PageTable} {vaddr : Nat} {pte : Pte} (wide : table.Widened)
    (covers : pte.user = true → table.user = true) : (table.put vaddr pte).Widened := by
  intro index present user
  unfold PageTable.put at present user ⊢
  dsimp only at present user ⊢
  by_cases same : index = ptIndex vaddr
  · rw [same, update_self] at user
    exact covers user
  · rw [update_of_ne same] at present user
    exact wide index present user

/-- Change the entry of an address where it is present, as the in-place updates of the kernel
do after walking to it. -/
def AddressSpace.modify (space : AddressSpace) (vaddr : Nat) (change : Pte → Pte)
    (narrow : ∀ pte, (change pte).user = true → pte.user = true) : AddressSpace :=
  match found : space.table vaddr with
  | none => space
  | some table =>
    if present : (table.entries (ptIndex vaddr)).present = true then
      space.setTable vaddr (table.put vaddr (change (table.entries (ptIndex vaddr))))
        (put_widened (table_widened found) fun user =>
          table_widened found _ present (narrow _ user))
    else space

theorem entry_modify (space : AddressSpace) (vaddr : Nat) (change : Pte → Pte)
    (narrow : ∀ pte, (change pte).user = true → pte.user = true) (other : Nat) :
    (space.modify vaddr change narrow).entry other =
      if SamePage other vaddr ∧ (space.entry vaddr).present = true then
        change (space.entry vaddr)
      else space.entry other := by
  unfold AddressSpace.modify
  split
  · rename_i missing
    have absent : (space.entry vaddr).present = false := by
      unfold AddressSpace.entry
      rw [missing]
      rfl
    rw [if_neg fun both => by simp [absent] at both]
  · rename_i table found
    have shown : space.entry vaddr = table.entries (ptIndex vaddr) := by
      unfold AddressSpace.entry
      rw [found]
    split
    · rename_i present
      by_cases same : SamePage other vaddr
      · have indices := samePage_iff.mp same
        rw [if_pos ⟨same, by rw [shown]; exact present⟩, shown]
        unfold AddressSpace.entry
        rw [table_setTable, if_pos ⟨indices.1, indices.2.1⟩, indices.2.2]
        exact update_self _ _ _
      · rw [if_neg fun both => same both.1]
        unfold AddressSpace.entry
        rw [table_setTable]
        by_cases sameTable : pdptIndex other = pdptIndex vaddr ∧ pdIndex other = pdIndex vaddr
        · have apart : ptIndex other ≠ ptIndex vaddr := fun index =>
            same (samePage_iff.mpr ⟨sameTable.1, sameTable.2, index⟩)
          have reached : space.table other = some table := by
            rw [← found]
            unfold AddressSpace.table
            rw [sameTable.1, sameTable.2]
          rw [if_pos sameTable, reached]
          exact update_of_ne apart _ _
        · rw [if_neg sameTable]
    · rename_i absent
      rw [if_neg fun both => absent (by rw [← shown]; exact both.2)]

/-- Clear the entry of an address where it is present. -/
def AddressSpace.clear (space : AddressSpace) (vaddr : Nat) : AddressSpace :=
  space.modify vaddr (fun _ => Pte.zero) fun _ user => absurd user Bool.false_ne_true

/-- Take PAGE_RW off the entry of an address where it is present. -/
def AddressSpace.protect (space : AddressSpace) (vaddr : Nat) : AddressSpace :=
  space.modify vaddr (fun pte => { pte with rw := false }) fun _ user => user

theorem entry_protect (space : AddressSpace) (vaddr other : Nat) :
    (space.protect vaddr).entry other =
      if SamePage other vaddr ∧ (space.entry vaddr).present = true then
        { space.entry vaddr with rw := false }
      else space.entry other :=
  entry_modify space vaddr _ _ other

theorem entry_clear (space : AddressSpace) (vaddr other : Nat) :
    (space.clear vaddr).entry other =
      if SamePage other vaddr ∧ (space.entry vaddr).present = true then Pte.zero
      else space.entry other :=
  entry_modify space vaddr _ _ other

/-! ### vmm_map_page -/

/-- Does `frame_alloc` find a frame for a missing page directory, and for a missing page
table? -/
structure TableFrames where
  directory : Bool
  table : Bool

/-- `space_pd` with `create`. -/
def spacePd (space : AddressSpace) (frames : TableFrames) (vaddr : Nat) :
    Option AddressSpace :=
  if (space.pdpt (pdptIndex vaddr)).isSome then some space
  else if frames.directory then some (space.setDirectory vaddr)
  else none

/-- The table `space_pt` returns with `create`: the one that is there, widened for a user
page, or an empty one. -/
def spacePt (space : AddressSpace) (frames : TableFrames) (vaddr : Nat) (user : Bool) :
    Option PageTable :=
  match space.table vaddr with
  | some table => some { table with user := table.user || user }
  | none => if frames.table then some ⟨user, fun _ => Pte.zero⟩ else none

theorem spacePt_widened {space : AddressSpace} {frames : TableFrames} {vaddr : Nat}
    {table : PageTable} {pte : Pte} (found : spacePt space frames vaddr pte.user = some table) :
    (table.put vaddr pte).Widened := by
  unfold spacePt at found
  split at found
  · rename_i old reached
    rw [← Option.some.inj found]
    refine put_widened (fun index present user => ?_) fun user => ?_
    · rw [table_widened reached index present user, Bool.true_or]
    · rw [user, Bool.or_true]
  · split_ifs at found
    rw [← Option.some.inj found]
    exact put_widened (fun index present => absurd present Bool.false_ne_true) fun user => user

/-- `vmm_map_page` in a private address space; the directory made for it stays when the table
cannot be made. -/
def vmmMapPage (space : AddressSpace) (frames : TableFrames) (vaddr : Nat) (pte : Pte) :
    AddressSpace × Bool :=
  match spacePd space frames vaddr with
  | none => (space, false)
  | some space =>
    match found : spacePt space frames vaddr pte.user with
    | none => (space, false)
    | some table => (space.setTable vaddr (table.put vaddr pte) (spacePt_widened found), true)

theorem spacePd_table {space made : AddressSpace} {frames : TableFrames} {vaddr : Nat}
    (result : spacePd space frames vaddr = some made) (other : Nat) :
    made.table other = space.table other := by
  unfold spacePd at result
  split_ifs at result with there
  · rw [← Option.some.inj result]
  · rw [← Option.some.inj result]
    exact table_setDirectory (Option.not_isSome_iff_eq_none.mp there) other

theorem spacePt_entry {space : AddressSpace} {frames : TableFrames} {vaddr : Nat} {user : Bool}
    {table : PageTable} (found : spacePt space frames vaddr user = some table) {other : Nat}
    (sameTable : space.table other = space.table vaddr) :
    table.entries (ptIndex other) = space.entry other := by
  unfold spacePt at found
  unfold AddressSpace.entry
  rw [sameTable]
  split at found
  · rename_i old reached
    rw [reached, ← Option.some.inj found]
  · rename_i missing
    split_ifs at found
    rw [missing, ← Option.some.inj found]

/-- A page that could not be mapped leaves every entry as it was. -/
theorem entry_vmmMapPage_failed {space : AddressSpace} {frames : TableFrames} {vaddr : Nat}
    {pte : Pte} (failed : (vmmMapPage space frames vaddr pte).2 = false) (other : Nat) :
    (vmmMapPage space frames vaddr pte).1.entry other = space.entry other := by
  unfold vmmMapPage at failed ⊢
  split
  · rfl
  · rename_i made result
    rw [result] at failed
    dsimp only at failed
    split at failed
    · exact entry_congr (spacePd_table result other)
    · exact absurd failed (by simp)

/-- A mapped page has the new entry, every other page keeps its own. -/
theorem entry_vmmMapPage {space : AddressSpace} {frames : TableFrames} {vaddr : Nat} {pte : Pte}
    (mapped : (vmmMapPage space frames vaddr pte).2 = true) (other : Nat) :
    (vmmMapPage space frames vaddr pte).1.entry other =
      if SamePage other vaddr then pte else space.entry other := by
  unfold vmmMapPage at mapped ⊢
  split
  · rename_i missing
    rw [missing] at mapped
    exact absurd mapped (by simp)
  · rename_i made result
    have tables := spacePd_table result
    split
    · rename_i missing
      rw [result] at mapped
      dsimp only at mapped
      split at mapped
      · exact absurd mapped (by simp)
      · rename_i found
        exact absurd (missing.symm.trans found) (by simp)
    · rename_i table found
      unfold AddressSpace.entry
      rw [table_setTable]
      by_cases sameTable : pdptIndex other = pdptIndex vaddr ∧ pdIndex other = pdIndex vaddr
      · rw [if_pos sameTable]
        unfold PageTable.put
        dsimp only
        by_cases sameIndex : ptIndex other = ptIndex vaddr
        · rw [sameIndex, update_self,
            if_pos (samePage_iff.mpr ⟨sameTable.1, sameTable.2, sameIndex⟩)]
        · rw [update_of_ne sameIndex,
            if_neg fun same => sameIndex (samePage_iff.mp same).2.2]
          have shared : made.table other = made.table vaddr := by
            unfold AddressSpace.table
            rw [sameTable.1, sameTable.2]
          rw [spacePt_entry found shared]
          unfold AddressSpace.entry
          rw [tables]
      · rw [if_neg sameTable, tables, if_neg fun same =>
          sameTable ⟨(samePage_iff.mp same).1, (samePage_iff.mp same).2.1⟩]

end MectovOS.Vmm
