/-
This file is a small library of tables whose entries name shared items. How many
entries name an item is what a reference count counts: setting an entry counts
one more namer of the new item, clearing it one less of the old one, and every
other item keeps its namers.
-/

import Mathlib

namespace Naming

open Function

variable {Entry Item : Type} [DecidableEq Item]

/-- The entries of the domain that name an item. -/
def namers (domain : Finset Entry) (table : Entry → Option Item) (item : Item) : Finset Entry :=
  domain.filter fun entry => table entry = some item

theorem mem_namers {domain : Finset Entry} {table : Entry → Option Item} {item : Item}
    {entry : Entry} :
    entry ∈ namers domain table item ↔ entry ∈ domain ∧ table entry = some item :=
  Finset.mem_filter

/-- An item nothing names has no namers. -/
theorem card_namers_eq_zero {domain : Finset Entry} {table : Entry → Option Item} {item : Item}
    (nameless : ∀ entry ∈ domain, table entry ≠ some item) :
    (namers domain table item).card = 0 := by
  rw [Finset.card_eq_zero]
  exact Finset.filter_eq_empty_iff.mpr nameless

/-- An item with a namer is named. -/
theorem exists_of_card_pos {domain : Finset Entry} {table : Entry → Option Item} {item : Item}
    (positive : 0 < (namers domain table item).card) : ∃ entry ∈ domain, table entry = some item := by
  obtain ⟨entry, member⟩ := Finset.card_pos.mp positive
  exact ⟨entry, mem_namers.mp member⟩

variable [DecidableEq Entry]

/-- An entry that names the item neither before nor after a change keeps its namers. -/
theorem namers_update_of_ne (domain : Finset Entry) {table : Entry → Option Item} {entry : Entry}
    {value : Option Item} {item : Item} (before : table entry ≠ some item)
    (after : value ≠ some item) :
    namers domain (update table entry value) item = namers domain table item := by
  ext other
  rw [mem_namers, mem_namers]
  rcases eq_or_ne other entry with rfl | different
  · rw [update_self]
    exact ⟨fun both => absurd both.2 after, fun both => absurd both.2 before⟩
  · rw [update_of_ne different]

/-- Setting an entry adds it to the namers. -/
theorem namers_update_self {domain : Finset Entry} (table : Entry → Option Item) {entry : Entry}
    (member : entry ∈ domain) (item : Item) :
    namers domain (update table entry (some item)) item =
      insert entry (namers domain table item) := by
  ext other
  rw [Finset.mem_insert, mem_namers, mem_namers]
  rcases eq_or_ne other entry with rfl | different
  · rw [update_self]
    exact ⟨fun _ => Or.inl rfl, fun _ => ⟨member, rfl⟩⟩
  · rw [update_of_ne different]
    exact ⟨Or.inr, fun either => either.resolve_left different⟩

/-- A set entry is one namer more. -/
theorem card_namers_set {domain : Finset Entry} {table : Entry → Option Item} {entry : Entry}
    {item : Item} (member : entry ∈ domain) (free : table entry ≠ some item) :
    (namers domain (update table entry (some item)) item).card =
      (namers domain table item).card + 1 := by
  rw [namers_update_self table member]
  exact Finset.card_insert_of_notMem fun inside => free (mem_namers.mp inside).2

/-- A cleared entry is one namer less. -/
theorem card_namers_clear {domain : Finset Entry} {table : Entry → Option Item} {entry : Entry}
    {item : Item} (member : entry ∈ domain) (naming : table entry = some item) :
    (namers domain (update table entry none) item).card + 1 =
      (namers domain table item).card := by
  have free : update table entry none entry ≠ some item := by
    rw [update_self]
    simp
  rw [← card_namers_set member free, update_idem, ← naming, update_eq_self]

end Naming
