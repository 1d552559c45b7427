/-
This file is a small library about removing an entry of an array by moving the
last entry into its place. Up to the order of the entries that is `List.erase`,
so membership and the absence of duplicates follow from what is known of it.
-/

import Mathlib

namespace SwapRemove

variable {Item : Type} [DecidableEq Item]

/-- Remove the first occurrence of an item by moving the last entry into its place. -/
def swapRemove (items : List Item) (item : Item) : List Item :=
  if item ∈ items then items.dropLast.replace item (items.getLastD item) else items

theorem replace_perm {items : List Item} {item : Item} (member : item ∈ items) (last : Item) :
    (items.replace item last).Perm (last :: items.erase item) := by
  induction items with
  | nil => cases member
  | cons head rest inductionHypothesis =>
    by_cases found : head = item
    · subst found
      rw [List.replace_cons_self, List.erase_cons_head]
    · have later : item ∈ rest := (List.mem_cons.mp member).resolve_left (Ne.symm found)
      have unlike : (item == head) = false := by simpa using Ne.symm found
      rw [List.replace_cons, unlike, List.erase_cons_tail (by simpa using found)]
      exact ((inductionHypothesis later).cons head).trans (List.Perm.swap _ _ _)

/-- Moving the last entry into the hole is removal up to order. -/
theorem swapRemove_perm (items : List Item) (item : Item) :
    (swapRemove items item).Perm (items.erase item) := by
  unfold swapRemove
  split_ifs with member
  · obtain ⟨init, last, rfl⟩ := List.eq_nil_or_concat' items |>.resolve_left
      (List.ne_nil_of_mem member)
    rw [List.dropLast_concat, List.getLastD_concat]
    by_cases early : item ∈ init
    · rw [List.erase_append_left _ early]
      exact (replace_perm early last).trans (List.perm_append_singleton last _).symm
    · have final : item = last := by
        rcases List.mem_append.mp member with absurdly | late
        · exact absurd absurdly early
        · exact List.mem_singleton.mp late
      subst final
      rw [List.erase_append_right _ early, List.erase_cons_head, List.append_nil,
        List.replace_of_not_mem early]
  · rw [List.erase_of_not_mem member]

theorem mem_swapRemove {items : List Item} (nodup : items.Nodup) {item other : Item} :
    other ∈ swapRemove items item ↔ other ≠ item ∧ other ∈ items := by
  rw [(swapRemove_perm items item).mem_iff, nodup.mem_erase_iff]

theorem nodup_swapRemove {items : List Item} (nodup : items.Nodup) (item : Item) :
    (swapRemove items item).Nodup :=
  (swapRemove_perm items item).nodup_iff.mpr (nodup.erase item)

/-- A list of distinct numbers below a bound that lacks one of them is shorter than the
bound. -/
theorem length_lt_of_nodup {items : List Nat} {bound absent : Nat} (nodup : items.Nodup)
    (below : ∀ item ∈ items, item < bound) (small : absent < bound) (missing : absent ∉ items) :
    items.length < bound := by
  have subset : absent :: items ⊆ List.range bound := by
    intro item member
    rcases List.mem_cons.mp member with rfl | later
    · exact List.mem_range.mpr small
    · exact List.mem_range.mpr (below item later)
  have short := (List.subperm_of_subset (List.nodup_cons.mpr ⟨missing, nodup⟩) subset).length_le
  rwa [List.length_cons, List.length_range] at short

end SwapRemove
