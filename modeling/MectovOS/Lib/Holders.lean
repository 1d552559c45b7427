/-
This file is a small library of cells that hold at most one item each: the list
of what they hold, and how it changes when one cell changes.
-/

import Mathlib

namespace Holders

open Function

variable {Cell Item : Type}

/-- The items held by the cells, in the order of the cells. -/
def held (cells : List Cell) (holds : Cell → Option Item) : List Item := cells.filterMap holds

theorem length_held_le (cells : List Cell) (holds : Cell → Option Item) :
    (held cells holds).length ≤ cells.length := List.length_filterMap_le holds cells

theorem mem_held {cells : List Cell} {holds : Cell → Option Item} {item : Item} :
    item ∈ held cells holds ↔ ∃ cell ∈ cells, holds cell = some item := List.mem_filterMap

variable [DecidableEq Cell]

/-- The items of one cell stand beside the items of the others. -/
theorem held_perm {cells : List Cell} {cell : Cell} (member : cell ∈ cells)
    (holds : Cell → Option Item) :
    (held cells holds).Perm ((holds cell).toList ++ held (cells.erase cell) holds) := by
  refine ((List.perm_cons_erase member).filterMap holds).trans ?_
  cases holding : holds cell with
  | none =>
    rw [List.filterMap_cons_none holding]
    exact List.Perm.refl _
  | some item =>
    rw [List.filterMap_cons_some holding]
    exact List.Perm.refl _

/-- What the other cells hold does not depend on the one cell. -/
theorem held_erase_congr {cells : List Cell} (nodup : cells.Nodup) {cell : Cell}
    {first second : Cell → Option Item} (agree : ∀ other, other ≠ cell → first other = second other) :
    held (cells.erase cell) first = held (cells.erase cell) second := by
  refine List.filterMap_congr fun other member => agree other ?_
  rintro rfl
  exact nodup.not_mem_erase member

/-- A cell takes another item. -/
theorem held_update_perm {cells : List Cell} (nodup : cells.Nodup) {cell : Cell}
    (member : cell ∈ cells) (holds : Cell → Option Item) (value : Option Item) :
    (held cells (update holds cell value)).Perm
      (value.toList ++ held (cells.erase cell) holds) := by
  have split := held_perm member (update holds cell value)
  rw [update_self, held_erase_congr nodup fun other apart =>
    update_of_ne apart value holds] at split
  exact split

end Holders
