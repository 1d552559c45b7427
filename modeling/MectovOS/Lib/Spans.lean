/-
This file is a small library of address spans. Spans that lie pairwise apart in a
window have a total length of at most the window's.
-/

import Mathlib

namespace Spans

/-- A start and a length. -/
structure Span where
  start : Nat
  length : Nat
  deriving DecidableEq

/-- The addresses of a span. -/
def Span.addresses (span : Span) : Finset Nat := Finset.Ico span.start (span.start + span.length)

/-- One of two spans ends before the other starts. -/
def Apart (first second : Span) : Prop :=
  first.start + first.length ≤ second.start ∨ second.start + second.length ≤ first.start

instance (first second : Span) : Decidable (Apart first second) :=
  inferInstanceAs (Decidable (_ ∨ _))

theorem Apart.symm {first second : Span} (apart : Apart first second) : Apart second first :=
  Or.symm apart

theorem Apart.disjoint {first second : Span} (apart : Apart first second) :
    Disjoint first.addresses second.addresses := by
  rw [Finset.disjoint_left]
  intro address inFirst inSecond
  have low := Finset.mem_Ico.mp inFirst
  have high := Finset.mem_Ico.mp inSecond
  rcases apart with before | after <;> omega

/-- The addresses of the spans of a list. -/
def covered (spans : List Span) : Finset Nat :=
  spans.foldr (fun span rest => span.addresses ∪ rest) ∅

theorem card_covered {spans : List Span} (apart : spans.Pairwise Apart) :
    (covered spans).card = (spans.map Span.length).sum := by
  induction spans with
  | nil => rfl
  | cons span rest inductionHypothesis =>
    obtain ⟨aloof, others⟩ := List.pairwise_cons.mp apart
    have clear : ∀ (list : List Span), (∀ other ∈ list, Apart span other) →
        Disjoint span.addresses (covered list) := by
      intro list far
      induction list with
      | nil => exact Finset.disjoint_empty_right _
      | cons other more inner =>
        exact Finset.disjoint_union_right.mpr ⟨(far other List.mem_cons_self).disjoint,
          inner fun third member => far third (List.mem_cons_of_mem _ member)⟩
    have joined : covered (span :: rest) = span.addresses ∪ covered rest := rfl
    rw [joined, Finset.card_union_of_disjoint (clear rest aloof), inductionHypothesis others,
      List.map_cons, List.sum_cons, Span.addresses, Nat.card_Ico, Nat.add_sub_cancel_left]

/-- Spans apart from each other inside a window are no longer than the window together. -/
theorem sum_length_le {spans : List Span} {low high : Nat} (apart : spans.Pairwise Apart)
    (inside : ∀ span ∈ spans, low ≤ span.start ∧ span.start + span.length ≤ high) :
    (spans.map Span.length).sum ≤ high - low := by
  rw [← card_covered apart, ← Nat.card_Ico]
  refine Finset.card_le_card ?_
  clear apart
  induction spans with
  | nil => exact Finset.empty_subset _
  | cons span rest inductionHypothesis =>
    refine Finset.union_subset (fun address member => ?_)
      (inductionHypothesis fun other listed => inside other (List.mem_cons_of_mem _ listed))
    have bounds := inside span List.mem_cons_self
    have within := Finset.mem_Ico.mp member
    exact Finset.mem_Ico.mpr ⟨by omega, by omega⟩

end Spans
