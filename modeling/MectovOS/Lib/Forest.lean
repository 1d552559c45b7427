/-
This file is a small library of forests that are given by a link from each
element to the one above it. An element is grounded when its links lead to an
element without one. Grounded elements lie on no cycle, a climb with enough fuel
reaches everything above, and a finite set of them has a lowest element. A link
that is changed above an element that is not grounded takes no ground away.
-/

import Mathlib.Data.Finset.Card
import Mathlib.Data.Fintype.Card
import Mathlib.Logic.Relation
import Mathlib.Order.WellFounded

namespace Forest

open Function

variable {α : Type} {up : α → Option α}

/-- The link of an element leads to another one. -/
def Step (up : α → Option α) (lower upper : α) : Prop := up lower = some upper

/-- An element is reached from another one by going up, by no or by some links. -/
abbrev Reach (up : α → Option α) : α → α → Prop := Relation.ReflTransGen (Step up)
abbrev Under (up : α → Option α) : α → α → Prop := Relation.TransGen (Step up)

theorem step_rightUnique : Relator.RightUnique (Step up) :=
  fun _ _ _ first second => Option.some.inj (first.symm.trans second)

/-! ### Grounded elements -/

/-- The links lead to an element without a link. -/
def Grounded (up : α → Option α) (element : α) : Prop :=
  ∃ root, up root = none ∧ Reach up element root

theorem Grounded.of_top {element : α} (top : up element = none) : Grounded up element :=
  ⟨element, top, .refl⟩

theorem Grounded.of_step {lower upper : α} (link : Step up lower upper)
    (grounded : Grounded up upper) : Grounded up lower := by
  obtain ⟨root, top, way⟩ := grounded
  exact ⟨root, top, .head link way⟩

/-- Links that lower a rank ground everything. -/
theorem grounded_of_falling {rank : α → Nat}
    (falls : ∀ lower upper, Step up lower upper → rank upper < rank lower) (element : α) :
    Grounded up element := by
  induction height : rank element using Nat.strong_induction_on generalizing element with
  | _ height inductionHypothesis =>
    cases link : up element with
    | none => exact .of_top link
    | some next =>
      subst height
      exact .of_step link (inductionHypothesis _ (falls element next link) next rfl)

theorem Grounded.step {lower upper : α} (grounded : Grounded up lower)
    (link : Step up lower upper) : Grounded up upper := by
  obtain ⟨root, top, way⟩ := grounded
  rcases way.cases_head with rfl | ⟨next, first, rest⟩
  · rw [Step, top] at link
    exact absurd link (by simp)
  · obtain rfl := step_rightUnique link first
    exact ⟨root, top, rest⟩

/-- A grounded element is not below itself. -/
theorem Grounded.irrefl {element : α} (grounded : Grounded up element) :
    ¬ Under up element element := by
  obtain ⟨root, top, way⟩ := grounded
  induction way using Relation.ReflTransGen.head_induction_on with
  | refl =>
    intro cycle
    obtain ⟨next, link, _⟩ := Relation.TransGen.head'_iff.mp cycle
    rw [Step, top] at link
    exact absurd link (by simp)
  | head link _ inductionHypothesis =>
    intro cycle
    obtain ⟨next, first, rest⟩ := Relation.TransGen.head'_iff.mp cycle
    obtain rfl := step_rightUnique link first
    exact inductionHypothesis (Relation.TransGen.tail' rest link)

/-! ### Redirecting a link -/

/-- What is grounded does not notice a change above an element that is not. -/
theorem Grounded.redirect [DecidableEq α] {element changed : α} (target : Option α)
    (grounded : Grounded up element) (loose : ¬ Grounded up changed) :
    Grounded (update up changed target) element := by
  obtain ⟨root, top, way⟩ := grounded
  induction way using Relation.ReflTransGen.head_induction_on with
  | refl =>
    refine .of_top ?_
    rw [update_of_ne, top]
    rintro rfl
    exact loose (.of_top top)
  | @head lower upper link rest inductionHypothesis =>
    refine .of_step ?_ inductionHypothesis
    rw [Step, update_of_ne]
    · exact link
    · rintro rfl
      exact loose ⟨root, top, .head link rest⟩

/-- An element that is not grounded becomes so when its link leads to one that is. -/
theorem Grounded.redirected [DecidableEq α] {target changed : α}
    (grounded : Grounded up target) (loose : ¬ Grounded up changed) :
    Grounded (update up changed (some target)) changed := by
  have link : Step (update up changed (some target)) changed target := by
    rw [Step, update_self]
  exact .of_step link (grounded.redirect _ loose)

/-! ### Climbing -/

/-- The first element on the way up, the start included, that is a goal. -/
def climb (up : α → Option α) (goal : α → Bool) : Nat → Option α → Option α
  | 0, _ => none
  | _ + 1, none => none
  | fuel + 1, some element =>
    if goal element then some element else climb up goal fuel (up element)

/-- A climb with fuel for everything above finds a goal, if there is one. -/
theorem climb_isSome [DecidableEq α] {goal : α → Bool} {fuel : Nat} {start target : α}
    {above : Finset α} (grounded : Grounded up start)
    (inside : ∀ element, Reach up start element → element ∈ above) (enough : above.card ≤ fuel)
    (way : Reach up start target) (reached : goal target = true) :
    (climb up goal fuel (some start)).isSome = true := by
  induction way using Relation.ReflTransGen.head_induction_on generalizing fuel above with
  | refl =>
    cases fuel with
    | zero =>
      have empty := Finset.card_eq_zero.mp (Nat.le_zero.mp enough)
      exact absurd (inside target .refl) (by simp [empty])
    | succ fuel => rw [climb, if_pos reached, Option.isSome_some]
  | @head start next link rest inductionHypothesis =>
    cases fuel with
    | zero =>
      have empty := Finset.card_eq_zero.mp (Nat.le_zero.mp enough)
      exact absurd (inside start .refl) (by simp [empty])
    | succ fuel =>
      rw [climb]
      split
      · rfl
      · rw [show up start = some next from link]
        refine @inductionHypothesis _ (above.erase start) (grounded.step link)
          (fun element way => ?_) ?_
        · refine Finset.mem_erase.mpr ⟨?_, inside element (.head link way)⟩
          rintro rfl
          exact grounded.irrefl (Relation.TransGen.head' link way)
        · rw [Finset.card_erase_of_mem (inside start .refl)]
          omega

/-! ### Lowest elements -/

/-- A finite set of grounded elements that is not empty has one with no other below it. -/
theorem exists_lowest {set : Set α} (finite : set.Finite) (nonempty : set.Nonempty)
    (grounded : ∀ element ∈ set, Grounded up element) :
    ∃ lowest ∈ set, ∀ element ∈ set, ¬ Under up element lowest := by
  have : Finite set := finite
  let below : set → set → Prop := fun first second => Under up first.val second.val
  have : IsTrans set below := ⟨fun _ _ _ first second => first.trans second⟩
  have : Std.Irrefl below := ⟨fun element => (grounded element.val element.property).irrefl⟩
  have founded := Finite.wellFounded_of_trans_of_irrefl below
  obtain ⟨start, member⟩ := nonempty
  obtain ⟨lowest, _, least⟩ := founded.has_min Set.univ ⟨⟨start, member⟩, trivial⟩
  exact ⟨lowest.val, lowest.property, fun element inside => least ⟨element, inside⟩ trivial⟩

end Forest
