/-
This file is a small library of transition systems. A system has initial states
and labelled steps; a guard restricts which labelled steps a run may take, so
that "every run whose steps all meet a condition" is reachability under a guard.
The induction over runs is packaged once as the invariant rule: what holds
initially and survives every guarded step holds in every reachable state.
-/

import Mathlib

namespace Transition

/-- A labelled transition system. -/
structure System (State Label : Type) where
  /-- The states a run may start in. -/
  init : State → Prop
  /-- One labelled step. -/
  step : State → Label → State → Prop

variable {State Label : Type}

/-- The states reachable by steps that all satisfy the guard in the state they leave. -/
inductive System.Reachable (system : System State Label) (guard : State → Label → Prop) :
    State → Prop
  | init {state : State} : system.init state → System.Reachable system guard state
  | step {state next : State} {label : Label} : System.Reachable system guard state →
      guard state label → system.step state label next → System.Reachable system guard next

/-- The guard that allows every step. -/
def anyStep : State → Label → Prop := fun _ _ => True

/-- The invariant rule. -/
theorem System.Reachable.invariant {system : System State Label}
    {guard : State → Label → Prop} (holds : State → Prop)
    (initially : ∀ state, system.init state → holds state)
    (preserved : ∀ state label next, holds state → guard state label →
      system.step state label next → holds next)
    {state : State} (reachable : system.Reachable guard state) : holds state := by
  induction reachable with
  | init start => exact initially _ start
  | step _ allowed taken inductionHypothesis =>
    exact preserved _ _ _ inductionHypothesis allowed taken

/-! ### Executable systems -/

/-- Take a list of labels in order; `none` when one of them is not enabled. -/
def execute (step : State → Label → Option State) : State → List Label → Option State
  | state, [] => some state
  | state, label :: rest => (step state label).bind fun next => execute step next rest

/-- The system of an executable step. -/
def System.ofStep (init : State → Prop) (step : State → Label → Option State) :
    System State Label where
  init := init
  step state label next := step state label = some next

/-- What an execution reaches is reachable, when nothing is guarded. -/
theorem reachable_execute {init : State → Prop} {step : State → Label → Option State}
    {state final : State} {labels : List Label}
    (reachable : (System.ofStep init step).Reachable anyStep state)
    (run : execute step state labels = some final) :
    (System.ofStep init step).Reachable anyStep final := by
  induction labels generalizing state with
  | nil =>
    obtain rfl := Option.some.inj run
    exact reachable
  | cons label rest inductionHypothesis =>
    obtain ⟨next, taken, later⟩ := Option.bind_eq_some_iff.mp run
    exact inductionHypothesis (reachable.step trivial taken) later

/-- Take a list of labels in order, as long as the guard allows each of them. -/
def executeGuarded (guard : State → Label → Bool) (step : State → Label → Option State) :
    State → List Label → Option State :=
  execute fun state label => if guard state label then step state label else none

/-- What a guarded execution reaches is reachable under the guard. -/
theorem reachable_executeGuarded {init : State → Prop} {step : State → Label → Option State}
    {guard : State → Label → Bool} {state final : State} {labels : List Label}
    (reachable : (System.ofStep init step).Reachable (fun state label => guard state label) state)
    (run : executeGuarded guard step state labels = some final) :
    (System.ofStep init step).Reachable (fun state label => guard state label) final := by
  induction labels generalizing state with
  | nil =>
    obtain rfl := Option.some.inj run
    exact reachable
  | cons label rest inductionHypothesis =>
    obtain ⟨next, taken, later⟩ := Option.bind_eq_some_iff.mp run
    obtain ⟨allowed, taken⟩ := Option.ite_none_right_eq_some.mp taken
    exact inductionHypothesis (reachable.step allowed taken) later

end Transition
