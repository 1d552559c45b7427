/-
This file states what the window table promises in every state, and proves it for
every run in which no focus goes to a minimized window, no close request
overwrites another one, a window is given to a living task only, and the ids do
not run out.
-/

import MectovOS.Gui.DrawKept

namespace MectovOS.Wm

variable {screen : Screen} {state : WmState}

/-! ### The promise -/

/-- The window table as it should always be. -/
structure WindowTable (state : WmState) : Prop where
  /-- The z-order lists exactly the visible windows, each once. -/
  zorder : state.zorder.Nodup ∧ ∀ slot, slot ∈ state.zorder ↔ (state.wins slot).visible = true
  /-- The focus is -1 or the id of a window on the screen. -/
  focus : state.focused = -1 ∨
    ∃ slot, state.shown slot = true ∧ (state.wins slot).id = state.focused
  /-- It is not -1 while there is one. -/
  focusLast : state.focused = -1 → ∀ slot, state.shown slot = false
  /-- At most one window captures the mouse. -/
  capture : ∀ first second, (state.wins first).captureMouse = true →
    (state.wins second).captureMouse = true → first = second
  /-- A close that was asked for is carried out, or is the one the drain carries out. -/
  closes : ∀ id ∈ state.requested, state.isOpen id = true → state.deferredCloseId = id
  closed : ∀ id, (wmClose state id).isOpen id = false
  drained : ∀ id ∈ state.requested, (wmDrainDeferredClose state).isOpen id = false
  /-- Every buffer ever allocated belongs to one window, is parked, or was freed, once. -/
  ledger : (Holders.held slots (fun slot => (state.wins slot).contentBuffer) ++
    (state.freeList ++ state.freed)).Perm (List.range state.allocated)
  owned : ∀ slot, (state.wins slot).visible = false → (state.wins slot).contentBuffer = none
  /-- A buffer holds the size its window keeps. -/
  holds : ∀ slot buffer, (state.wins slot).contentBuffer = some buffer →
    (state.wins slot).lastCw * (state.wins slot).lastCh * 4 ≤ state.bytes buffer
  /-- A draw touches live buffers only, and inside them, whatever `kmalloc` answers. -/
  drawAll : ∀ damaged memory, ∀ access ∈ (wmDrawAll state damaged memory).2, access.Safe
  drawWindow : ∀ id memory, ∀ access ∈ (wmDrawWindow state id memory).2, access.Safe

theorem Sound.windowTable (sound : Sound state) : WindowTable state where
  zorder := ⟨sound.standing.stacked.nodup, sound.standing.stacked.mem⟩
  focus := sound.focused.onScreen
  focusLast := sound.focused.last
  capture := sound.standing.steady.captured
  closes id member opened := sound.standing.asked id member (isOpen_iff.mp opened)
  closed id := by
    have closed := closedId_wmClose sound.standing.steady sound.standing.stacked id
    exact Bool.eq_false_iff.mpr fun opened => closed.gone (isOpen_iff.mp opened)
  drained id member := Bool.eq_false_iff.mpr fun opened =>
    sound.drained id member (isOpen_iff.mp opened)
  ledger := sound.standing.steady.ledger.whole
  owned := sound.standing.steady.ledger.visible
  holds slot buffer present := by
    obtain ⟨-, -, room, bytes⟩ := sound.standing.steady.sized slot buffer present
    rw [← bytes]
    exact Int.mul_le_mul_of_nonneg_right room (by decide)
  drawAll damaged memory := (drawn_wmDrawAll sound damaged memory).safe
  drawWindow id memory := (drawn_wmDrawWindow sound id memory).safe

/-! ### Runs -/

/-- Does a raise meet a window on the screen, if any? -/
def raiseShows (state : WmState) (id : Int) : Bool :=
  match findWin state id with
  | none => true
  | some slot => !(state.wins slot).minimized

/-- The steps that the promise survives. -/
def careful (state : WmState) : WmStep → Bool
  | .openWin .. => decide (state.nextId < intMax)
  | .own _ tid => decide (tid ≤ 0) || state.alive tid
  | .close id => closeKeepsFocus state id
  | .requestClose id => requestKeepsPending state id
  | .drain => closeKeepsFocus state state.deferredCloseId
  | .cleanup tid => cleanupKeepsFocus state tid
  | .exit tid => exitKeepsFocus state tid
  | .raise id => raiseShows state id
  | .mouse mx my btn pbtn => mouseKeepsPending state mx my btn pbtn
  | _ => true

theorem Sound.raise (sound : Sound state) {id : Int} (shows : raiseShows state id = true) :
    Sound (wmRaise state id) := by
  unfold raiseShows at shows
  cases found : findWin state id with
  | none =>
    unfold wmRaise
    rw [found]
    exact sound
  | some slot =>
    rw [found] at shows
    exact sound.standing.raise found ((Bool.not_eq_true' _).mp shows)

/-- A step that meets its condition keeps the invariants. -/
theorem Sound.next (sound : Sound state) {label : WmStep} (allowed : careful state label = true) :
    Sound (wmNext screen state label) := by
  cases label with
  | openWin x y w h mouseFn =>
    show Sound ((wmOpen screen state x y w h mouseFn).getD state)
    cases opened : wmOpen screen state x y w h mouseFn with
    | none => exact sound
    | some after => exact sound.openWin (of_decide_eq_true allowed) opened
  | own slot tid =>
    refine sound.own slot fun positive => ?_
    rcases Bool.or_eq_true_iff.mp allowed with low | living
    · exact absurd (of_decide_eq_true low) (not_le.mpr positive)
    · exact living
  | close id => exact sound.close allowed
  | requestClose id => exact sound.request allowed
  | drain => exact sound.drain allowed
  | cleanup tid => exact sound.cleanup allowed
  | spawn tid => exact sound.spawn tid
  | exit tid => exact sound.exit allowed
  | raise id => exact sound.raise allowed
  | minimize id => exact sound.minimize id
  | restore id => exact sound.restore id
  | focusNext => exact sound.focusNext
  | altTabStart =>
    show Sound (wmAltTabStart state)
    unfold wmAltTabStart
    split_ifs with few
    · exact sound
    · exact sound.altTab _ _
  | altTabNext =>
    show Sound (wmAltTabNext state)
    unfold wmAltTabNext
    split_ifs with idle
    · exact sound
    · exact sound.altTab _ _
  | altTabEnd => exact sound.altTabEnd
  | capture id on => exact sound.capture id on
  | invalidate id => exact sound.invalidate id
  | mouse mx my btn pbtn => exact sound.mouse allowed
  | drawAll damaged memory => exact (drawn_wmDrawAll sound damaged memory).sound
  | drawWindow id memory => exact (drawn_wmDrawWindow sound id memory).sound
  | resetSession => exact sound.resetSession

/-- The empty table. -/
theorem sound_init : Sound {} := by
  have hidden : ∀ slot, (({} : WmState).panes slot).visible = false := fun _ => rfl
  have unseen : ∀ slot, (({} : WmState).panes slot).visible ≠ true := fun slot shows =>
    Bool.false_ne_true ((hidden slot).symm.trans shows)
  have none : Holders.held slots (fun slot => (({} : WmState).panes slot).contentBuffer) = [] :=
    List.filterMap_eq_nil_iff.mpr fun _ _ => rfl
  have named : Named ({} : WmState).panes 1 [] :=
    ⟨⟨le_rfl, by decide⟩, fun slot shows => absurd shows (unseen slot),
      fun slot _ shows => absurd shows (unseen slot), fun _ member => nomatch member⟩
  have ledger : Ledger ({} : WmState).panes [] [] 0 := by
    refine ⟨fun _ _ => rfl, ?_, ?_⟩
    · unfold buffersOf
      rw [none]
      exact List.Perm.refl _
    · unfold buffersOf
      rw [none]
      exact Nat.zero_le _
  have small : ({} : WmWin).Bounded := ⟨by decide, by decide, by decide, by decide⟩
  exact ⟨⟨⟨named, fun _ _ captures => absurd captures Bool.false_ne_true,
    fun slot shows _ => absurd shows (unseen slot), ledger, fun _ _ holds => (nomatch holds),
    fun _ => small⟩,
    ⟨List.nodup_nil, fun slot => iff_of_false List.not_mem_nil (unseen slot)⟩,
    fun _ member => nomatch member⟩, ⟨Or.inl rfl, fun _ _ => rfl⟩⟩

theorem sound_reachable
    (reachable : (wmSystem screen).Reachable (fun state label => careful state label) state) :
    Sound state := by
  refine reachable.invariant Sound ?_ ?_
  · rintro _ rfl
    exact sound_init
  · intro before label after sound allowed taken
    obtain rfl := Option.some.inj taken
    exact sound.next allowed

/-- In every run whose steps all meet their condition, the window table is as it should be in
every state. -/
theorem windowTable_reachable
    (reachable : (wmSystem screen).Reachable (fun state label => careful state label) state) :
    WindowTable state :=
  (sound_reachable reachable).windowTable

/-- Two windows are drawn, and the upper one is closed by the mouse. -/
def closedByMouse : List WmStep :=
  [.openWin 10 10 300 200 true, .openWin 400 100 300 200 true,
    .drawAll (fun _ => true) fun _ => true, .mouse 680 110 1 0, .drain,
    .drawAll (fun _ => true) fun _ => true]

def closedByMouseState : WmState :=
  (Transition.executeGuarded careful (fun state label => some (wmNext bootScreen state label)) {}
    closedByMouse).getD {}

theorem windowTable_closedByMouse : WindowTable closedByMouseState := by
  have completes : (Transition.executeGuarded careful
      (fun state label => some (wmNext bootScreen state label)) {} closedByMouse).isSome = true := by
    decide +kernel
  obtain ⟨final, run⟩ := Option.isSome_iff_exists.mp completes
  have start : (wmSystem bootScreen).Reachable (fun state label => careful state label) {} :=
    .init rfl
  unfold closedByMouseState
  rw [run]
  exact windowTable_reachable (Transition.reachable_executeGuarded start run)

/-! ### A minimized window gets the focus -/

theorem execute_foldl (labels : List WmStep) (state : WmState) :
    Transition.execute (fun state label => some (wmNext screen state label)) state labels =
      some (labels.foldl (wmNext screen) state) := by
  induction labels generalizing state with
  | nil => rfl
  | cons label rest inductionHypothesis => exact inductionHypothesis _

/-- The lower of two windows is minimized, and the upper one closed. -/
def minimizedBelow : List WmStep :=
  [.openWin 10 10 300 200 true, .openWin 400 100 300 200 true, .minimize 1, .close 2]

/-- The close of the last window on the screen leaves the focus with a minimized one. -/
theorem minimized_window_focused :
    ¬∀ (screen : Screen) (state : WmState),
      (wmSystem screen).Reachable Transition.anyStep state → WindowTable state := by
  intro claimed
  have table := claimed bootScreen (minimizedBelow.foldl (wmNext bootScreen) {})
    (Transition.reachable_execute (.init rfl) (execute_foldl minimizedBelow {}))
  have hidden : ∀ slot, (minimizedBelow.foldl (wmNext bootScreen) {}).shown slot = false := by
    decide +kernel
  rcases table.focus with nobody | ⟨slot, shown, -⟩
  · exact absurd nobody (by decide +kernel)
  · exact Bool.false_ne_true ((hidden slot).symm.trans shown)

end MectovOS.Wm
