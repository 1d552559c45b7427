/-
This file proves that the mouse keeps the invariants of the window table: drags,
resizes and snapping only restyle windows, and within the largest size; a press
raises what is under the pointer, and may ask for a close.
-/

import MectovOS.Gui.ClosesKept
import MectovOS.Gui.Desktop

namespace MectovOS.Wm

variable {screen : Screen} {state : WmState}

/-! ### Restyling -/

/-- A window is only restyled, and neither minimized nor restored. -/
structure Restyled (old new : WmWin) : Prop extends Alike old new where
  minimized : new.minimized = old.minimized

theorem Restyled.trans {first second third : WmWin} (early : Restyled first second)
    (late : Restyled second third) : Restyled first third :=
  ⟨⟨⟨late.visible.trans early.visible, late.id.trans early.id,
    late.contentBuffer.trans early.contentBuffer, late.contentCap.trans early.contentCap,
    late.lastCw.trans early.lastCw, late.lastCh.trans early.lastCh,
    fun bounded => late.bounded (early.bounded bounded)⟩,
    late.ownerTask.trans early.ownerTask,
    fun captures => early.captureMouse (late.captureMouse captures)⟩,
    late.minimized.trans early.minimized⟩

theorem Restyled.refl (win : WmWin) : Restyled win win := ⟨Alike.refl win, rfl⟩

/-- Everything but the geometry and the drags is the same. -/
theorem Restyled.of_pane {old new : WmWin} (pane : new.pane = old.pane)
    (bounded : old.Bounded → new.Bounded) : Restyled old new :=
  ⟨⟨⟨congrArg Pane.visible pane, congrArg Pane.id pane, congrArg Pane.contentBuffer pane,
    congrArg Pane.contentCap pane, congrArg Pane.lastCw pane, congrArg Pane.lastCh pane, bounded⟩,
    congrArg Pane.ownerTask pane, fun captures =>
      (congrArg Pane.captureMouse pane).symm.trans captures⟩,
    congrArg Pane.minimized pane⟩

theorem Sound.restyled (sound : Sound state) {slot : Slot} {win : WmWin}
    (restyled : Restyled (state.wins slot) win) : Sound (state.setWin slot win) :=
  sound.restyleOne restyled.toAlike restyled.minimized

/-- A resize stays within the screen, or at the smallest size. -/
theorem resizeAxis_le (low high : Bool) (start size delta smallest : Int) (limit : Nat)
    (least : smallest ≤ 8192) (screenFits : limit ≤ 8192) :
    (resizeAxis low high start size delta smallest limit).2 ≤ 8192 := by
  have clamp : ∀ pos length : Int, 0 ≤ pos →
      (if limit < pos + length then limit - pos else length) ≤ 8192 := by
    intro pos length inside
    split_ifs with wide
    · omega
    · omega
  have floor : ∀ length : Int, length ≤ 8192 →
      (if length < smallest then smallest else length) ≤ 8192 := by
    intro length fits
    split_ifs with small
    · exact least
    · exact fits
  have inside : ∀ pos : Int, 0 ≤ if pos < 0 then 0 else pos := by
    intro pos
    split_ifs with outside
    · exact le_rfl
    · exact not_lt.mp outside
  exact floor _ (clamp _ _ (inside _))

theorem restyled_resizeWin (win : WmWin) (mx my : Int) :
    Restyled win (resizeWin screen win mx my) :=
  .of_pane rfl fun bounded =>
    ⟨resizeAxis_le _ _ _ _ _ _ _ (by decide) screen.width_le,
      resizeAxis_le _ _ _ _ _ _ _ (by decide) screen.height_le, bounded.savedW, bounded.savedH⟩

theorem restyled_checkSnap (win : WmWin) : Restyled win (checkSnap screen win) := by
  have width : (screen.width : Int) ≤ 8192 := Int.ofNat_le.mpr screen.width_le
  have half : ((screen.width / 2 : Nat) : Int) ≤ 8192 :=
    Int.ofNat_le.mpr ((Nat.div_le_self _ _).trans screen.width_le)
  have height : (screen.height : Int) - taskbarHPx ≤ 8192 :=
    (Int.sub_le_self _ (by decide)).trans (Int.ofNat_le.mpr screen.height_le)
  unfold checkSnap
  dsimp only
  split_ifs with full top left right snapped
  · exact .refl win
  · exact .of_pane rfl fun bounded => ⟨width, height, bounded.w, bounded.h⟩
  · exact .of_pane rfl fun bounded => ⟨half, height, bounded.w, bounded.h⟩
  · exact .of_pane rfl fun bounded => ⟨half, height, bounded.w, bounded.h⟩
  · exact .of_pane rfl fun bounded => ⟨bounded.w, bounded.h, bounded.w, bounded.h⟩
  · exact .of_pane rfl fun bounded => ⟨bounded.w, bounded.h, bounded.w, bounded.h⟩

theorem restyled_dragWin (win : WmWin) (mx my : Int) : Restyled win (dragWin screen win mx my) := by
  have moved : Restyled win { win with
      x := win.dragWx + (mx - win.dragMx), y := win.dragWy + (my - win.dragMy) } :=
    .of_pane rfl fun bounded => ⟨bounded.w, bounded.h, bounded.savedW, bounded.savedH⟩
  have snapped := moved.trans (@restyled_checkSnap screen _)
  unfold dragWin
  dsimp only
  split_ifs
  all_goals first
    | exact snapped
    | exact snapped.trans (.of_pane rfl fun bounded =>
        ⟨bounded.w, bounded.h, bounded.savedW, bounded.savedH⟩)

theorem restyled_releaseWin (win : WmWin) : Restyled win (releaseWin win) := by
  unfold releaseWin
  split_ifs with visible
  · exact .of_pane rfl fun bounded => ⟨bounded.w, bounded.h, bounded.savedW, bounded.savedH⟩
  · exact .refl win

theorem restyled_toggleMaximize (win : WmWin) : Restyled win (toggleMaximize screen win) := by
  have width : (screen.width : Int) ≤ 8192 := Int.ofNat_le.mpr screen.width_le
  have height : (screen.height : Int) - taskbarHPx ≤ 8192 :=
    (Int.sub_le_self _ (by decide)).trans (Int.ofNat_le.mpr screen.height_le)
  unfold toggleMaximize
  split_ifs with large
  · exact .of_pane rfl fun bounded =>
      ⟨bounded.savedW, bounded.savedH, bounded.savedW, bounded.savedH⟩
  · exact .of_pane rfl fun bounded => ⟨width, height, bounded.w, bounded.h⟩

/-! ### Presses -/

/-- A press on a close button finds no other close waiting. -/
def pressKeepsPending (state : WmState) (mx my : Int) : Bool :=
  match hitWin state mx my with
  | none => true
  | some slot =>
    zoneAt (state.wins slot) mx my != .closeButton ||
      requestKeepsPending state (state.wins slot).id

theorem wins_wmRaise (id : Int) : (wmRaise state id).wins = state.wins := by
  unfold wmRaise
  split
  · rfl
  · rfl

theorem deferred_wmRaise (id : Int) : (wmRaise state id).deferredCloseId = state.deferredCloseId := by
  unfold wmRaise
  split
  · rfl
  · rfl

theorem restyled_endContentDrags (state : WmState) (slot : Slot) :
    Restyled (state.wins slot) ((endContentDrags state).wins slot) :=
  .of_pane rfl fun bounded => ⟨bounded.w, bounded.h, bounded.savedW, bounded.savedH⟩

/-- What decides about a request is read off the names and the one that waits. -/
theorem requestKeepsPending_alike {after : WmState}
    (alike : ∀ slot, Alike (state.wins slot) (after.wins slot))
    (same : after.deferredCloseId = state.deferredCloseId) (id : Int) :
    requestKeepsPending after id = requestKeepsPending state id := by
  unfold requestKeepsPending WmState.isOpen
  rw [findWin_alike alike, same]

theorem Sound.press (sound : Sound state) {mx my : Int}
    (keeps : pressKeepsPending state mx my = true) : Sound (wmPress screen state mx my) := by
  unfold pressKeepsPending at keeps
  unfold wmPress
  cases hit : hitWin state mx my with
  | none => exact sound
  | some slot =>
    rw [hit] at keeps
    dsimp only at keeps ⊢
    have under := List.find?_some hit
    obtain ⟨shows, restored⟩ := Bool.and_eq_true_iff.mp (Bool.and_eq_true_iff.mp under).1
    have found := findWin_own sound.standing.steady.named shows
    have raised := sound.standing.raise found ((Bool.not_eq_true' _).mp restored)
    have ended : Sound (endContentDrags (wmRaise state (state.wins slot).id)) :=
      raised.restyle (fun other => (restyled_endContentDrags _ other).toAlike)
        fun other => (restyled_endContentDrags _ other).minimized
    have alike : ∀ other, Alike (state.wins other)
        ((endContentDrags (wmRaise state (state.wins slot).id)).wins other) := by
      intro other
      have restyled := restyled_endContentDrags (wmRaise state (state.wins slot).id) other
      rw [wins_wmRaise] at restyled
      exact restyled.toAlike
    cases zone : zoneAt (state.wins slot) mx my with
    | closeButton =>
      rw [zone] at keeps
      have named : ((endContentDrags (wmRaise state (state.wins slot).id)).wins slot).id =
          (state.wins slot).id := (alike slot).id
      have pending := requestKeepsPending_alike alike (deferred_wmRaise (state.wins slot).id)
        (state.wins slot).id
      unfold pressZone
      dsimp only
      rw [named]
      exact ended.request (pending.trans keeps)
    | maxButton => exact ended.restyled (restyled_toggleMaximize _)
    | minButton => exact ended.minimize _
    | titlebar =>
      exact ended.restyled (.of_pane rfl fun bounded =>
        ⟨bounded.w, bounded.h, bounded.savedW, bounded.savedH⟩)
    | edge edges =>
      exact ended.restyled (.of_pane rfl fun bounded =>
        ⟨bounded.w, bounded.h, bounded.savedW, bounded.savedH⟩)
    | content =>
      exact ended.restyled (.of_pane rfl fun bounded =>
        ⟨bounded.w, bounded.h, bounded.savedW, bounded.savedH⟩)

/-- A press on a close button finds no other close waiting, whatever the buttons say. -/
def mouseKeepsPending (state : WmState) (mx my : Int) (btn pbtn : Nat) : Bool :=
  if btn.testBit 0 = true ∧ (grabbed state).isSome = true then true
  else if btn ≠ 0 ∧ pbtn = 0 then pressKeepsPending state mx my
  else true

theorem Sound.mouse (sound : Sound state) {mx my : Int} {btn pbtn : Nat}
    (keeps : mouseKeepsPending state mx my btn pbtn = true) :
    Sound (wmHandleMouse screen state mx my btn pbtn) := by
  unfold mouseKeepsPending at keeps
  unfold wmHandleMouse
  have loose : (if btn ≠ 0 ∧ pbtn = 0 then pressKeepsPending state mx my else true) = true →
      Sound (
        let after := if btn = 0 ∧ pbtn ≠ 0 then
          { state with wins := fun slot => releaseWin (state.wins slot) } else state
        if btn ≠ 0 ∧ pbtn = 0 then wmPress screen after mx my else after) := by
    intro keeps
    dsimp only
    by_cases click : btn ≠ 0 ∧ pbtn = 0
    · rw [if_pos click] at keeps ⊢
      rw [if_neg fun release => click.1 release.1]
      exact sound.press keeps
    · rw [if_neg click]
      split_ifs with release
      · exact sound.restyle (fun slot => (restyled_releaseWin _).toAlike)
          fun slot => (restyled_releaseWin _).minimized
      · exact sound
  by_cases left : btn.testBit 0 = true
  · rw [if_pos left]
    cases held : grabbed state with
    | none =>
      rw [held, if_neg fun both => Bool.false_ne_true both.2] at keeps
      exact loose keeps
    | some slot =>
      dsimp only
      split_ifs with resizing
      · exact sound.restyled (restyled_resizeWin _ mx my)
      · exact sound.restyled (restyled_dragWin _ mx my)
  · rw [if_neg left]
    rw [if_neg fun both => left both.1] at keeps
    exact loose keeps

end MectovOS.Wm
