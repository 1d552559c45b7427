/-
This file proves that the operations on the window table keep its invariants: the
z-order, the names, the capture, the owners and the ledger of the content buffers
in any case, and the focus when the window that gets it is on the screen.
-/

import MectovOS.Gui.Panes

namespace MectovOS.Wm

open Function

/-! ### The invariants of a state -/

/-- The sizes of a window fit the largest one that may be opened. -/
structure WmWin.Bounded (win : WmWin) : Prop where
  w : win.w ≤ 8192
  h : win.h ≤ 8192
  savedW : win.savedW ≤ 8192
  savedH : win.savedH ≤ 8192

/-- What no operation breaks. -/
structure Steady (state : WmState) : Prop where
  named : Named state.panes state.nextId state.requested
  captured : Captured state.panes
  owned : Owned state.panes state.alive
  ledger : Ledger state.panes state.freeList state.freed state.allocated
  sized : Sized state.panes state.bytes
  bounded : ∀ slot, (state.wins slot).Bounded

/-- All but the focus. -/
structure Standing (state : WmState) : Prop where
  steady : Steady state
  stacked : Stacked state.panes state.zorder
  asked : Asked state.panes state.requested state.deferredCloseId

structure Sound (state : WmState) : Prop where
  standing : Standing state
  focused : Focused state.panes state.focused

variable {screen : Screen} {state after : WmState}

theorem wins_setWin (state : WmState) (slot : Slot) (win : WmWin) :
    (state.setWin slot win).wins slot = win := update_self _ _ _

theorem findWin_some {id : Int} {slot : Slot} (found : findWin state id = some slot) :
    (state.panes slot).visible = true ∧ (state.panes slot).id = id := by
  unfold findWin at found
  have both := List.find?_some found
  obtain ⟨shows, named⟩ := Bool.and_eq_true_iff.mp both
  exact ⟨shows, eq_of_beq named⟩

theorem findWin_none {id : Int} (missing : findWin state id = none) :
    ¬Opened state.panes id := by
  rintro ⟨slot, shows, named⟩
  refine List.find?_eq_none.mp missing slot (mem_slots slot) ?_
  exact Bool.and_eq_true_iff.mpr ⟨shows, beq_iff_eq.mpr named⟩

theorem isOpen_iff {id : Int} : state.isOpen id = true ↔ Opened state.panes id := by
  unfold WmState.isOpen
  cases found : findWin state id with
  | none => exact iff_of_false Bool.false_ne_true (findWin_none found)
  | some slot => exact iff_of_true rfl ⟨slot, (findWin_some found).1, (findWin_some found).2⟩

/-- Among different names, a window is found by its own. -/
theorem findWin_own (named : Named state.panes state.nextId state.requested) {slot : Slot}
    (shows : (state.panes slot).visible = true) :
    findWin state (state.wins slot).id = some slot := by
  cases found : findWin state (state.wins slot).id with
  | none => exact absurd ⟨slot, shows, rfl⟩ (findWin_none found)
  | some other =>
    obtain ⟨visible, same⟩ := findWin_some found
    rw [named.unique other slot visible shows same]

/-! ### Windows that are only restyled -/

/-- A window keeps its place, its name and its buffer. -/
structure Similar (old new : WmWin) : Prop where
  visible : new.visible = old.visible
  id : new.id = old.id
  contentBuffer : new.contentBuffer = old.contentBuffer
  contentCap : new.contentCap = old.contentCap
  lastCw : new.lastCw = old.lastCw
  lastCh : new.lastCh = old.lastCh
  bounded : old.Bounded → new.Bounded

/-- It keeps its owner too, and does not begin to capture the mouse. -/
structure Alike (old new : WmWin) : Prop extends Similar old new where
  ownerTask : new.ownerTask = old.ownerTask
  captureMouse : new.captureMouse = true → old.captureMouse = true

theorem Alike.refl (win : WmWin) : Alike win win :=
  ⟨⟨rfl, rfl, rfl, rfl, rfl, rfl, fun bounded => bounded⟩, rfl, fun captures => captures⟩

/-- Restyled windows are found as before. -/
theorem findWin_alike (alike : ∀ slot, Alike (state.wins slot) (after.wins slot)) (id : Int) :
    findWin after id = findWin state id := by
  refine congrArg slots.find? (funext fun slot => ?_)
  exact congrArg₂ (fun shows named => shows && named == id) (alike slot).visible (alike slot).id

theorem alike_update (state : WmState) {slot : Slot} {win : WmWin}
    (alike : Alike (state.wins slot) win) (other : Slot) :
    Alike (state.wins other) (update state.wins slot win other) := by
  by_cases same : other = slot
  · rw [same, update_self]
    exact alike
  · rw [update_of_ne same]
    exact Alike.refl _

section Restyle

variable {wins : Slot → WmWin}

theorem shrinks_restyle (similar : ∀ slot, Similar (state.wins slot) (wins slot)) :
    Shrinks state.panes { state with wins := wins }.panes :=
  fun slot shows => ⟨(similar slot).visible.symm.trans shows, (similar slot).id⟩

/-- All but the capture and the owners is as before. -/
theorem Sound.similar (sound : Sound state)
    (similar : ∀ slot, Similar (state.wins slot) (wins slot))
    (captured : Captured fun slot => (wins slot).pane)
    (owned : Owned (fun slot => (wins slot).pane) state.alive)
    (minimized : ∀ slot, (wins slot).minimized = (state.wins slot).minimized) :
    Sound { state with wins := wins } := by
  have steady := sound.standing.steady
  have shrinks := shrinks_restyle similar
  have ledger : Ledger (fun slot => (wins slot).pane) state.freeList state.freed
      state.allocated := steady.ledger.congr (fun slot => (similar slot).contentBuffer)
    fun slot off => (similar slot).visible.symm.trans off
  have sized : Sized (fun slot => (wins slot).pane) state.bytes :=
    steady.sized.congr fun slot => Or.inr ⟨(similar slot).contentBuffer,
      (similar slot).contentCap, (similar slot).lastCw, (similar slot).lastCh⟩
  have focused : Focused (fun slot => (wins slot).pane) state.focused :=
    sound.focused.congr (fun slot => congrArg₂ (fun shows small => shows && !small)
      (similar slot).visible (minimized slot)) fun slot => (similar slot).id
  exact ⟨⟨⟨steady.named.shrinks shrinks, captured, owned, ledger, sized,
    fun slot => (similar slot).bounded (steady.bounded slot)⟩,
    sound.standing.stacked.congr fun slot => (similar slot).visible,
    sound.standing.asked.shrinks shrinks⟩, focused⟩

variable (alike : ∀ slot, Alike (state.wins slot) (wins slot))

include alike

theorem Steady.restyle (steady : Steady state) : Steady { state with wins := wins } where
  named := steady.named.shrinks (shrinks_restyle fun slot => (alike slot).toSimilar)
  captured := steady.captured.mono fun slot captures => (alike slot).captureMouse captures
  owned := steady.owned.mono fun slot shows _ =>
    ⟨(alike slot).visible.symm.trans shows, (alike slot).ownerTask⟩
  ledger := steady.ledger.congr (fun slot => (alike slot).contentBuffer)
    fun slot off => (alike slot).visible.symm.trans off
  sized := steady.sized.congr fun slot => Or.inr
    ⟨(alike slot).contentBuffer, (alike slot).contentCap, (alike slot).lastCw, (alike slot).lastCh⟩
  bounded slot := (alike slot).bounded (steady.bounded slot)

theorem Standing.restyle (standing : Standing state) : Standing { state with wins := wins } where
  steady := standing.steady.restyle alike
  stacked := standing.stacked.congr fun slot => (alike slot).visible
  asked := standing.asked.shrinks (shrinks_restyle fun slot => (alike slot).toSimilar)

theorem Sound.restyle (sound : Sound state)
    (minimized : ∀ slot, (wins slot).minimized = (state.wins slot).minimized) :
    Sound { state with wins := wins } where
  standing := sound.standing.restyle alike
  focused := sound.focused.congr
    (fun slot => congrArg₂ (fun shows small => shows && !small) (alike slot).visible
      (minimized slot)) fun slot => (alike slot).id

end Restyle

/-- The restyling of one window that is not minimized or restored by it. -/
theorem Sound.restyleOne (sound : Sound state) {slot : Slot} {win : WmWin}
    (alike : Alike (state.wins slot) win)
    (minimized : win.minimized = (state.wins slot).minimized) : Sound (state.setWin slot win) :=
  sound.restyle (alike_update state alike) fun other => by
    by_cases same : other = slot
    · rw [same, update_self]
      exact minimized
    · rw [update_of_ne same]

/-! ### Focus and z-order -/

/-- The z-order may be permuted, the focus moved, the switcher used. -/
theorem Standing.recast (standing : Standing state) {zorder : List Slot}
    (stacked : Stacked state.panes zorder) (focused : Int) (active : Bool) (selected : Int) :
    Standing { state with
      zorder := zorder, focused := focused, altTabActive := active
      altTabSelectedIdx := selected } :=
  ⟨⟨standing.steady.named, standing.steady.captured, standing.steady.owned,
    standing.steady.ledger, standing.steady.sized, standing.steady.bounded⟩, stacked,
    standing.asked⟩

/-- A window is minimized or restored. -/
theorem Standing.setMinimized (standing : Standing state) (slot : Slot) (minimized : Bool) :
    Standing (state.setWin slot { state.wins slot with minimized := minimized }) :=
  standing.restyle (alike_update state ⟨⟨rfl, rfl, rfl, rfl, rfl, rfl, fun bounded =>
    ⟨bounded.w, bounded.h, bounded.savedW, bounded.savedH⟩⟩, rfl, fun captures => captures⟩)

/-- A window that is on the screen is raised. -/
theorem Standing.raise (standing : Standing state) {id : Int} {slot : Slot}
    (found : findWin state id = some slot) (restored : (state.wins slot).minimized = false) :
    Sound (wmRaise state id) := by
  obtain ⟨shows, named⟩ := findWin_some found
  have room := standing.stacked.erase_length shows
  unfold wmRaise
  rw [found]
  dsimp only
  rw [if_pos room]
  have shown : (state.panes slot).shown = true :=
    Bool.and_eq_true_iff.mpr ⟨shows, (Bool.not_eq_true' _).mpr restored⟩
  exact ⟨standing.recast (standing.stacked.raise shows) id state.altTabActive
    state.altTabSelectedIdx, Focused.of_shown standing.steady.named shown named⟩

/-- The topmost window on the screen is the focus. -/
theorem focused_topShown (standing : Standing state) : Focused state.panes (topShown state) := by
  unfold topShown
  cases found : state.zorder.reverse.find? state.shown with
  | some slot =>
    have shown := List.find?_some found
    exact Focused.of_shown standing.steady.named
      (show (state.panes slot).shown = true from shown) rfl
  | none =>
    have nobody : ∀ slot, (state.panes slot).shown = false := by
      intro slot
      refine Bool.eq_false_iff.mpr fun shown => ?_
      have listed := (standing.stacked.mem slot).mpr (Bool.and_eq_true_iff.mp shown).1
      exact List.find?_eq_none.mp found slot (List.mem_reverse.mpr listed) shown
    exact ⟨Or.inl rfl, fun _ => nobody⟩

theorem Sound.minimize (sound : Sound state) (id : Int) : Sound (wmMinimize state id) := by
  unfold wmMinimize
  split
  · exact sound
  · rename_i slot found
    split_ifs with small
    · exact sound
    · have standing := sound.standing.setMinimized slot true
      have focused := focused_topShown standing
      exact ⟨standing.recast standing.stacked _ _ _, focused⟩

/-- A window that is restored is raised. -/
theorem Sound.restore (sound : Sound state) (id : Int) : Sound (wmRestore state id) := by
  unfold wmRestore
  split
  · exact sound
  · rename_i slot found
    obtain ⟨shows, rfl⟩ := findWin_some found
    have standing := sound.standing.setMinimized slot false
    have win := wins_setWin state slot { state.wins slot with minimized := false }
    have still := findWin_own standing.steady.named ((congrArg WmWin.visible win).trans shows)
    refine standing.raise ?_ (congrArg WmWin.minimized win)
    rw [win] at still
    exact still

theorem Sound.focusNext (sound : Sound state) : Sound (wmFocusNext state) := by
  unfold wmFocusNext
  split_ifs with few
  · exact sound
  · split
    · exact sound
    · rename_i top last
      dsimp only
      split
      · exact sound
      · rename_i slot newTop
        have stacked := sound.standing.stacked.rotate last
        have standing := sound.standing.setMinimized slot false
        have shows := (stacked.mem slot).mp (List.mem_of_getLast? newTop)
        have win := wins_setWin state slot { state.wins slot with minimized := false }
        have shown : ((state.setWin slot
            { state.wins slot with minimized := false }).panes slot).shown = true := by
          refine Bool.and_eq_true_iff.mpr ⟨(congrArg WmWin.visible win).trans shows, ?_⟩
          exact (Bool.not_eq_true' _).mpr (congrArg WmWin.minimized win)
        have rotated := standing.stacked.rotate last
        have named := congrArg WmWin.id win
        exact ⟨standing.recast rotated _ _ _, Focused.of_shown standing.steady.named shown named⟩

/-- The switcher is no part of the invariants. -/
theorem Sound.altTab (sound : Sound state) (active : Bool) (selected : Int) :
    Sound { state with altTabActive := active, altTabSelectedIdx := selected } :=
  ⟨sound.standing.recast sound.standing.stacked _ _ _, sound.focused⟩

theorem Sound.altTabEnd (sound : Sound state) : Sound (wmAltTabEnd state) := by
  unfold wmAltTabEnd
  split_ifs with idle
  · exact sound
  · dsimp only
    split_ifs with few
    · exact sound.altTab _ _
    · split
      · exact sound.altTab _ _
      · exact (sound.altTab _ _).restore _

/-! ### A new window -/

/-- A window opens in a free slot, on top, with the focus. -/
theorem Sound.push (sound : Sound state) (small : state.nextId < intMax) {slot : Slot}
    {win : WmWin} (hidden : (state.panes slot).visible = false) (fresh : win.id = state.nextId)
    (visible : win.visible = true) (restored : win.minimized = false)
    (free : win.captureMouse = false) (kernel : win.ownerTask = -1)
    (empty : win.contentBuffer = none) (bounded : win.Bounded) :
    Sound { state.setWin slot win with
      nextId := intSucc state.nextId
      zorder := state.zorder ++ [slot]
      focused := state.nextId } := by
  have steady := sound.standing.steady
  have panes := panes_setWin state slot win
  have named : Named (state.setWin slot win).panes (intSucc state.nextId) state.requested := by
    rw [panes]
    exact steady.named.push small fresh
  have here : (state.setWin slot win).panes slot = win.pane := by
    rw [panes, update_self]
  have elsewhere : ∀ other, other ≠ slot →
      (state.setWin slot win).panes other = state.panes other := by
    intro other apart
    rw [panes, update_of_ne apart]
  have noBuffer : ((state.setWin slot win).panes slot).contentBuffer = none :=
    (congrArg Pane.contentBuffer here).trans empty
  have captured : Captured (state.setWin slot win).panes := by
    refine steady.captured.mono fun other captures => ?_
    by_cases same : other = slot
    · rw [same, here] at captures
      exact absurd (free.symm.trans captures) Bool.false_ne_true
    · rwa [elsewhere other same] at captures
  have owned : Owned (state.setWin slot win).panes state.alive := by
    refine steady.owned.mono fun other shows foreign => ?_
    by_cases same : other = slot
    · rw [same, here] at foreign
      exact absurd (foreign.trans_eq kernel) (by decide)
    · rw [elsewhere other same] at shows ⊢
      exact ⟨shows, rfl⟩
  have ledger : Ledger (state.setWin slot win).panes state.freeList state.freed
      state.allocated := by
    refine steady.ledger.congr (fun other => ?_) fun other off => ?_
    · by_cases same : other = slot
      · rw [same, noBuffer, steady.ledger.visible slot hidden]
      · rw [elsewhere other same]
    · by_cases same : other = slot
      · rw [same, here] at off
        exact absurd (off.symm.trans visible) Bool.false_ne_true
      · rwa [elsewhere other same] at off
  have sized : Sized (state.setWin slot win).panes state.bytes := by
    refine steady.sized.congr fun other => ?_
    by_cases same : other = slot
    · rw [same]
      exact Or.inl noBuffer
    · rw [elsewhere other same]
      exact Or.inr ⟨rfl, rfl, rfl, rfl⟩
  have small : ∀ other, ((state.setWin slot win).wins other).Bounded := by
    intro other
    show (update state.wins slot win other).Bounded
    by_cases same : other = slot
    · rw [same, update_self]
      exact bounded
    · rw [update_of_ne same]
      exact steady.bounded other
  have stacked : Stacked (state.setWin slot win).panes (state.zorder ++ [slot]) := by
    rw [panes]
    exact (sound.standing.stacked.push hidden visible).2
  have asked : Asked (state.setWin slot win).panes state.requested state.deferredCloseId := by
    rintro id member ⟨other, shows, rfl⟩
    by_cases same : other = slot
    · have known := steady.named.asked _ member
      rw [same, here] at known
      exact absurd (known.trans_eq fresh.symm) (lt_irrefl _)
    · rw [elsewhere other same] at member shows ⊢
      exact sound.standing.asked _ member ⟨other, shows, rfl⟩
  have shown : ((state.setWin slot win).panes slot).shown = true := by
    rw [here]
    exact Bool.and_eq_true_iff.mpr ⟨visible, (Bool.not_eq_true' _).mpr restored⟩
  exact ⟨⟨⟨named, captured, owned, ledger, sized, small⟩, stacked, asked⟩,
    Focused.of_shown named shown ((congrArg Pane.id here).trans fresh)⟩

theorem Sound.openWin (sound : Sound state) (small : state.nextId < intMax) {x y w h : Int}
    {mouseFn : Bool} (opened : wmOpen screen state x y w h mouseFn = some after) :
    Sound after := by
  unfold wmOpen at opened
  by_cases absurdSize : w ≤ 0 ∨ h ≤ 0 ∨ 8192 < w ∨ 8192 < h
  · rw [if_pos absurdSize] at opened
    cases opened
  rw [if_neg absurdSize] at opened
  by_cases wide : screen.width * 4 < w ∨ screen.height * 4 < h
  · rw [if_pos wide] at opened
    cases opened
  rw [if_neg wide] at opened
  have fits : w ≤ 8192 ∧ h ≤ 8192 := by omega
  dsimp only at opened
  cases found : slots.find? fun slot => !(state.wins slot).visible with
  | none =>
    rw [found] at opened
    cases opened
  | some slot =>
    have free := List.find?_some found
    have hidden : (state.panes slot).visible = false := (Bool.not_eq_true' _).mp free
    have bounded := sound.standing.steady.bounded slot
    have stays : ({ state.panes slot with visible := true } : Pane).visible = true := rfl
    have room := (sound.standing.stacked.push hidden stays).1
    rw [found] at opened
    dsimp only at opened
    rw [if_pos room] at opened
    obtain rfl := Option.some.inj opened
    exact sound.push small hidden rfl rfl rfl rfl rfl rfl
      ⟨fits.1, fits.2, bounded.savedW, bounded.savedH⟩

/-! ### Windows that leave -/

/-- There is always room on the list of frees. -/
theorem hideWin_eq (steady : Steady state) (slot : Slot) :
    hideWin state slot =
      { state.setWin slot { state.wins slot with visible := false, contentBuffer := none } with
        zorder := state.zorder.erase slot
        freeList := state.freeList ++ (state.wins slot).contentBuffer.toList } := by
  unfold hideWin
  dsimp only
  cases holds : (state.wins slot).contentBuffer with
  | none =>
    rw [Option.toList_none, List.append_nil]
    rfl
  | some buffer =>
    have room : ¬freeListSize ≤ state.freeList.length := by
      have bound := Nat.le_trans (Nat.le_add_left _ _) steady.ledger.room
      unfold freeListSize
      unfold maxWindows at bound
      omega
    unfold wmDeferFree
    dsimp only
    rw [if_neg room]
    rfl

/-- A window that leaves gives its buffer to the flush. -/
theorem Ledger.hide {panes : Panes} {freeList freed : List Nat} {allocated : Nat}
    (ledger : Ledger panes freeList freed allocated) (slot : Slot) {pane : Pane}
    (empty : pane.contentBuffer = none) :
    Ledger (update panes slot pane) (freeList ++ (panes slot).contentBuffer.toList) freed
      allocated := by
  refine ledger.exchange (fun _ => empty) ?_ le_rfl ?_
  · rw [empty, Nat.sub_self]
    show (freeList ++ (panes slot).contentBuffer.toList ++ freed).Perm _
    rw [List.range'_zero, List.append_nil, ← List.append_assoc]
    exact List.perm_append_comm.append_right freed
  · have after := (buffersOf_update_perm panes slot pane).length_eq
    have before := (buffersOf_perm panes slot).length_eq
    have room := ledger.room
    rw [empty, Option.toList_none, List.nil_append] at after
    rw [List.length_append] at before ⊢
    omega

/-- A window leaves the table in one of the three ways; the z-order is no matter. -/
theorem Steady.leave (steady : Steady state) (slot : Slot) (win : WmWin)
    {freeList freed : List Nat} (off : win.visible = false) (empty : win.contentBuffer = none)
    (captures : win.captureMouse = true → (state.wins slot).captureMouse = true)
    (bounded : win.Bounded)
    (ledger : Ledger (update state.panes slot win.pane) freeList freed state.allocated)
    (zorder : List Slot) :
    Steady { state.setWin slot win with
      zorder := zorder, freeList := freeList, freed := freed } := by
  have panes := panes_setWin state slot win
  have shrinks : Shrinks state.panes (state.setWin slot win).panes := by
    rw [panes]
    exact Shrinks.update fun shows => absurd (off.symm.trans shows) Bool.false_ne_true
  have captured : Captured (state.setWin slot win).panes := by
    refine steady.captured.mono fun other holds => ?_
    rw [panes] at holds
    by_cases same : other = slot
    · rw [same, update_self] at holds
      rw [same]
      exact captures holds
    · rwa [update_of_ne same] at holds
  have owned : Owned (state.setWin slot win).panes state.alive := by
    refine steady.owned.mono fun other shows _ => ?_
    rw [panes] at shows ⊢
    by_cases same : other = slot
    · rw [same, update_self] at shows
      exact absurd (off.symm.trans shows) Bool.false_ne_true
    · rw [update_of_ne same] at shows ⊢
      exact ⟨shows, rfl⟩
  have sized : Sized (state.setWin slot win).panes state.bytes := by
    refine steady.sized.congr fun other => ?_
    rw [panes]
    by_cases same : other = slot
    · rw [same, update_self]
      exact Or.inl empty
    · rw [update_of_ne same]
      exact Or.inr ⟨rfl, rfl, rfl, rfl⟩
  have small : ∀ other, ((state.setWin slot win).wins other).Bounded := by
    intro other
    show (update state.wins slot win other).Bounded
    by_cases same : other = slot
    · rw [same, update_self]
      exact bounded
    · rw [update_of_ne same]
      exact steady.bounded other
  exact ⟨steady.named.shrinks shrinks, captured, owned, panes ▸ ledger, sized, small⟩

/-- Some windows left the table, and nothing else happened to the others. -/
structure Left (before after : WmState) (gone : Slot → Bool) : Prop where
  steady : Steady after
  zorder : after.zorder = before.zorder.filter fun slot => !gone slot
  kept : ∀ slot, gone slot = false → after.panes slot = before.panes slot
  off : ∀ slot, gone slot = true → (after.panes slot).visible = false
  minimized : ∀ slot, (after.wins slot).minimized = (before.wins slot).minimized
  alive : after.alive = before.alive
  requested : after.requested = before.requested
  deferred : after.deferredCloseId = before.deferredCloseId

theorem wins_clear (state : WmState) (slot : Slot) : (clearGameInput state slot).wins slot =
    { state.wins slot with captureMouse := false } := wins_setWin _ _ _

theorem alike_clear (state : WmState) (slot other : Slot) :
    Alike (state.wins other) ((clearGameInput state slot).wins other) := by
  have quiet : Alike (state.wins slot) { state.wins slot with captureMouse := false } :=
    ⟨⟨rfl, rfl, rfl, rfl, rfl, rfl, fun bounded =>
      ⟨bounded.w, bounded.h, bounded.savedW, bounded.savedH⟩⟩, rfl,
      fun captures => absurd captures Bool.false_ne_true⟩
  exact alike_update state quiet other

theorem minimized_clear (state : WmState) (slot other : Slot) :
    ((clearGameInput state slot).wins other).minimized = (state.wins other).minimized := by
  by_cases same : other = slot
  · rw [same, wins_clear]
  · exact congrArg WmWin.minimized (update_of_ne same _ _)

namespace Left

variable {gone : Slot → Bool}

theorem shrinks (left : Left state after gone) : Shrinks state.panes after.panes := by
  intro slot shows
  cases leaves : gone slot with
  | false =>
    rw [left.kept slot leaves] at shows ⊢
    exact ⟨shows, rfl⟩
  | true => exact absurd ((left.off slot leaves).symm.trans shows) Bool.false_ne_true

theorem stacked (left : Left state after gone) (stacked : Stacked state.panes state.zorder) :
    Stacked after.panes after.zorder := by
  rw [left.zorder]
  refine ⟨stacked.nodup.filter _, fun slot => ?_⟩
  rw [List.mem_filter, stacked.mem]
  cases leaves : gone slot with
  | false =>
    rw [left.kept slot leaves]
    exact and_iff_left rfl
  | true =>
    rw [left.off slot leaves]
    exact iff_of_false (fun both => Bool.false_ne_true both.2) Bool.false_ne_true

theorem standing (left : Left state after gone) (standing : Standing state) : Standing after := by
  refine ⟨left.steady, left.stacked standing.stacked, ?_⟩
  rw [left.requested, left.deferred]
  exact standing.asked.shrinks left.shrinks

/-- One window leaves. -/
theorem one (steady : Steady state) (nodup : state.zorder.Nodup) (slot : Slot) :
    Left state (hideWin (clearGameInput state slot) slot) fun other => other == slot := by
  have cleared : Steady (clearGameInput state slot) := steady.restyle (alike_clear state slot)
  have win := wins_clear state slot
  have others : ∀ other, other ≠ slot →
      (clearGameInput state slot).wins other = state.wins other := fun other apart =>
    update_of_ne apart _ _
  have bounded := cleared.bounded slot
  rw [hideWin_eq cleared]
  refine ⟨cleared.leave slot { (clearGameInput state slot).wins slot with
      visible := false, contentBuffer := none } rfl rfl (fun captures => captures)
    ⟨bounded.w, bounded.h, bounded.savedW, bounded.savedH⟩
    (cleared.ledger.hide slot rfl) _, ?_, fun other apart => ?_, fun other same => ?_,
    fun other => ?_, rfl, rfl, rfl⟩
  · exact nodup.erase_eq_filter slot
  · have different : other ≠ slot := ne_of_beq_false apart
    show (update (clearGameInput state slot).wins slot _ other).pane = _
    rw [update_of_ne different, others other different]
    rfl
  · rw [eq_of_beq same]
    show (update (clearGameInput state slot).wins slot _ slot).pane.visible = false
    rw [update_self]
    rfl
  · show (update (clearGameInput state slot).wins slot _ other).minimized = _
    by_cases same : other = slot
    · rw [same, update_self, win]
    · rw [update_of_ne same, others other same]

/-- Nobody leaves. -/
theorem none (steady : Steady state) : Left state state fun _ => false where
  steady := steady
  zorder := (List.filter_eq_self.mpr fun _ _ => rfl).symm
  kept _ _ := rfl
  off _ leaves := absurd leaves Bool.false_ne_true
  minimized _ := rfl
  alive := rfl
  requested := rfl
  deferred := rfl

theorem trans {middle : WmState} {later : Slot → Bool} (early : Left state middle gone)
    (late : Left middle after later) : Left state after fun slot => gone slot || later slot where
  steady := late.steady
  zorder := by
    rw [late.zorder, early.zorder, List.filter_filter]
    refine List.filter_congr fun slot _ => ?_
    rw [Bool.not_or, Bool.and_comm]
  kept slot stays := by
    obtain ⟨first, second⟩ := Bool.or_eq_false_iff.mp stays
    exact (late.kept slot second).trans (early.kept slot first)
  off slot leaves := by
    cases second : later slot with
    | true => exact late.off slot second
    | false =>
      rw [second, Bool.or_false] at leaves
      rw [late.kept slot second]
      exact early.off slot leaves
  minimized slot := (late.minimized slot).trans (early.minimized slot)
  alive := late.alive.trans early.alive
  requested := late.requested.trans early.requested
  deferred := late.deferred.trans early.deferred

end Left

/-- Is this a window of the task? -/
def ownedBy (state : WmState) (tid : Int) (slot : Slot) : Bool :=
  (state.panes slot).visible && (state.panes slot).ownerTask == tid

theorem ownedBy_iff {tid : Int} {slot : Slot} : ownedBy state tid slot = true ↔
    (state.wins slot).visible = true ∧ (state.wins slot).ownerTask = tid := by
  unfold ownedBy
  rw [Bool.and_eq_true, beq_iff_eq]
  rfl

/-- The loop of `wm_cleanup_task` over some of the slots. -/
theorem left_closeOwned (tid : Int) (list : List Slot) (steady : Steady state)
    (nodup : state.zorder.Nodup) :
    Left state (list.foldl (fun state slot =>
        if (state.wins slot).visible ∧ (state.wins slot).ownerTask = tid then
          hideWin (clearGameInput state slot) slot
        else state) state)
      fun slot => decide (slot ∈ list) && ownedBy state tid slot := by
  induction list generalizing state with
  | nil =>
    refine (congrArg (Left state state) (funext fun slot => ?_)).mp (Left.none steady)
    rw [decide_eq_false List.not_mem_nil, Bool.false_and]
  | cons slot rest inductionHypothesis =>
    rw [List.foldl_cons]
    by_cases closes : (state.wins slot).visible ∧ (state.wins slot).ownerTask = tid
    · rw [if_pos closes]
      have first := Left.one steady nodup slot
      have later := inductionHypothesis first.steady (by
        rw [first.zorder]
        exact nodup.filter _)
      refine (congrArg (Left state _) (funext fun other => ?_)).mp (first.trans later)
      by_cases same : other = slot
      · rw [same, beq_self_eq_true, Bool.true_or, decide_eq_true List.mem_cons_self,
          ownedBy_iff.mpr closes]
        rfl
      · have kept := first.kept other (beq_false_of_ne same)
        have owner : ownedBy (hideWin (clearGameInput state slot) slot) tid other =
            ownedBy state tid other := by
          unfold ownedBy
          rw [kept]
        rw [beq_false_of_ne same, Bool.false_or, owner]
        refine congrArg (· && ownedBy state tid other) (decide_eq_decide.mpr ?_)
        exact ⟨List.mem_cons_of_mem slot, fun member => (List.mem_cons.mp member).resolve_left same⟩
    · rw [if_neg closes]
      refine (congrArg (Left state _) (funext fun other => ?_)).mp
        (inductionHypothesis steady nodup)
      by_cases same : other = slot
      · have foreign : ownedBy state tid slot = false :=
          Bool.eq_false_iff.mpr fun owner => closes (ownedBy_iff.mp owner)
        rw [same, foreign, Bool.and_false, Bool.and_false]
      · refine congrArg (· && ownedBy state tid other) (decide_eq_decide.mpr ?_)
        exact ⟨List.mem_cons_of_mem slot, fun member => (List.mem_cons.mp member).resolve_left same⟩

/-- All windows of a task leave. -/
theorem Left.owned (steady : Steady state) (nodup : state.zorder.Nodup) (tid : Int) :
    Left state (closeOwned state tid) (ownedBy state tid) := by
  refine (congrArg (Left state _) (funext fun slot => ?_)).mp
    (left_closeOwned tid slots steady nodup)
  rw [decide_eq_true (mem_slots slot), Bool.true_and]

/-! ### The focus behind a close -/

/-- Is the last window of a z-order on the screen, if there is one? -/
def topOnScreen (state : WmState) (zorder : List Slot) : Bool :=
  match zorder.getLast? with
  | none => true
  | some slot => !(state.wins slot).minimized

theorem topOnScreen_congr (same : ∀ slot, (after.wins slot).minimized = (state.wins slot).minimized)
    (zorder : List Slot) : topOnScreen after zorder = topOnScreen state zorder := by
  unfold topOnScreen
  cases zorder.getLast? with
  | none => rfl
  | some slot => exact congrArg (fun small => !small) (same slot)

/-- A focus that goes to the top is right when the top is on the screen. -/
theorem focused_refocusTop (steady : Steady state) (stacked : Stacked state.panes state.zorder)
    (top : topOnScreen state state.zorder = true) :
    Focused (refocusTop state).panes (refocusTop state).focused := by
  unfold topOnScreen at top
  unfold refocusTop
  dsimp only
  cases last : state.zorder.getLast? with
  | none =>
    have empty := List.getLast?_eq_none_iff.mp last
    have nobody : ∀ slot, (state.panes slot).shown = false := by
      intro slot
      refine Bool.eq_false_iff.mpr fun shown => ?_
      have listed := (stacked.mem slot).mpr (Bool.and_eq_true_iff.mp shown).1
      rw [empty] at listed
      exact List.not_mem_nil listed
    exact ⟨Or.inl rfl, fun _ => nobody⟩
  | some slot =>
    rw [last] at top
    have shows := (stacked.mem slot).mp (List.mem_of_getLast? last)
    exact Focused.of_shown steady.named
      (show (state.panes slot).shown = true from Bool.and_eq_true_iff.mpr ⟨shows, top⟩) rfl

/-- Is the topmost window on the screen, once those of the task are gone? -/
def cleanupKeepsFocus (state : WmState) (tid : Int) : Bool :=
  topOnScreen state (state.zorder.filter fun slot => !ownedBy state tid slot)

/-- Windows left, and the focus went to the top. -/
theorem Left.refocused {gone : Slot → Bool} (left : Left state after gone)
    (stacked : Stacked state.panes state.zorder)
    (keeps : topOnScreen state (state.zorder.filter fun slot => !gone slot) = true) :
    Focused (refocusTop after).panes (refocusTop after).focused := by
  refine focused_refocusTop left.steady (left.stacked stacked) ?_
  rw [topOnScreen_congr left.minimized, left.zorder]
  exact keeps

theorem Steady.refocusTop (steady : Steady state) : Steady (refocusTop state) :=
  ⟨steady.named, steady.captured, steady.owned, steady.ledger, steady.sized, steady.bounded⟩

theorem Standing.refocusTop (standing : Standing state) : Standing (refocusTop state) :=
  ⟨standing.steady.refocusTop, standing.stacked, standing.asked⟩

theorem Sound.cleanup (sound : Sound state) {tid : Int}
    (keeps : cleanupKeepsFocus state tid = true) : Sound (wmCleanupTask state tid) := by
  have left := Left.owned sound.standing.steady sound.standing.stacked.nodup tid
  exact ⟨(left.standing sound.standing).refocusTop,
    left.refocused sound.standing.stacked keeps⟩

end MectovOS.Wm
