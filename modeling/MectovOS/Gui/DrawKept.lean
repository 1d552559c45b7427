/-
This file proves that the compositor keeps the invariants of the window table,
whatever `kmalloc` answers, and that it never touches a content buffer that was
freed or a pixel behind the end of one.
-/

import MectovOS.Gui.PointerKept

namespace MectovOS.Wm

open Function

variable {state : WmState}

/-! ### Safe accesses -/

/-- The buffer is alive, holds the size its window keeps, and every pixel that is touched. -/
structure Access.Safe (access : Access) : Prop where
  live : access.freed = false
  holds : access.lastCw * access.lastCh * 4 ≤ access.bytes
  inside : ∀ row col, 0 ≤ row → row < access.rows → 0 ≤ col → col < access.cols →
    0 ≤ row * access.pitch + col ∧ (row * access.pitch + col + 1) * 4 ≤ access.bytes

/-- Rows and columns of the size that a window keeps. -/
theorem safe_accessOf (steady : Steady state) (slot : Slot) {rows cols : Int}
    (low : rows ≤ (state.wins slot).lastCh) (thin : cols ≤ (state.wins slot).lastCw) :
    ∀ access ∈ accessOf state slot rows cols (state.wins slot).lastCw, access.Safe := by
  intro access member
  unfold accessOf at member
  split at member
  · cases member
  · rename_i buffer holds
    obtain rfl := List.mem_singleton.mp member
    obtain ⟨wide, high, room, bytes⟩ := steady.sized slot buffer holds
    have alive := (steady.ledger.live holds).2
    have area : (state.wins slot).lastCw * (state.wins slot).lastCh * 4 ≤ state.bytes buffer := by
      rw [← bytes]
      exact Int.mul_le_mul_of_nonneg_right room (by decide)
    refine ⟨decide_eq_false alive, area, fun row col rowPos rowLt colPos colLt => ?_⟩
    dsimp only at rowLt colLt ⊢
    have widePos : 0 ≤ (state.wins slot).lastCw := le_of_lt wide
    refine ⟨Int.add_nonneg (Int.mul_nonneg rowPos widePos) colPos, ?_⟩
    have rowLast : row + 1 ≤ (state.wins slot).lastCh := by omega
    have colLast : col + 1 ≤ (state.wins slot).lastCw := by omega
    have above := Int.mul_le_mul_of_nonneg_right rowLast widePos
    calc (row * (state.wins slot).lastCw + col + 1) * 4
        ≤ ((row + 1) * (state.wins slot).lastCw) * 4 := by linarith
      _ ≤ ((state.wins slot).lastCh * (state.wins slot).lastCw) * 4 := by linarith
      _ = (state.wins slot).lastCw * (state.wins slot).lastCh * 4 := by ring
      _ ≤ state.bytes buffer := area

/-! ### The buffer of a draw -/

/-- A visible window gets another buffer, or another size in its buffer. -/
theorem Sound.rebuffer (sound : Sound state) {slot : Slot} {win : WmWin} {buffer : Option Nat}
    {cap cw ch : Int} {freed : List Nat} {allocated : Nat} {bytes : Nat → Int}
    (pane : win.pane = { state.panes slot with
      contentBuffer := buffer, contentCap := cap, lastCw := cw, lastCh := ch })
    (bounded : win.Bounded)
    (ledger : Ledger (update state.panes slot win.pane) state.freeList freed allocated)
    (sized : Sized (update state.panes slot win.pane) bytes) :
    Sound { state.setWin slot win with
      freed := freed, allocated := allocated, bytes := bytes } := by
  have steady := sound.standing.steady
  have panes := panes_setWin state slot win
  have same : ∀ other,
      ((state.setWin slot win).panes other).visible = (state.panes other).visible ∧
      ((state.setWin slot win).panes other).id = (state.panes other).id ∧
      ((state.setWin slot win).panes other).minimized = (state.panes other).minimized ∧
      ((state.setWin slot win).panes other).captureMouse = (state.panes other).captureMouse ∧
      ((state.setWin slot win).panes other).ownerTask = (state.panes other).ownerTask := by
    intro other
    rw [panes]
    by_cases here : other = slot
    · rw [here, update_self, pane]
      exact ⟨rfl, rfl, rfl, rfl, rfl⟩
    · rw [update_of_ne here]
      exact ⟨rfl, rfl, rfl, rfl, rfl⟩
  have shrinks : Shrinks state.panes (state.setWin slot win).panes := fun other shows =>
    ⟨(same other).1.symm.trans shows, (same other).2.1⟩
  have captured : Captured (state.setWin slot win).panes :=
    steady.captured.mono fun other captures => (same other).2.2.2.1.symm.trans captures
  have owned : Owned (state.setWin slot win).panes state.alive :=
    steady.owned.mono fun other shows _ => ⟨(same other).1.symm.trans shows, (same other).2.2.2.2⟩
  have small : ∀ other, ((state.setWin slot win).wins other).Bounded := by
    intro other
    show (update state.wins slot win other).Bounded
    by_cases here : other = slot
    · rw [here, update_self]
      exact bounded
    · rw [update_of_ne here]
      exact steady.bounded other
  have focused : Focused (state.setWin slot win).panes state.focused :=
    sound.focused.congr (fun other => congrArg₂ (fun shows small => shows && !small)
      (same other).1 (same other).2.2.1) fun other => (same other).2.1
  exact ⟨⟨⟨steady.named.shrinks shrinks, captured, owned, panes ▸ ledger, panes ▸ sized, small⟩,
    sound.standing.stacked.congr fun other => (same other).1,
    sound.standing.asked.shrinks shrinks⟩, focused⟩

/-- One window has another buffer; the others have theirs. -/
theorem Sized.update {panes : Panes} {bytes after : Nat → Int} (sized : Sized panes bytes)
    {slot : Slot} {pane : Pane}
    (here : ∀ buffer, pane.contentBuffer = some buffer → 0 < pane.lastCw ∧ 0 < pane.lastCh ∧
      pane.lastCw * pane.lastCh ≤ pane.contentCap ∧ pane.contentCap * 4 = after buffer)
    (same : ∀ other buffer, (panes other).contentBuffer = some buffer →
      after buffer = bytes buffer) : Sized (Function.update panes slot pane) after := by
  intro other buffer holds
  by_cases equal : other = slot
  · rw [equal, Function.update_self] at holds ⊢
    exact here buffer holds
  · rw [Function.update_of_ne equal] at holds ⊢
    rw [same other buffer holds]
    exact sized other buffer holds

/-- A draw takes a new buffer and frees the old one. -/
theorem Ledger.replace {panes : Panes} {freed : List Nat} {allocated : Nat}
    (ledger : Ledger panes [] freed allocated) {slot : Slot} {pane : Pane}
    (shows : pane.visible = true) (takes : pane.contentBuffer = some allocated) :
    Ledger (update panes slot pane) [] ((panes slot).contentBuffer.toList ++ freed)
      (allocated + 1) := by
  refine ledger.exchange (fun off => absurd (off.symm.trans shows) Bool.false_ne_true) ?_
    (Nat.le_succ _) ?_
  · rw [takes, Nat.add_sub_cancel_left]
    show (allocated :: ((panes slot).contentBuffer.toList ++ freed)).Perm _
    rw [List.range'_one]
    exact (List.perm_append_singleton allocated _).symm
  · have bound := Holders.length_held_le slots
      fun other => (update panes slot pane other).contentBuffer
    rwa [show slots.length = maxWindows from List.length_finRange] at bound

/-- What a draw needs before it renders: the buffer fits the window, unless it is resized. -/
structure Prepared (state : WmState) (slot : Slot) (cw ch : Int) : Prop where
  sound : Sound state
  empty : state.freeList = []
  committed : (state.wins slot).resizing = false →
    (state.wins slot).lastCw = cw ∧ (state.wins slot).lastCh = ch

/-- A window that changes twice. -/
theorem setWin_rebuffer (slot : Slot) (first second : WmWin) (freed : List Nat) (allocated : Nat)
    (bytes : Nat → Int) :
    WmState.setWin { state.setWin slot first with
        freed := freed, allocated := allocated, bytes := bytes } slot second =
      { state.setWin slot second with
        freed := freed, allocated := allocated, bytes := bytes } := by
  unfold WmState.setWin
  rw [update_idem]

/-- The bytes of a buffer of an ordinary size. -/
theorem bytes_exact {cw ch : Int} (wide : 0 < cw) (high : 0 < ch) (thin : cw ≤ 8192)
    (low : ch ≤ 8192) : cw * ch * 4 % 2 ^ 32 = cw * ch * 4 := by
  have positive := Int.mul_pos wide high
  have small : cw * ch ≤ 8192 * 8192 := Int.mul_le_mul thin low high.le (by decide)
  exact Int.emod_eq_of_lt (by omega) (by omega)

section Prepare

variable {slot : Slot} {cw ch : Int}

/-- A new buffer has the size of the window. -/
theorem prepared_new (sound : Sound state) (empty : state.freeList = [])
    (shows : (state.panes slot).visible = true) (wide : 0 < cw) (high : 0 < ch)
    (thin : cw ≤ 8192) (low : ch ≤ 8192) :
    Prepared { state.setWin slot { state.wins slot with
        contentBuffer := some state.allocated, contentCap := cw * ch, bufferDirty := true
        lastCw := cw, lastCh := ch } with
      allocated := state.allocated + 1
      bytes := update state.bytes state.allocated (cw * ch * 4 % 2 ^ 32)
      freed := (state.wins slot).contentBuffer.toList ++ state.freed } slot cw ch := by
  have steady := sound.standing.steady
  have bounded := steady.bounded slot
  have ledger := steady.ledger
  rw [empty] at ledger
  have replaced : Ledger (update state.panes slot { state.wins slot with
      contentBuffer := some state.allocated, contentCap := cw * ch, bufferDirty := true
      lastCw := cw, lastCh := ch }.pane) state.freeList
      ((state.wins slot).contentBuffer.toList ++ state.freed) (state.allocated + 1) := by
    rw [empty]
    exact ledger.replace shows rfl
  have sized : Sized (update state.panes slot { state.wins slot with
      contentBuffer := some state.allocated, contentCap := cw * ch, bufferDirty := true
      lastCw := cw, lastCh := ch }.pane)
      (update state.bytes state.allocated (cw * ch * 4 % 2 ^ 32)) := by
    refine steady.sized.update (fun buffer holds => ?_) fun other buffer holds => ?_
    · obtain rfl := Option.some.inj holds
      rw [update_self, bytes_exact wide high thin low]
      exact ⟨wide, high, le_rfl, rfl⟩
    · exact update_of_ne (steady.ledger.live holds).1.ne _ _
  refine ⟨sound.rebuffer rfl ⟨bounded.w, bounded.h, bounded.savedW, bounded.savedH⟩ replaced sized,
    empty, fun _ => ?_⟩
  have win := wins_setWin state slot { state.wins slot with
    contentBuffer := some state.allocated, contentCap := cw * ch, bufferDirty := true
    lastCw := cw, lastCh := ch }
  exact ⟨congrArg WmWin.lastCw win, congrArg WmWin.lastCh win⟩

/-- A buffer that is large enough takes the new size. -/
theorem prepared_same (sound : Sound state) (empty : state.freeList = [])
    (fits : (state.wins slot).resizing = false →
      ∃ buffer, (state.wins slot).contentBuffer = some buffer ∧
        cw * ch ≤ (state.wins slot).contentCap)
    (wide : 0 < cw) (high : 0 < ch) : Prepared (commitSize state slot cw ch) slot cw ch := by
  have steady := sound.standing.steady
  have bounded := steady.bounded slot
  unfold commitSize
  dsimp only
  split_ifs with same resizing
  · exact ⟨sound, empty, fun _ => same⟩
  · refine ⟨sound.restyled (.of_pane rfl fun bounded =>
      ⟨bounded.w, bounded.h, bounded.savedW, bounded.savedH⟩), empty, fun fixed => ?_⟩
    rw [wins_setWin] at fixed
    exact absurd (fixed.symm.trans resizing) Bool.false_ne_true
  · obtain ⟨buffer, holds, room⟩ := fits (Bool.eq_false_iff.mpr resizing)
    have known := steady.sized slot buffer holds
    have ledger : Ledger (update state.panes slot { state.wins slot with
        lastCw := cw, lastCh := ch, bufferDirty := true }.pane) state.freeList state.freed
        state.allocated := by
      refine steady.ledger.congr (fun other => ?_) fun other off => ?_
      · by_cases same : other = slot
        · rw [same, update_self]
          rfl
        · rw [update_of_ne same]
      · by_cases same : other = slot
        · rw [same, update_self] at off
          rw [same]
          exact off
        · rwa [update_of_ne same] at off
    have sized : Sized (update state.panes slot { state.wins slot with
        lastCw := cw, lastCh := ch, bufferDirty := true }.pane) state.bytes := by
      refine steady.sized.update (fun other takes => ?_) fun _ _ _ => rfl
      obtain rfl := Option.some.inj (holds.symm.trans takes)
      exact ⟨wide, high, room, known.2.2.2⟩
    refine ⟨sound.rebuffer rfl ⟨bounded.w, bounded.h, bounded.savedW, bounded.savedH⟩ ledger sized,
      empty, fun _ => ?_⟩
    rw [wins_setWin]
    exact ⟨rfl, rfl⟩

theorem prepared_ensureBuffer {after : WmState} {memory : Bool} (sound : Sound state)
    (empty : state.freeList = []) (shows : (state.panes slot).visible = true)
    (wide : 0 < cw) (high : 0 < ch) (thin : cw ≤ 8192) (low : ch ≤ 8192)
    (ensured : ensureBuffer state slot cw ch memory = some after) :
    Prepared (commitSize after slot cw ch) slot cw ch := by
  unfold ensureBuffer at ensured
  dsimp only at ensured
  split_ifs at ensured with grows
  · obtain rfl := Option.some.inj ensured
    have new := prepared_new sound empty shows wide high thin low
    unfold commitSize
    dsimp only
    rw [wins_setWin]
    dsimp only
    by_cases same : (state.wins slot).lastCw = cw ∧ (state.wins slot).lastCh = ch
    · rw [if_pos same]
      obtain ⟨rfl, rfl⟩ := same
      exact new
    · rw [if_neg same, if_neg (Bool.eq_false_iff.mp grows.1), setWin_rebuffer]
      exact new
  · obtain rfl := Option.some.inj ensured
    refine prepared_same sound empty (fun fixed => ?_) wide high
    obtain ⟨present, room⟩ := not_or.mp fun either => grows ⟨fixed, either⟩
    obtain ⟨buffer, holds⟩ := Option.ne_none_iff_exists'.mp present
    exact ⟨buffer, holds, not_lt.mp room⟩

end Prepare

/-! ### Draws -/

/-- A draw keeps the invariants, parks no buffer, and touches what it may. -/
structure Drawn (result : WmState × List Access) : Prop where
  sound : Sound result.1
  empty : result.1.freeList = []
  safe : ∀ access ∈ result.2, access.Safe

theorem drawn_nothing (sound : Sound state) (empty : state.freeList = []) : Drawn (state, []) :=
  ⟨sound, empty, fun _ member => nomatch member⟩

theorem Prepared.render {slot : Slot} {cw ch : Int} (prepared : Prepared state slot cw ch) :
    Drawn (renderWin state slot cw ch) := by
  unfold renderWin
  dsimp only
  split_ifs with paints
  · obtain ⟨rfl, rfl⟩ := prepared.committed paints.2.2
    exact ⟨prepared.sound.restyled (.of_pane rfl fun bounded =>
      ⟨bounded.w, bounded.h, bounded.savedW, bounded.savedH⟩), prepared.empty,
      safe_accessOf prepared.sound.standing.steady slot le_rfl le_rfl⟩
  · exact drawn_nothing prepared.sound prepared.empty

theorem safe_blitWin (steady : Steady state) (slot : Slot) (cw ch : Int) :
    ∀ access ∈ blitWin state slot cw ch, access.Safe := by
  refine safe_accessOf steady slot ?_ ?_
  · split_ifs with smaller
    · exact le_rfl
    · exact not_lt.mp smaller
  · split_ifs with smaller
    · exact le_rfl
    · exact not_lt.mp smaller

theorem drawn_drawOne (sound : Sound state) (empty : state.freeList = []) (slot : Slot)
    (damaged memory : Bool) : Drawn (drawOne state slot damaged memory) := by
  unfold drawOne
  dsimp only
  by_cases skips : state.shown slot = false ∨ ((state.wins slot).bufferDirty || damaged) = false ∨
      (state.wins slot).w - 2 ≤ 0 ∨ (state.wins slot).h - titlebarH - 2 ≤ 0
  · rw [if_pos skips]
    exact drawn_nothing sound empty
  · rw [if_neg skips]
    obtain ⟨shown, -, wide, high⟩ := by
      simpa only [not_or] using skips
    have shows : (state.panes slot).visible = true :=
      (Bool.and_eq_true_iff.mp (Bool.eq_true_of_not_eq_false shown)).1
    have bounded := sound.standing.steady.bounded slot
    have title : (0 : Int) ≤ titlebarH := by decide
    cases ensured : ensureBuffer state slot ((state.wins slot).w - 2)
        ((state.wins slot).h - titlebarH - 2) memory with
    | none => exact drawn_nothing sound empty
    | some after =>
      have prepared := prepared_ensureBuffer sound empty shows (not_le.mp wide) (not_le.mp high)
        (by have := bounded.w; omega) (by have := bounded.h; omega) ensured
      have rendered := prepared.render
      refine ⟨rendered.sound, rendered.empty, fun access member => ?_⟩
      rcases List.mem_append.mp member with painted | composed
      · exact rendered.safe access painted
      · exact safe_blitWin rendered.sound.standing.steady slot _ _ access composed

theorem drawn_drawSlots (damaged memory : Slot → Bool) (list : List Slot) (sound : Sound state)
    (empty : state.freeList = []) : Drawn (drawSlots damaged memory list state) := by
  induction list generalizing state with
  | nil => exact drawn_nothing sound empty
  | cons slot rest inductionHypothesis =>
    have first := drawn_drawOne sound empty slot (damaged slot) (memory slot)
    have later := inductionHypothesis first.sound first.empty
    refine ⟨later.sound, later.empty, fun access member => ?_⟩
    rcases List.mem_append.mp member with here | there
    · exact first.safe access here
    · exact later.safe access there

theorem Sound.flush (sound : Sound state) : Sound (wmFlushFrees state) := by
  have steady := sound.standing.steady
  exact ⟨⟨⟨steady.named, steady.captured, steady.owned, steady.ledger.flush, steady.sized,
    steady.bounded⟩, sound.standing.stacked, sound.standing.asked⟩, sound.focused⟩

theorem drawn_wmDrawAll (sound : Sound state) (damaged memory : Slot → Bool) :
    Drawn (wmDrawAll state damaged memory) := by
  have drawn := drawn_drawSlots damaged memory state.zorder sound.flush rfl
  unfold wmDrawAll
  dsimp only
  split_ifs with single
  · exact drawn
  · exact ⟨drawn.sound.altTab _ _, drawn.empty, drawn.safe⟩

theorem drawn_wmDrawWindow (sound : Sound state) (id : Int) (memory : Bool) :
    Drawn (wmDrawWindow state id memory) := by
  unfold wmDrawWindow
  dsimp only
  split
  · exact drawn_nothing sound.flush rfl
  · exact drawn_drawOne sound.flush rfl _ _ _

end MectovOS.Wm
