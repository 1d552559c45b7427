/-
This file models the window table of src/gui/wm.c: the slots with their geometry,
the z-order, the focus, the capture of the mouse, the close requests, and the
content buffers from their kmalloc to their kfree.

Every public function runs under `wm_lock`, which is reentrant, so it is one step.
A callback of a window runs under the lock as well; what it calls are steps of
their own, and a close it asks for is only recorded. A draw callback paints, and
may ask for closes. Damage rectangles, the pictures, the hover states, the cursor
and the raw-scancode opt-in are left out.
-/

import MectovOS.Lib.Holders
import MectovOS.Lib.Transition

namespace MectovOS.Wm

/-! ### The table -/

/-- `MAX_WINDOWS`, `TITLEBAR_H`, `TASKBAR_H_PX`, `SNAP_THRESHOLD`, `WM_BTN_W`, `WM_BTN_H`, and the
length of `wm_free_list`. -/
def maxWindows : Nat := 32
def titlebarH : Int := 20
def taskbarHPx : Int := 28
def snapThreshold : Int := 10
def wmBtnW : Int := 20
def wmBtnH : Int := 16
def freeListSize : Nat := 64

/-- The screen. The boot header asks for 1024 by 768 pixels. -/
structure Screen where
  width : Nat
  height : Nat
  width_le : width ≤ 8192
  height_le : height ≤ 8192

def bootScreen : Screen := ⟨1024, 768, by decide, by decide⟩

abbrev Slot := Fin maxWindows

def slots : List Slot := List.finRange maxWindows

/-- `SNAP_NONE`, `SNAP_LEFT`, `SNAP_RIGHT`, `SNAP_TOP`. -/
inductive SnapState where
  | none
  | left
  | right
  | top
  deriving DecidableEq

/-- `WmWin`. A content buffer is given by the number of its allocation. -/
structure WmWin where
  id : Int := 0
  x : Int := 0
  y : Int := 0
  w : Int := 0
  h : Int := 0
  mouseFn : Bool := false
  visible : Bool := false
  dragging : Bool := false
  contentDrag : Bool := false
  dragMx : Int := 0
  dragMy : Int := 0
  dragWx : Int := 0
  dragWy : Int := 0
  minimized : Bool := false
  maximized : Bool := false
  snapState : SnapState := .none
  savedX : Int := 0
  savedY : Int := 0
  savedW : Int := 0
  savedH : Int := 0
  resizing : Bool := false
  resizeMx : Int := 0
  resizeMy : Int := 0
  resizeWw : Int := 0
  resizeWh : Int := 0
  resizeEdge : Nat := 0
  ownerTask : Int := -1
  captureMouse : Bool := false
  contentBuffer : Option Nat := none
  contentCap : Int := 0
  bufferDirty : Bool := false
  lastCw : Int := 0
  lastCh : Int := 0

/-- The window manager, with the tasks that are alive, the heap as far as it holds content
buffers, and the closes that were asked for so far. `zorder` is listed from the bottom. -/
structure WmState where
  wins : Slot → WmWin := fun _ => {}
  focused : Int := -1
  zorder : List Slot := []
  nextId : Int := 1
  freeList : List Nat := []
  deferredCloseId : Int := -1
  altTabActive : Bool := false
  altTabSelectedIdx : Int := 0
  alive : Int → Bool := fun _ => false
  allocated : Nat := 0
  bytes : Nat → Int := fun _ => 0
  freed : List Nat := []
  requested : List Int := []

def WmState.setWin (state : WmState) (slot : Slot) (win : WmWin) : WmState :=
  { state with wins := Function.update state.wins slot win }

/-- The slot of the visible window with an id, as the loops over the table find it. -/
def findWin (state : WmState) (id : Int) : Option Slot :=
  slots.find? fun slot => (state.wins slot).visible && (state.wins slot).id == id

/-- Is a window with this id on the table? -/
def WmState.isOpen (state : WmState) (id : Int) : Bool := (findWin state id).isSome

/-- On the screen, not only on the taskbar. -/
def WmState.shown (state : WmState) (slot : Slot) : Bool :=
  (state.wins slot).visible && !(state.wins slot).minimized

/-- `++` on an `int`. -/
def intSucc (value : Int) : Int := Int.bmod (value + 1) (2 ^ 32)

/-! ### Focus and z-order -/

/-- `wm_raise`. -/
def wmRaise (state : WmState) (id : Int) : WmState :=
  match findWin state id with
  | none => state
  | some slot =>
    let zorder := state.zorder.erase slot
    { state with
      zorder := if zorder.length < maxWindows then zorder ++ [slot] else zorder
      focused := id }

/-- The id of the topmost window still on the screen, or -1. -/
def topShown (state : WmState) : Int :=
  match state.zorder.reverse.find? state.shown with
  | none => -1
  | some slot => (state.wins slot).id

/-- `wm_minimize`. -/
def wmMinimize (state : WmState) (id : Int) : WmState :=
  match findWin state id with
  | none => state
  | some slot =>
    if (state.wins slot).minimized then state
    else
      let state := state.setWin slot { state.wins slot with minimized := true }
      { state with focused := topShown state }

/-- `wm_restore`. -/
def wmRestore (state : WmState) (id : Int) : WmState :=
  match findWin state id with
  | none => state
  | some slot => wmRaise (state.setWin slot { state.wins slot with minimized := false }) id

/-- `wm_focus_next`: the top goes to the bottom, and what is on top then is restored. -/
def wmFocusNext (state : WmState) : WmState :=
  if state.zorder.length ≤ 1 then state
  else
    match state.zorder.getLast? with
    | none => state
    | some top =>
      let zorder := top :: state.zorder.dropLast
      match zorder.getLast? with
      | none => state
      | some slot =>
        { state.setWin slot { state.wins slot with minimized := false } with
          zorder := zorder
          focused := (state.wins slot).id }

/-- `wm_alt_tab_start`. -/
def wmAltTabStart (state : WmState) : WmState :=
  if state.zorder.length ≤ 1 then state
  else { state with altTabActive := true, altTabSelectedIdx := 1 }

/-- `wm_alt_tab_next`. -/
def wmAltTabNext (state : WmState) : WmState :=
  if !state.altTabActive || state.zorder.length ≤ 1 then state
  else { state with altTabSelectedIdx := (state.altTabSelectedIdx + 1) % state.zorder.length }

/-- The selection is clamped where it is read. -/
def clampAltTab (state : WmState) : WmState :=
  let selected := if state.zorder.length ≤ state.altTabSelectedIdx then
    (state.zorder.length : Int) - 1 else state.altTabSelectedIdx
  { state with altTabSelectedIdx := if selected < 0 then 0 else selected }

/-- `wm_alt_tab_end`: the switcher lists the windows from the top. -/
def wmAltTabEnd (state : WmState) : WmState :=
  if !state.altTabActive then state
  else
    let state := { state with altTabActive := false }
    if state.zorder.length ≤ 1 then state
    else
      let state := clampAltTab state
      match state.zorder.reverse[state.altTabSelectedIdx.toNat]? with
      | none => state
      | some slot => wmRestore state (state.wins slot).id

/-! ### Open and close -/

/-- `wm_open`; `none` stands for -1, and otherwise the new window is the focused one. -/
def wmOpen (screen : Screen) (state : WmState) (x y w h : Int) (mouseFn : Bool) : Option WmState :=
  if w ≤ 0 ∨ h ≤ 0 ∨ 8192 < w ∨ 8192 < h then none
  else if screen.width * 4 < w ∨ screen.height * 4 < h then none
  else
    let x := if screen.width < x ∨ x + w < 0 then 0 else x
    let y := if screen.height < y ∨ y + h < 0 then 0 else y
    match slots.find? fun slot => !(state.wins slot).visible with
    | none => none
    | some slot =>
      let win := { state.wins slot with
        id := state.nextId, x := x, y := y, w := w, h := h, mouseFn := mouseFn
        ownerTask := -1, captureMouse := false, visible := true
        dragging := false, resizing := false, minimized := false, maximized := false
        snapState := .none, contentBuffer := none, bufferDirty := true
        lastCw := w - 2, lastCh := h - titlebarH - 2 }
      some { state.setWin slot win with
        nextId := intSucc state.nextId
        zorder := if state.zorder.length < maxWindows then state.zorder ++ [slot]
          else state.zorder
        focused := state.nextId }

/-- `wm_defer_free`; a full list leaks the buffer. -/
def wmDeferFree (state : WmState) (buffer : Option Nat) : WmState :=
  match buffer with
  | none => state
  | some buffer =>
    if freeListSize ≤ state.freeList.length then state
    else { state with freeList := state.freeList ++ [buffer] }

/-- `wm_flush_frees`. -/
def wmFlushFrees (state : WmState) : WmState :=
  { state with freed := state.freeList ++ state.freed, freeList := [] }

/-- `wm_clear_game_input`, as far as it is about the capture. -/
def clearGameInput (state : WmState) (slot : Slot) : WmState :=
  state.setWin slot { state.wins slot with captureMouse := false }

/-- A window leaves the table: its buffer is parked for the main loop. -/
def hideWin (state : WmState) (slot : Slot) : WmState :=
  let win := state.wins slot
  let state := wmDeferFree state win.contentBuffer
  { state.setWin slot { win with visible := false, contentBuffer := none } with
    zorder := state.zorder.erase slot }

/-- The focus goes to the top of the z-order, whether that window is on the screen or not. -/
def refocusTop (state : WmState) : WmState :=
  { state with
    focused := match state.zorder.getLast? with
      | none => -1
      | some slot => (state.wins slot).id }

/-- The loop of `wm_cleanup_task`. -/
def closeOwned (state : WmState) (tid : Int) : WmState :=
  slots.foldl (fun state slot =>
    if (state.wins slot).visible ∧ (state.wins slot).ownerTask = tid then
      hideWin (clearGameInput state slot) slot
    else state) state

/-- `wm_cleanup_task`. -/
def wmCleanupTask (state : WmState) (tid : Int) : WmState := refocusTop (closeOwned state tid)

/-- `terminate_task` of src/sys/task.c, as far as it is about windows; `task_kill_locked` is the
same for them. -/
def terminateTask (state : WmState) (tid : Int) : WmState :=
  if tid ≤ 0 ∨ state.alive tid = false then state
  else
    let state := wmCleanupTask state tid
    { state with alive := Function.update state.alive tid false }

/-- `wm_close_unlocked`, with the task that has to be killed, or 0. -/
def wmCloseUnlocked (state : WmState) (id : Int) : WmState × Int :=
  match findWin state id with
  | none => (state, 0)
  | some slot =>
    let state := clearGameInput state slot
    if 0 < (state.wins slot).ownerTask then (state, (state.wins slot).ownerTask)
    else (refocusTop (hideWin state slot), 0)

/-- A close of a window on the table was asked for. -/
def askClose (state : WmState) (id : Int) : WmState :=
  if state.isOpen id then { state with requested := id :: state.requested } else state

/-- `wm_close` by a caller that does not hold `wm_lock`. -/
def wmClose (state : WmState) (id : Int) : WmState :=
  let (state, owner) := wmCloseUnlocked (askClose state id) id
  if 0 < owner then terminateTask state owner else state

/-- `wm_close` by a caller that holds `wm_lock`. -/
def requestClose (state : WmState) (id : Int) : WmState :=
  { askClose state id with deferredCloseId := id }

/-- `wm_drain_deferred_close`. -/
def wmDrainDeferredClose (state : WmState) : WmState :=
  if state.deferredCloseId < 0 then state
  else wmClose { state with deferredCloseId := -1 } state.deferredCloseId

/-- The second half of `SYS_CREATE_WINDOW`: the caller becomes the owner of the slot. -/
def ownWindow (state : WmState) (slot : Slot) (tid : Int) : WmState :=
  state.setWin slot { state.wins slot with ownerTask := tid }

/-- `wm_capture_mouse`. -/
def wmCaptureMouse (state : WmState) (id : Int) (on : Bool) : WmState :=
  match findWin state id with
  | none => state
  | some slot =>
    if on then
      if (state.wins slot).captureMouse then state
      else
        { state with wins := fun other =>
            { state.wins other with captureMouse := decide (other = slot) } }
    else if (state.wins slot).captureMouse then clearGameInput state slot
    else state

/-- `wm_invalidate`. -/
def wmInvalidate (state : WmState) (id : Int) : WmState :=
  match findWin state id with
  | none => state
  | some slot => state.setWin slot { state.wins slot with bufferDirty := true }

/-- The first loop of `wm_reset_session`, which cleans up after every task once. -/
def cleanOwners : List Slot → List Int → WmState → WmState
  | [], _, state => state
  | slot :: rest, cleaned, state =>
    if (state.wins slot).visible = false ∨ (state.wins slot).ownerTask ≤ 0 then
      cleanOwners rest cleaned state
    else if (state.wins slot).ownerTask ∉ cleaned ∧ cleaned.length < maxWindows then
      cleanOwners rest (cleaned ++ [(state.wins slot).ownerTask])
        (wmCleanupTask state (state.wins slot).ownerTask)
    else cleanOwners rest cleaned state

/-- The second loop of `wm_reset_session`: a window is taken away, its buffer freed at once. -/
def resetWin (state : WmState) (slot : Slot) : WmState :=
  let win := state.wins slot
  if win.visible = false then state
  else
    { state.setWin slot { win with
        visible := false, dragging := false, resizing := false, minimized := false
        maximized := false, snapState := .none, ownerTask := -1, contentBuffer := none } with
      freed := win.contentBuffer.toList ++ state.freed }

/-- `wm_reset_session`. -/
def wmResetSession (state : WmState) : WmState :=
  { slots.foldl resetWin (cleanOwners slots [] state) with
    focused := -1, zorder := [], altTabActive := false, altTabSelectedIdx := 0 }

end MectovOS.Wm
