/-
This file models what the mouse and the compositor do to the window table of
src/gui/wm.c: dragging, resizing and snapping, the presses on a window, the
content buffers of a draw, and the whole table as a transition system.
-/

import MectovOS.Gui.Windows

namespace MectovOS.Wm

/-! ### The mouse -/

/-- One axis of a resize: the edge that is pulled, from where and from which size, by how much,
the smallest size and the length of the screen. -/
def resizeAxis (low high : Bool) (start size delta smallest : Int) (limit : Nat) : Int × Int :=
  let newSize := if high then size + delta else size
  let newPos := if low then start + delta else start
  let newSize := if low then size - delta else newSize
  let newPos := if newSize < smallest ∧ low then start + (size - smallest) else newPos
  let newSize := if newSize < smallest then smallest else newSize
  let newSize := if newPos < 0 then newSize + newPos else newSize
  let newPos := if newPos < 0 then 0 else newPos
  let newSize := if limit < newPos + newSize then limit - newPos else newSize
  let newSize := if newSize < smallest then smallest else newSize
  let newPos := if limit < newPos + newSize then limit - newSize else newPos
  (if newPos < 0 then 0 else newPos, newSize)

/-- The resize block of `wm_handle_mouse`; the edges are 1 top, 2 bottom, 4 left, 8 right. -/
def resizeWin (screen : Screen) (win : WmWin) (mx my : Int) : WmWin :=
  let (x, w) := resizeAxis (win.resizeEdge.testBit 2) (win.resizeEdge.testBit 3) win.dragWx
    win.resizeWw (mx - win.resizeMx) 220 screen.width
  let (y, h) := resizeAxis (win.resizeEdge.testBit 0) (win.resizeEdge.testBit 1) win.dragWy
    win.resizeWh (my - win.resizeMy) 150 screen.height
  { win with x := x, y := y, w := w, h := h }

/-- `check_snap`. -/
def checkSnap (screen : Screen) (win : WmWin) : WmWin :=
  if win.maximized then win
  else
    let distRight := screen.width - (win.x + win.w)
    let win := { win with savedX := win.x, savedY := win.y, savedW := win.w, savedH := win.h }
    if win.y ≤ snapThreshold then
      { win with
        x := 0, y := 0, w := screen.width, h := screen.height - taskbarHPx
        maximized := true, snapState := .top }
    else if win.x ≤ snapThreshold then
      { win with
        x := 0, y := 0, w := (screen.width / 2 : Nat), h := screen.height - taskbarHPx
        snapState := .left }
    else if distRight ≤ snapThreshold then
      { win with
        x := screen.width - (screen.width / 2 : Nat), y := 0, w := (screen.width / 2 : Nat)
        h := screen.height - taskbarHPx, snapState := .right }
    else if win.snapState ≠ .none then
      { win with
        x := win.savedX, y := win.savedY, w := win.savedW, h := win.savedH, snapState := .none }
    else win

/-- The drag block of `wm_handle_mouse`. -/
def dragWin (screen : Screen) (win : WmWin) (mx my : Int) : WmWin :=
  let win := checkSnap screen { win with
    x := win.dragWx + (mx - win.dragMx), y := win.dragWy + (my - win.dragMy) }
  if win.snapState = .none ∧ win.maximized = false then
    let x := if win.x < 0 then 0 else win.x
    let y := if win.y < 0 then 0 else win.y
    { win with x := if screen.width < x + win.w then screen.width - win.w else x, y := y }
  else win

/-- The window that is being resized or dragged, the lowest slot first. -/
def grabbed (state : WmState) : Option Slot :=
  slots.find? fun slot => (state.wins slot).visible &&
    ((state.wins slot).resizing || (state.wins slot).dragging)

/-- A release ends the drags of all windows, and forces a render where one was resized. -/
def releaseWin (win : WmWin) : WmWin :=
  if win.visible then
    { win with
      bufferDirty := win.resizing || win.bufferDirty
      dragging := false, resizing := false, resizeEdge := 0, contentDrag := false }
  else win

/-- Is the point inside the window? -/
def WmWin.covers (win : WmWin) (mx my : Int) : Bool :=
  decide (win.x ≤ mx ∧ mx < win.x + win.w ∧ win.y ≤ my ∧ my < win.y + win.h)

/-- The topmost window on the screen under the pointer. -/
def hitWin (state : WmState) (mx my : Int) : Option Slot :=
  state.zorder.reverse.find? fun slot => state.shown slot && (state.wins slot).covers mx my

/-- What a press meets. -/
inductive Zone where
  | closeButton
  | maxButton
  | minButton
  | titlebar
  | edge (edges : Nat)
  | content
  deriving DecidableEq

/-- The edges within 8 pixels of a point. -/
def edgesAt (win : WmWin) (mx my : Int) : Nat :=
  (if mx < win.x + 8 then 4 else if win.x + win.w - 8 ≤ mx then 8 else 0) +
    if my < win.y + 8 then 1 else if win.y + win.h - 8 ≤ my then 2 else 0

/-- Where on a window a press lands, with the buttons of `wm_btn_geom`. -/
def zoneAt (win : WmWin) (mx my : Int) : Zone :=
  let btnY := win.y + (titlebarH - wmBtnH) / 2
  let closeX := win.x + win.w - wmBtnW - 3
  let maxX := closeX - wmBtnW - 2
  let minX := maxX - wmBtnW - 2
  let onButton := fun btnX : Int => btnX ≤ mx ∧ mx < btnX + wmBtnW ∧ btnY ≤ my ∧ my < btnY + wmBtnH
  if my < win.y + titlebarH then
    if onButton closeX then .closeButton
    else if onButton maxX then .maxButton
    else if onButton minX then .minButton
    else .titlebar
  else if edgesAt win mx my ≠ 0 ∧ win.snapState = .none ∧ win.maximized = false then
    .edge (edgesAt win mx my)
  else .content

/-- The maximize button. -/
def toggleMaximize (screen : Screen) (win : WmWin) : WmWin :=
  if win.maximized = true ∨ win.snapState ≠ .none then
    { win with
      x := win.savedX, y := win.savedY, w := win.savedW, h := win.savedH
      maximized := false, snapState := .none }
  else
    { win with
      savedX := win.x, savedY := win.y, savedW := win.w, savedH := win.h
      x := 0, y := 0, w := screen.width, h := screen.height - taskbarHPx, maximized := true }

/-- What a press does to a window that was raised; a callback runs behind it. -/
def pressZone (screen : Screen) (state : WmState) (slot : Slot) (mx my : Int) : Zone → WmState
  | .closeButton => requestClose state (state.wins slot).id
  | .maxButton => state.setWin slot (toggleMaximize screen (state.wins slot))
  | .minButton => wmMinimize state (state.wins slot).id
  | .titlebar =>
    let win := state.wins slot
    state.setWin slot { win with
      dragging := true, dragMx := mx, dragMy := my, dragWx := win.x, dragWy := win.y }
  | .edge edges =>
    let win := state.wins slot
    state.setWin slot { win with
      resizing := true, resizeEdge := edges, resizeMx := mx, resizeMy := my
      dragWx := win.x, dragWy := win.y, resizeWw := win.w, resizeWh := win.h }
  | .content =>
    let win := state.wins slot
    state.setWin slot { win with contentDrag := win.mouseFn || win.contentDrag }

/-- Any click ends the content drags. -/
def endContentDrags (state : WmState) : WmState :=
  { state with wins := fun slot => { state.wins slot with contentDrag := false } }

/-- The hit test of a click. -/
def wmPress (screen : Screen) (state : WmState) (mx my : Int) : WmState :=
  match hitWin state mx my with
  | none => state
  | some slot =>
    let zone := zoneAt (state.wins slot) mx my
    pressZone screen (endContentDrags (wmRaise state (state.wins slot).id)) slot mx my zone

/-- `wm_handle_mouse` up to its drain, with the buttons now and before. -/
def wmHandleMouse (screen : Screen) (state : WmState) (mx my : Int) (btn pbtn : Nat) : WmState :=
  match if btn.testBit 0 then grabbed state else none with
  | some slot =>
    let win := state.wins slot
    state.setWin slot (if win.resizing then resizeWin screen win mx my
      else dragWin screen win mx my)
  | none =>
    let state := if btn = 0 ∧ pbtn ≠ 0 then
      { state with wins := fun slot => releaseWin (state.wins slot) } else state
    if btn ≠ 0 ∧ pbtn = 0 then wmPress screen state mx my else state

/-! ### Drawing -/

/-- One use of a content buffer: the rows and columns that are touched and the distance of two
rows, with the size of the allocation, whether it was freed, and the size the window keeps. -/
structure Access where
  bytes : Int
  freed : Bool
  lastCw : Int
  lastCh : Int
  rows : Int
  cols : Int
  pitch : Int

/-- The buffer of a window as a draw touches it. -/
def accessOf (state : WmState) (slot : Slot) (rows cols pitch : Int) : List Access :=
  match (state.wins slot).contentBuffer with
  | none => []
  | some buffer => [{
      bytes := state.bytes buffer, freed := decide (buffer ∈ state.freed)
      lastCw := (state.wins slot).lastCw, lastCh := (state.wins slot).lastCh
      rows := rows, cols := cols, pitch := pitch }]

/-- The grow-only content buffer of `draw_one`; `none` when `kmalloc` fails. That the window was
closed meanwhile cannot be, under `wm_lock`. -/
def ensureBuffer (state : WmState) (slot : Slot) (cw ch : Int) (memory : Bool) : Option WmState :=
  let win := state.wins slot
  if win.resizing = false ∧ (win.contentBuffer = none ∨ win.contentCap < cw * ch) then
    if memory then
      some { state.setWin slot { win with
          contentBuffer := some state.allocated, contentCap := cw * ch, bufferDirty := true } with
        allocated := state.allocated + 1
        bytes := Function.update state.bytes state.allocated (cw * ch * 4 % 2 ^ 32)
        freed := win.contentBuffer.toList ++ state.freed }
    else none
  else some state

/-- The change of size in `draw_one`, put off while the window is resized. -/
def commitSize (state : WmState) (slot : Slot) (cw ch : Int) : WmState :=
  let win := state.wins slot
  if win.lastCw = cw ∧ win.lastCh = ch then state
  else if win.resizing then state.setWin slot { win with bufferDirty := false }
  else state.setWin slot { win with lastCw := cw, lastCh := ch, bufferDirty := true }

/-- The render of `draw_one`: the buffer is the target, with the size of the window. -/
def renderWin (state : WmState) (slot : Slot) (cw ch : Int) : WmState × List Access :=
  let win := state.wins slot
  if win.contentBuffer ≠ none ∧ win.bufferDirty = true ∧ win.resizing = false then
    (state.setWin slot { win with bufferDirty := false }, accessOf state slot ch cw cw)
  else (state, [])

/-- The composition of `draw_one`: the part the buffer and the window share. -/
def blitWin (state : WmState) (slot : Slot) (cw ch : Int) : List Access :=
  let win := state.wins slot
  accessOf state slot (if win.lastCh < ch then win.lastCh else ch)
    (if win.lastCw < cw then win.lastCw else cw) win.lastCw

/-- `draw_one`, with whether the window meets the damage and whether `kmalloc` has memory. -/
def drawOne (state : WmState) (slot : Slot) (damaged memory : Bool) : WmState × List Access :=
  let win := state.wins slot
  let cw := win.w - 2
  let ch := win.h - titlebarH - 2
  if state.shown slot = false ∨ (win.bufferDirty || damaged) = false ∨ cw ≤ 0 ∨ ch ≤ 0 then
    (state, [])
  else
    match ensureBuffer state slot cw ch memory with
    | none => (state, [])
    | some state =>
      let state := commitSize state slot cw ch
      let (state, rendered) := renderWin state slot cw ch
      (state, rendered ++ blitWin state slot cw ch)

/-- Draw some windows, in order. -/
def drawSlots (damaged memory : Slot → Bool) : List Slot → WmState → WmState × List Access
  | [], state => (state, [])
  | slot :: rest, state =>
    let (state, first) := drawOne state slot (damaged slot) (memory slot)
    let (state, later) := drawSlots damaged memory rest state
    (state, first ++ later)

/-- `wm_draw_all`, with the clamp of the switcher. -/
def wmDrawAll (state : WmState) (damaged memory : Slot → Bool) : WmState × List Access :=
  let (state, accesses) := drawSlots damaged memory state.zorder (wmFlushFrees state)
  (if state.altTabActive = false ∨ state.zorder.length ≤ 1 then state else clampAltTab state,
    accesses)

/-- `wm_draw_window`. -/
def wmDrawWindow (state : WmState) (id : Int) (memory : Bool) : WmState × List Access :=
  let state := wmFlushFrees state
  match findWin state id with
  | none => (state, [])
  | some slot => drawOne state slot true memory

/-! ### The transition system -/

/-- One critical section of `wm_lock`, or a birth or death of a task. -/
inductive WmStep where
  | openWin (x y w h : Int) (mouseFn : Bool)
  | own (slot : Slot) (tid : Int)
  | close (id : Int)
  | requestClose (id : Int)
  | drain
  | cleanup (tid : Int)
  | spawn (tid : Int)
  | exit (tid : Int)
  | raise (id : Int)
  | minimize (id : Int)
  | restore (id : Int)
  | focusNext
  | altTabStart
  | altTabNext
  | altTabEnd
  | capture (id : Int) (on : Bool)
  | invalidate (id : Int)
  | mouse (mx my : Int) (btn pbtn : Nat)
  | drawAll (damaged memory : Slot → Bool)
  | drawWindow (id : Int) (memory : Bool)
  | resetSession

/-- The state behind a step. -/
def wmNext (screen : Screen) (state : WmState) : WmStep → WmState
  | .openWin x y w h mouseFn => (wmOpen screen state x y w h mouseFn).getD state
  | .own slot tid => ownWindow state slot tid
  | .close id => wmClose state id
  | .requestClose id => requestClose state id
  | .drain => wmDrainDeferredClose state
  | .cleanup tid => wmCleanupTask state tid
  | .spawn tid => { state with alive := Function.update state.alive tid true }
  | .exit tid => terminateTask state tid
  | .raise id => wmRaise state id
  | .minimize id => wmMinimize state id
  | .restore id => wmRestore state id
  | .focusNext => wmFocusNext state
  | .altTabStart => wmAltTabStart state
  | .altTabNext => wmAltTabNext state
  | .altTabEnd => wmAltTabEnd state
  | .capture id on => wmCaptureMouse state id on
  | .invalidate id => wmInvalidate state id
  | .mouse mx my btn pbtn => wmHandleMouse screen state mx my btn pbtn
  | .drawAll damaged memory => (wmDrawAll state damaged memory).1
  | .drawWindow id memory => (wmDrawWindow state id memory).1
  | .resetSession => wmResetSession state

/-- The window manager as a transition system, from the empty table of `wm_init`. -/
def wmSystem (screen : Screen) : Transition.System WmState WmStep :=
  Transition.System.ofStep (fun state => state = {})
    fun state label => some (wmNext screen state label)

end MectovOS.Wm
