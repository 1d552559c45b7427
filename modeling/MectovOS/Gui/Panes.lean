/-
This file is the abstract window table: what the invariants of the window manager
read of a window, and the invariants as statements about such tables, each with
the changes that keep it. Geometry, drags and snapping are no part of it.
-/

import MectovOS.Gui.Windows

namespace MectovOS.Wm

open Function

open Holders (held)

/-- What the invariants read of a window. -/
structure Pane where
  id : Int
  visible : Bool
  minimized : Bool
  captureMouse : Bool
  ownerTask : Int
  contentBuffer : Option Nat
  contentCap : Int
  lastCw : Int
  lastCh : Int

def WmWin.pane (win : WmWin) : Pane where
  id := win.id
  visible := win.visible
  minimized := win.minimized
  captureMouse := win.captureMouse
  ownerTask := win.ownerTask
  contentBuffer := win.contentBuffer
  contentCap := win.contentCap
  lastCw := win.lastCw
  lastCh := win.lastCh

abbrev Panes := Slot → Pane

def WmState.panes (state : WmState) : Panes := fun slot => (state.wins slot).pane

def Pane.shown (pane : Pane) : Bool := pane.visible && !pane.minimized

/-- The window once it is off the table. -/
def Pane.hide (pane : Pane) : Pane := { pane with visible := false, contentBuffer := none }

theorem mem_slots (slot : Slot) : slot ∈ slots := List.mem_finRange slot

theorem nodup_slots : slots.Nodup := List.nodup_finRange maxWindows

theorem panes_setWin (state : WmState) (slot : Slot) (win : WmWin) :
    (state.setWin slot win).panes = update state.panes slot win.pane := by
  ext1 other
  show (update state.wins slot win other).pane = _
  by_cases same : other = slot
  · rw [same, update_self, update_self]
  · rw [update_of_ne same, update_of_ne same]
    rfl

/-! ### Windows that leave, keep their name, or stay as they are -/

/-- No window comes to the table, and none is renamed. -/
def Shrinks (before after : Panes) : Prop :=
  ∀ slot, (after slot).visible = true →
    (before slot).visible = true ∧ (after slot).id = (before slot).id

theorem Shrinks.refl (panes : Panes) : Shrinks panes panes := fun _ shows => ⟨shows, rfl⟩

theorem Shrinks.trans {first second third : Panes} (early : Shrinks first second)
    (late : Shrinks second third) : Shrinks first third := fun slot shows =>
  ⟨(early slot (late slot shows).1).1,
    (late slot shows).2.trans (early slot (late slot shows).1).2⟩

/-- One window changes, but stays what it is or leaves. -/
theorem Shrinks.update {panes : Panes} {slot : Slot} {pane : Pane}
    (kept : pane.visible = true → (panes slot).visible = true ∧ pane.id = (panes slot).id) :
    Shrinks panes (Function.update panes slot pane) := by
  intro other shows
  by_cases same : other = slot
  · rw [same, Function.update_self] at shows ⊢
    exact kept shows
  · rw [Function.update_of_ne same] at shows ⊢
    exact ⟨shows, rfl⟩

/-- Is a window with this id on the table? -/
def Opened (panes : Panes) (id : Int) : Prop :=
  ∃ slot, (panes slot).visible = true ∧ (panes slot).id = id

theorem Shrinks.opened {before after : Panes} (shrinks : Shrinks before after) {id : Int}
    (opened : Opened after id) : Opened before id := by
  obtain ⟨slot, shows, named⟩ := opened
  exact ⟨slot, (shrinks slot shows).1, (shrinks slot shows).2.symm.trans named⟩

/-! ### The z-order -/

/-- The z-order lists exactly the visible windows, each once. -/
structure Stacked (panes : Panes) (zorder : List Slot) : Prop where
  nodup : zorder.Nodup
  mem : ∀ slot, slot ∈ zorder ↔ (panes slot).visible = true

theorem length_le_slots {zorder : List Slot} (nodup : zorder.Nodup) :
    zorder.length ≤ maxWindows := by
  have bound := nodup.length_le_card
  rwa [Fintype.card_fin] at bound

namespace Stacked

variable {panes after : Panes} {zorder other : List Slot}

theorem congr (stacked : Stacked panes zorder)
    (same : ∀ slot, (after slot).visible = (panes slot).visible) : Stacked after zorder :=
  ⟨stacked.nodup, fun slot => by rw [same]; exact stacked.mem slot⟩

theorem perm (stacked : Stacked panes zorder) (permuted : other.Perm zorder) :
    Stacked panes other :=
  ⟨permuted.nodup_iff.mpr stacked.nodup, fun slot => permuted.mem_iff.trans (stacked.mem slot)⟩

/-- There is room behind a list from which a slot was taken. -/
theorem erase_length (stacked : Stacked panes zorder) {slot : Slot}
    (shows : (panes slot).visible = true) : (zorder.erase slot).length < maxWindows := by
  have member := (stacked.mem slot).mpr shows
  have shorter := List.length_erase_add_one member
  have bound := length_le_slots stacked.nodup
  omega

theorem raise (stacked : Stacked panes zorder) {slot : Slot}
    (shows : (panes slot).visible = true) : Stacked panes (zorder.erase slot ++ [slot]) :=
  stacked.perm ((List.perm_append_singleton slot _).trans
    (List.perm_cons_erase ((stacked.mem slot).mpr shows)).symm)

/-- The top goes to the bottom. -/
theorem rotate (stacked : Stacked panes zorder) {top : Slot} (last : zorder.getLast? = some top) :
    Stacked panes (top :: zorder.dropLast) := by
  refine stacked.perm ?_
  have whole := List.dropLast_append_getLast? top last
  exact (List.perm_append_singleton top _).symm.trans (List.Perm.of_eq whole)

/-- A slot that was free comes on top. -/
theorem push (stacked : Stacked panes zorder) {slot : Slot} {pane : Pane}
    (hidden : (panes slot).visible = false) (shows : pane.visible = true) :
    zorder.length < maxWindows ∧
      Stacked (update panes slot pane) (zorder ++ [slot]) := by
  have absent : slot ∉ zorder := fun member => by
    have visible := (stacked.mem slot).mp member
    rw [hidden] at visible
    exact Bool.false_ne_true visible
  have nodup : (zorder ++ [slot]).Nodup :=
    (List.perm_append_singleton slot zorder).nodup_iff.mpr (List.nodup_cons.mpr
      ⟨absent, stacked.nodup⟩)
  have bound := length_le_slots nodup
  rw [List.length_append, List.length_singleton] at bound
  refine ⟨bound, nodup, fun other => ?_⟩
  rw [List.mem_append, List.mem_singleton, stacked.mem other]
  by_cases same : other = slot
  · rw [same, update_self]
    exact iff_of_true (Or.inr rfl) shows
  · rw [update_of_ne same]
    exact or_iff_left same

end Stacked

/-! ### The names -/

/-- The largest `int`. -/
def intMax : Int := 2 ^ 31 - 1

/-- The ids on the table are positive, below the next one, and different. -/
structure Named (panes : Panes) (nextId : Int) (requested : List Int) : Prop where
  next : 1 ≤ nextId ∧ nextId ≤ intMax
  range : ∀ slot, (panes slot).visible = true → 1 ≤ (panes slot).id ∧ (panes slot).id < nextId
  unique : ∀ first second, (panes first).visible = true → (panes second).visible = true →
    (panes first).id = (panes second).id → first = second
  asked : ∀ id ∈ requested, id < nextId

namespace Named

variable {panes after : Panes} {nextId : Int} {requested : List Int}

theorem shrinks (named : Named panes nextId requested) (shrinks : Shrinks panes after) :
    Named after nextId requested where
  next := named.next
  range slot shows := by
    obtain ⟨before, same⟩ := shrinks slot shows
    rw [same]
    exact named.range slot before
  unique first second shows other same := by
    obtain ⟨before, kept⟩ := shrinks first shows
    obtain ⟨otherBefore, otherKept⟩ := shrinks second other
    exact named.unique first second before otherBefore (kept.symm.trans (same.trans otherKept))
  asked := named.asked

theorem ask (named : Named panes nextId requested) {id : Int} (opened : Opened panes id) :
    Named panes nextId (id :: requested) where
  next := named.next
  range := named.range
  unique := named.unique
  asked other member := by
    obtain ⟨slot, shows, rfl⟩ := opened
    rcases List.mem_cons.mp member with rfl | later
    · exact (named.range slot shows).2
    · exact named.asked other later

theorem intSucc_eq {value : Int} (positive : 1 ≤ value) (small : value < intMax) :
    intSucc value = value + 1 := by
  unfold intSucc
  unfold intMax at small
  exact Int.bmod_eq_of_le (by omega) (by omega)

/-- A new window takes the next id. -/
theorem push (named : Named panes nextId requested) (small : nextId < intMax) {slot : Slot}
    {pane : Pane} (fresh : pane.id = nextId) :
    Named (update panes slot pane) (intSucc nextId) requested := by
  have positive := named.next.1
  rw [intSucc_eq positive small]
  have known : ∀ other, (update panes slot pane other).visible = true → other ≠ slot →
      update panes slot pane other = panes other ∧ (panes other).visible = true := by
    intro other shows apart
    rw [update_of_ne apart] at shows ⊢
    exact ⟨rfl, shows⟩
  refine ⟨⟨by omega, by omega⟩, fun other shows => ?_, fun first second shows other same => ?_,
    fun id member => (named.asked id member).trans (by omega)⟩
  · by_cases same : other = slot
    · rw [same, update_self, fresh]
      exact ⟨positive, by omega⟩
    · obtain ⟨kept, before⟩ := known other shows same
      rw [kept]
      exact ⟨(named.range other before).1, (named.range other before).2.trans (by omega)⟩
  · by_cases left : first = slot <;> by_cases right : second = slot
    · exact left.trans right.symm
    · obtain ⟨kept, before⟩ := known second other right
      rw [left, update_self, fresh, kept] at same
      exact absurd (named.range second before).2 (by omega)
    · obtain ⟨kept, before⟩ := known first shows left
      rw [right, update_self, fresh, kept] at same
      exact absurd (named.range first before).2 (by omega)
    · obtain ⟨kept, before⟩ := known first shows left
      obtain ⟨otherKept, otherBefore⟩ := known second other right
      rw [kept, otherKept] at same
      exact named.unique first second before otherBefore same

end Named

/-! ### Focus, capture, owners and requests -/

/-- The focus is a window on the screen, or -1 when there is none. -/
structure Focused (panes : Panes) (focused : Int) : Prop where
  onScreen : focused = -1 ∨ ∃ slot, (panes slot).shown = true ∧ (panes slot).id = focused
  last : focused = -1 → ∀ slot, (panes slot).shown = false

theorem Focused.of_shown {panes : Panes} {nextId focused : Int} {requested : List Int}
    (named : Named panes nextId requested) {slot : Slot} (shown : (panes slot).shown = true)
    (same : (panes slot).id = focused) : Focused panes focused := by
  refine ⟨Or.inr ⟨slot, shown, same⟩, fun nobody => ?_⟩
  have positive := (named.range slot (Bool.and_eq_true_iff.mp shown).1).1
  rw [same, nobody] at positive
  exact absurd positive (by decide)

theorem Focused.congr {panes after : Panes} {focused : Int} (holds : Focused panes focused)
    (shown : ∀ slot, (after slot).shown = (panes slot).shown)
    (named : ∀ slot, (after slot).id = (panes slot).id) : Focused after focused := by
  refine ⟨holds.onScreen.imp_right ?_, fun nobody slot => ?_⟩
  · rintro ⟨slot, there, same⟩
    exact ⟨slot, (shown slot).trans there, (named slot).trans same⟩
  · rw [shown]
    exact holds.last nobody slot

/-- At most one window captures the mouse. -/
def Captured (panes : Panes) : Prop :=
  ∀ first second, (panes first).captureMouse = true → (panes second).captureMouse = true →
    first = second

theorem Captured.mono {panes after : Panes} (captured : Captured panes)
    (fewer : ∀ slot, (after slot).captureMouse = true → (panes slot).captureMouse = true) :
    Captured after := fun first second one two =>
  captured first second (fewer first one) (fewer second two)

/-- The owner of a window is alive. -/
def Owned (panes : Panes) (alive : Int → Bool) : Prop :=
  ∀ slot, (panes slot).visible = true → 0 < (panes slot).ownerTask →
    alive (panes slot).ownerTask = true

theorem Owned.mono {panes after : Panes} {alive : Int → Bool} (owned : Owned panes alive)
    (kept : ∀ slot, (after slot).visible = true → 0 < (after slot).ownerTask →
      (panes slot).visible = true ∧ (after slot).ownerTask = (panes slot).ownerTask) :
    Owned after alive := by
  intro slot shows foreign
  obtain ⟨before, same⟩ := kept slot shows foreign
  rw [same] at foreign ⊢
  exact owned slot before foreign

/-- A window whose close was asked for is gone, or the next one to be closed. -/
def Asked (panes : Panes) (requested : List Int) (deferred : Int) : Prop :=
  ∀ id ∈ requested, Opened panes id → deferred = id

theorem Asked.shrinks {panes after : Panes} {requested : List Int} {deferred : Int}
    (asked : Asked panes requested deferred) (shrinks : Shrinks panes after) :
    Asked after requested deferred := fun id member opened =>
  asked id member (shrinks.opened opened)

/-! ### The content buffers -/

/-- The buffers of the windows. -/
def buffersOf (panes : Panes) : List Nat := held slots fun slot => (panes slot).contentBuffer

/-- Every buffer that was ever allocated belongs to one visible window, waits for the flush, or
was freed, once; and the windows leave room for all of theirs on the list. -/
structure Ledger (panes : Panes) (freeList freed : List Nat) (allocated : Nat) : Prop where
  visible : ∀ slot, (panes slot).visible = false → (panes slot).contentBuffer = none
  whole : (buffersOf panes ++ (freeList ++ freed)).Perm (List.range allocated)
  room : (buffersOf panes).length + freeList.length ≤ maxWindows

/-- The buffers of the other windows. -/
def otherBuffers (panes : Panes) (slot : Slot) : List Nat :=
  held (slots.erase slot) fun other => (panes other).contentBuffer

theorem buffersOf_perm (panes : Panes) (slot : Slot) :
    (buffersOf panes).Perm ((panes slot).contentBuffer.toList ++ otherBuffers panes slot) :=
  Holders.held_perm (mem_slots slot) _

theorem buffersOf_update_perm (panes : Panes) (slot : Slot) (pane : Pane) :
    (buffersOf (update panes slot pane)).Perm
      (pane.contentBuffer.toList ++ otherBuffers panes slot) := by
  have changed := Holders.held_update_perm nodup_slots (mem_slots slot)
    (fun other => (panes other).contentBuffer) pane.contentBuffer
  refine (List.Perm.of_eq (congrArg (held slots) (funext fun other => ?_))).trans changed
  exact Function.apply_update (fun _ one => one.contentBuffer) panes slot pane other

namespace Ledger

variable {panes after : Panes} {freeList freed : List Nat} {allocated : Nat}

theorem congr (ledger : Ledger panes freeList freed allocated)
    (same : ∀ slot, (after slot).contentBuffer = (panes slot).contentBuffer)
    (hidden : ∀ slot, (after slot).visible = false → (panes slot).visible = false) :
    Ledger after freeList freed allocated := by
  have buffers : buffersOf after = buffersOf panes := congrArg (held slots) (funext same)
  refine ⟨fun slot off => (same slot).trans (ledger.visible slot (hidden slot off)), ?_, ?_⟩
  · rw [buffers]
    exact ledger.whole
  · rw [buffers]
    exact ledger.room

theorem flush (ledger : Ledger panes freeList freed allocated) :
    Ledger panes [] (freeList ++ freed) allocated :=
  ⟨ledger.visible, ledger.whole, Nat.le_trans (Nat.le_add_right _ _) ledger.room⟩

theorem buffer_mem {slot : Slot} {buffer : Nat}
    (holds : (panes slot).contentBuffer = some buffer) : buffer ∈ buffersOf panes :=
  Holders.mem_held.mpr ⟨slot, mem_slots slot, holds⟩

/-- A buffer of a window was allocated, and was not freed. -/
theorem live (ledger : Ledger panes freeList freed allocated) {slot : Slot} {buffer : Nat}
    (holds : (panes slot).contentBuffer = some buffer) : buffer < allocated ∧ buffer ∉ freed := by
  have listed := buffer_mem holds
  have nodup : (buffersOf panes ++ (freeList ++ freed)).Nodup :=
    ledger.whole.nodup_iff.mpr List.nodup_range
  refine ⟨List.mem_range.mp (ledger.whole.mem_iff.mp (List.mem_append_left _ listed)), ?_⟩
  intro dead
  exact List.disjoint_of_nodup_append nodup listed (List.mem_append_right _ dead)

/-- One window gives its buffer to the flush or to the heap, or takes a new one. -/
theorem exchange (ledger : Ledger panes freeList freed allocated) {slot : Slot} {pane : Pane}
    {freeAfter freedAfter : List Nat} {allocatedAfter : Nat}
    (hidden : pane.visible = false → pane.contentBuffer = none)
    (whole : (pane.contentBuffer.toList ++ (freeAfter ++ freedAfter)).Perm
      ((panes slot).contentBuffer.toList ++ (freeList ++ freed) ++
        List.range' allocated (allocatedAfter - allocated)))
    (grows : allocated ≤ allocatedAfter)
    (room : (buffersOf (update panes slot pane)).length + freeAfter.length ≤ maxWindows) :
    Ledger (update panes slot pane) freeAfter freedAfter allocatedAfter := by
  refine ⟨fun other off => ?_, ?_, room⟩
  · by_cases same : other = slot
    · rw [same, update_self] at off ⊢
      exact hidden off
    · rw [update_of_ne same] at off ⊢
      exact ledger.visible other off
  have aside : ∀ first second third : List Nat,
      (first ++ second ++ third).Perm (second ++ (first ++ third)) := by
    intro first second third
    rw [← List.append_assoc]
    exact List.perm_append_comm.append_right third
  have before := ((buffersOf_perm panes slot).append_right (freeList ++ freed)).symm.trans
    ledger.whole
  have numbers : List.range allocatedAfter =
      List.range allocated ++ List.range' allocated (allocatedAfter - allocated) := by
    have joined : List.range' 0 allocated ++
        List.range' (0 + allocated) (allocatedAfter - allocated) =
          List.range' 0 (allocated + (allocatedAfter - allocated)) := List.range'_append_1
    rw [Nat.zero_add, Nat.add_sub_cancel' grows] at joined
    rw [List.range_eq_range', List.range_eq_range']
    exact joined.symm
  rw [numbers]
  calc buffersOf (update panes slot pane) ++ (freeAfter ++ freedAfter)
      |>.Perm (pane.contentBuffer.toList ++ otherBuffers panes slot ++ (freeAfter ++ freedAfter)) :=
        (buffersOf_update_perm panes slot pane).append_right _
    _ |>.Perm (otherBuffers panes slot ++ (pane.contentBuffer.toList ++
        (freeAfter ++ freedAfter))) := aside _ _ _
    _ |>.Perm (otherBuffers panes slot ++ ((panes slot).contentBuffer.toList ++
        (freeList ++ freed) ++ List.range' allocated (allocatedAfter - allocated))) :=
        whole.append_left _
    _ |>.Perm (List.range allocated ++ List.range' allocated (allocatedAfter - allocated)) := by
        rw [← List.append_assoc]
        exact (((aside _ _ _).symm.trans before)).append_right _

end Ledger

/-- A buffer holds the size that its window keeps. -/
def Sized (panes : Panes) (bytes : Nat → Int) : Prop :=
  ∀ slot buffer, (panes slot).contentBuffer = some buffer →
    0 < (panes slot).lastCw ∧ 0 < (panes slot).lastCh ∧
      (panes slot).lastCw * (panes slot).lastCh ≤ (panes slot).contentCap ∧
      (panes slot).contentCap * 4 = bytes buffer

theorem Sized.congr {panes after : Panes} {bytes : Nat → Int} (sized : Sized panes bytes)
    (same : ∀ slot, (after slot).contentBuffer = none ∨
      (after slot).contentBuffer = (panes slot).contentBuffer ∧
        (after slot).contentCap = (panes slot).contentCap ∧
        (after slot).lastCw = (panes slot).lastCw ∧ (after slot).lastCh = (panes slot).lastCh) :
    Sized after bytes := by
  intro slot buffer holds
  rcases same slot with gone | ⟨buffers, cap, width, height⟩
  · rw [gone] at holds
    cases holds
  · rw [cap, width, height]
    exact sized slot buffer (buffers.symm.trans holds)

end MectovOS.Wm
