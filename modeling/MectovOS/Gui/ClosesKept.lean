/-
This file proves that the ways a window is closed keep the invariants of the
window table: the close of a kernel window, the kill of the task that owns one,
the request that waits for the lock, its drain, and the reset of a session.
-/

import MectovOS.Gui.WindowsKept

namespace MectovOS.Wm

open Function (update update_of_ne update_self)

variable {screen : Screen} {state after : WmState}

/-! ### One close -/

/-- Windows were closed, and the focus went to the top of those that are left. -/
structure Closed (before after : WmState) (gone : Slot → Bool) : Prop where
  steady : Steady after
  stacked : Stacked after.panes after.zorder
  focused : topOnScreen before (before.zorder.filter fun slot => !gone slot) = true →
    Focused after.panes after.focused
  shrinks : Shrinks before.panes after.panes
  off : ∀ slot, gone slot = true → (after.panes slot).visible = false
  requested : after.requested = before.requested
  deferred : after.deferredCloseId = before.deferredCloseId

theorem Left.closed {gone : Slot → Bool} (left : Left state after gone)
    (stacked : Stacked state.panes state.zorder) : Closed state (refocusTop after) gone :=
  ⟨left.steady.refocusTop, left.stacked stacked, left.refocused stacked, left.shrinks, left.off,
    left.requested, left.deferred⟩

/-- No window of the task is left. -/
theorem Left.noneOwned {tid : Int} (left : Left state after (ownedBy state tid)) (slot : Slot)
    (shows : (after.panes slot).visible = true) : (after.panes slot).ownerTask ≠ tid := by
  intro same
  have kept : ownedBy state tid slot = false :=
    Bool.eq_false_iff.mpr fun gone => Bool.false_ne_true ((left.off slot gone).symm.trans shows)
  rw [left.kept slot kept] at shows same
  exact Bool.false_ne_true (kept.symm.trans
    (Bool.and_eq_true_iff.mpr ⟨shows, beq_iff_eq.mpr same⟩))

/-- The windows of a task leave, and the task dies. -/
theorem Left.terminated {tid : Int} (left : Left state after (ownedBy state tid))
    (stacked : Stacked state.panes state.zorder) :
    Closed state { refocusTop after with alive := update after.alive tid false }
      (ownedBy state tid) := by
  have closed := left.closed stacked
  have owned : Owned after.panes (update after.alive tid false) := by
    intro slot shows foreign
    rw [update_of_ne (left.noneOwned slot shows)]
    exact closed.steady.owned slot shows foreign
  exact ⟨⟨closed.steady.named, closed.steady.captured, owned, closed.steady.ledger,
    closed.steady.sized, closed.steady.bounded⟩, closed.stacked, closed.focused, closed.shrinks,
    closed.off, closed.requested, closed.deferred⟩

/-- The windows of a task go with it. -/
theorem closed_terminateTask (steady : Steady state)
    (stacked : Stacked state.panes state.zorder) {tid : Int} (positive : 0 < tid)
    (living : state.alive tid = true) :
    Closed state (terminateTask state tid) (ownedBy state tid) := by
  have awake : ¬(tid ≤ 0 ∨ state.alive tid = false) := by
    rintro (low | dead)
    · exact absurd positive (not_lt.mpr low)
    · exact Bool.false_ne_true (dead.symm.trans living)
  unfold terminateTask wmCleanupTask
  rw [if_neg awake]
  exact (Left.owned steady stacked.nodup tid).terminated stacked

/-- Is the topmost window on the screen, once the window is closed or its owner killed? -/
def closeKeepsFocus (state : WmState) (id : Int) : Bool :=
  match findWin state id with
  | none => true
  | some slot =>
    if 0 < (state.wins slot).ownerTask then cleanupKeepsFocus state (state.wins slot).ownerTask
    else topOnScreen state (state.zorder.filter fun other => !(other == slot))

/-- A window without an owner is closed at once. -/
theorem wmCloseUnlocked_kernel {id : Int} {slot : Slot} (found : findWin state id = some slot)
    (kernel : ¬0 < (state.wins slot).ownerTask) :
    wmCloseUnlocked state id = (refocusTop (hideWin (clearGameInput state slot) slot), 0) := by
  have owner : ((clearGameInput state slot).wins slot).ownerTask = (state.wins slot).ownerTask := by
    rw [wins_clear]
  unfold wmCloseUnlocked
  rw [found]
  dsimp only
  rw [owner, if_neg kernel]

/-- A window of a task is left to the kill. -/
theorem wmCloseUnlocked_owned {id : Int} {slot : Slot} (found : findWin state id = some slot)
    (foreign : 0 < (state.wins slot).ownerTask) :
    wmCloseUnlocked state id = (clearGameInput state slot, (state.wins slot).ownerTask) := by
  have owner : ((clearGameInput state slot).wins slot).ownerTask = (state.wins slot).ownerTask := by
    rw [wins_clear]
  unfold wmCloseUnlocked
  rw [found]
  dsimp only
  rw [owner, if_pos foreign]

/-- What decides about the focus does not depend on the capture. -/
theorem cleanupKeepsFocus_clear (state : WmState) (slot : Slot) (tid : Int) :
    cleanupKeepsFocus (clearGameInput state slot) tid = cleanupKeepsFocus state tid := by
  have owners : ownedBy (clearGameInput state slot) tid = ownedBy state tid := funext fun other =>
    congrArg₂ (fun shows owner => shows && owner == tid) (alike_clear state slot other).visible
      (alike_clear state slot other).ownerTask
  unfold cleanupKeepsFocus
  rw [topOnScreen_congr (minimized_clear state slot), owners]
  rfl

/-- A close leaves no window with the id. -/
structure ClosedId (before after : WmState) (id : Int) : Prop where
  steady : Steady after
  stacked : Stacked after.panes after.zorder
  focused : closeKeepsFocus before id = true → Focused before.panes before.focused →
    Focused after.panes after.focused
  shrinks : Shrinks before.panes after.panes
  gone : ¬Opened after.panes id
  requested : ∀ other ∈ after.requested, other = id ∨ other ∈ before.requested
  deferred : after.deferredCloseId = before.deferredCloseId

/-- The windows that left were the ones with the id. -/
theorem Closed.gone {gone : Slot → Bool} (closed : Closed state after gone)
    (named : Named state.panes state.nextId state.requested) {id : Int} {slot : Slot}
    (found : findWin state id = some slot) (leaves : gone slot = true) :
    ¬Opened after.panes id := by
  rintro ⟨other, shows, same⟩
  obtain ⟨visible, known⟩ := findWin_some found
  obtain ⟨before, kept⟩ := closed.shrinks other shows
  have one := named.unique other slot before visible (kept.symm.trans (same.trans known.symm))
  rw [one, closed.off slot leaves] at shows
  exact Bool.false_ne_true shows

/-- The part of `wm_close` behind the count of what was asked for. -/
def closeNow (state : WmState) (id : Int) : WmState :=
  if 0 < (wmCloseUnlocked state id).2 then
    terminateTask (wmCloseUnlocked state id).1 (wmCloseUnlocked state id).2
  else (wmCloseUnlocked state id).1

theorem closedId_closeNow (steady : Steady state) (stacked : Stacked state.panes state.zorder)
    {id : Int} {slot : Slot} (found : findWin state id = some slot) :
    ClosedId state (closeNow state id) id := by
  obtain ⟨shows, -⟩ := findWin_some found
  unfold closeNow
  by_cases foreign : 0 < (state.wins slot).ownerTask
  · have keeps : closeKeepsFocus state id = cleanupKeepsFocus state (state.wins slot).ownerTask := by
      unfold closeKeepsFocus
      rw [found]
      exact if_pos foreign
    rw [wmCloseUnlocked_owned found foreign]
    dsimp only
    rw [if_pos foreign]
    have cleared : Steady (clearGameInput state slot) := steady.restyle (alike_clear state slot)
    have restacked : Stacked (clearGameInput state slot).panes (clearGameInput state slot).zorder :=
      stacked.congr fun other => (alike_clear state slot other).visible
    have closed := closed_terminateTask cleared restacked foreign (steady.owned slot shows foreign)
    have owner := ownedBy_iff.mpr
      ⟨(alike_clear state slot slot).visible.trans shows, (alike_clear state slot slot).ownerTask⟩
    refine ⟨closed.steady, closed.stacked, fun kept _ => ?_, ?_, ?_,
      fun other member => Or.inr (closed.requested ▸ member), closed.deferred⟩
    · refine closed.focused ?_
      exact (cleanupKeepsFocus_clear state slot _).trans (keeps.symm.trans kept)
    · exact (shrinks_restyle fun other => (alike_clear state slot other).toSimilar).trans
        closed.shrinks
    · exact closed.gone cleared.named ((findWin_alike (alike_clear state slot) id).trans found) owner
  · have keeps : closeKeepsFocus state id =
        topOnScreen state (state.zorder.filter fun other => !(other == slot)) := by
      unfold closeKeepsFocus
      rw [found]
      exact if_neg foreign
    rw [wmCloseUnlocked_kernel found foreign]
    dsimp only
    rw [if_neg (lt_irrefl 0)]
    have closed := (Left.one steady stacked.nodup slot).closed stacked
    exact ⟨closed.steady, closed.stacked, fun kept _ => closed.focused (keeps.symm.trans kept),
      closed.shrinks, closed.gone steady.named found (beq_self_eq_true slot),
      fun other member => Or.inr (closed.requested ▸ member), closed.deferred⟩

theorem closedId_wmClose (steady : Steady state) (stacked : Stacked state.panes state.zorder)
    (id : Int) : ClosedId state (wmClose state id) id := by
  show ClosedId state (closeNow (askClose state id) id) id
  cases found : findWin state id with
  | none =>
    have unopened : state.isOpen id = false := congrArg Option.isSome found
    unfold askClose closeNow wmCloseUnlocked
    rw [if_neg (Bool.eq_false_iff.mp unopened), found]
    exact ⟨steady, stacked, fun _ focused => focused, Shrinks.refl _, findWin_none found,
      fun _ member => Or.inr member, rfl⟩
  | some slot =>
    obtain ⟨shows, named⟩ := findWin_some found
    have opened : state.isOpen id = true := congrArg Option.isSome found
    have asked : Steady { state with requested := id :: state.requested } :=
      ⟨steady.named.ask (isOpen_iff.mp opened), steady.captured, steady.owned, steady.ledger,
        steady.sized, steady.bounded⟩
    have closed := closedId_closeNow asked stacked found
    unfold askClose
    rw [if_pos opened]
    refine ⟨closed.steady, closed.stacked, closed.focused, closed.shrinks, closed.gone,
      fun other member => ?_, closed.deferred⟩
    rcases closed.requested other member with same | before
    · exact Or.inl same
    · exact List.mem_cons.mp before

/-- A close by a caller that does not hold the lock. -/
theorem Sound.close (sound : Sound state) {id : Int} (keeps : closeKeepsFocus state id = true) :
    Sound (wmClose state id) := by
  have closed := closedId_wmClose sound.standing.steady sound.standing.stacked id
  refine ⟨⟨closed.steady, closed.stacked, fun other member opened => ?_⟩,
    closed.focused keeps sound.focused⟩
  rw [closed.deferred]
  rcases closed.requested other member with rfl | before
  · exact absurd opened closed.gone
  · exact sound.standing.asked other before (closed.shrinks.opened opened)

/-! ### A request and its drain -/

/-- No other close waits, or only of a window that is gone. -/
def requestKeepsPending (state : WmState) (id : Int) : Bool :=
  !state.isOpen state.deferredCloseId || state.deferredCloseId == id

theorem Sound.request (sound : Sound state) {id : Int}
    (keeps : requestKeepsPending state id = true) : Sound (requestClose state id) := by
  have steady := sound.standing.steady
  have pending : ∀ other ∈ state.requested, Opened state.panes other → id = other := by
    intro other member opened
    have waits := sound.standing.asked other member opened
    rcases Bool.or_eq_true_iff.mp keeps with closed | same
    · rw [waits, isOpen_iff.mpr opened] at closed
      cases closed
    · exact (eq_of_beq same).symm.trans waits
  unfold requestClose askClose
  split_ifs with opened
  · have asked : Asked state.panes (id :: state.requested) id := by
      intro other member visible
      rcases List.mem_cons.mp member with rfl | before
      · rfl
      · exact pending other before visible
    exact ⟨⟨⟨steady.named.ask (isOpen_iff.mp opened), steady.captured, steady.owned,
      steady.ledger, steady.sized, steady.bounded⟩, sound.standing.stacked, asked⟩, sound.focused⟩
  · exact ⟨⟨⟨steady.named, steady.captured, steady.owned, steady.ledger, steady.sized,
      steady.bounded⟩, sound.standing.stacked, pending⟩, sound.focused⟩

/-- The drain carries out what was asked for. -/
theorem Sound.drained (sound : Sound state) :
    ∀ id ∈ state.requested, ¬Opened (wmDrainDeferredClose state).panes id := by
  have steady := sound.standing.steady
  intro id member opened
  unfold wmDrainDeferredClose at opened
  split_ifs at opened with idle
  · have waits := sound.standing.asked id member opened
    obtain ⟨slot, shows, rfl⟩ := opened
    have positive := (steady.named.range slot shows).1
    omega
  · have drained : Steady { state with deferredCloseId := -1 } :=
      ⟨steady.named, steady.captured, steady.owned, steady.ledger, steady.sized, steady.bounded⟩
    have closed := closedId_wmClose drained sound.standing.stacked state.deferredCloseId
    have waits := sound.standing.asked id member (closed.shrinks.opened opened)
    exact closed.gone (waits ▸ opened)

theorem Sound.drain (sound : Sound state)
    (keeps : closeKeepsFocus state state.deferredCloseId = true) :
    Sound (wmDrainDeferredClose state) := by
  have steady := sound.standing.steady
  have drained : Steady { state with deferredCloseId := -1 } :=
    ⟨steady.named, steady.captured, steady.owned, steady.ledger, steady.sized, steady.bounded⟩
  have closed := closedId_wmClose drained sound.standing.stacked state.deferredCloseId
  have gone := sound.drained
  unfold wmDrainDeferredClose at gone ⊢
  split_ifs at gone ⊢ with idle
  · exact sound
  · refine ⟨⟨closed.steady, closed.stacked, fun id member opened => ?_⟩,
      closed.focused keeps sound.focused⟩
    rcases closed.requested id member with rfl | before
    · exact absurd opened closed.gone
    · exact absurd opened (gone id before)

/-! ### Owners and captures -/

/-- A task dies without leaving a minimized window on top. -/
def exitKeepsFocus (state : WmState) (tid : Int) : Bool :=
  decide (tid ≤ 0) || !state.alive tid || cleanupKeepsFocus state tid

theorem Sound.exit (sound : Sound state) {tid : Int} (keeps : exitKeepsFocus state tid = true) :
    Sound (terminateTask state tid) := by
  by_cases gone : tid ≤ 0 ∨ state.alive tid = false
  · unfold terminateTask
    rw [if_pos gone]
    exact sound
  · obtain ⟨positive, living⟩ := not_or.mp gone
    have awake : state.alive tid = true := Bool.eq_true_of_not_eq_false living
    have kept : cleanupKeepsFocus state tid = true := by
      unfold exitKeepsFocus at keeps
      rwa [decide_eq_false positive, awake] at keeps
    have closed := closed_terminateTask sound.standing.steady sound.standing.stacked
      (not_le.mp positive) awake
    refine ⟨⟨closed.steady, closed.stacked, ?_⟩, closed.focused kept⟩
    rw [closed.requested, closed.deferred]
    exact sound.standing.asked.shrinks closed.shrinks

theorem Sound.spawn (sound : Sound state) (tid : Int) :
    Sound { state with alive := update state.alive tid true } := by
  have steady := sound.standing.steady
  have owned : Owned state.panes (update state.alive tid true) := by
    intro slot shows foreign
    by_cases same : (state.panes slot).ownerTask = tid
    · rw [same, update_self]
    · rw [update_of_ne same]
      exact steady.owned slot shows foreign
  exact ⟨⟨⟨steady.named, steady.captured, owned, steady.ledger, steady.sized, steady.bounded⟩,
    sound.standing.stacked, sound.standing.asked⟩, sound.focused⟩

/-- A slot goes to a task that is alive. -/
theorem Sound.own (sound : Sound state) (slot : Slot) {tid : Int}
    (living : 0 < tid → state.alive tid = true) : Sound (ownWindow state slot tid) := by
  have steady := sound.standing.steady
  have elsewhere : ∀ other, other ≠ slot → update state.wins slot
      { state.wins slot with ownerTask := tid } other = state.wins other :=
    fun other apart => update_of_ne apart _ _
  refine sound.similar (fun other => ?_) ?_ ?_ fun other => ?_
  · by_cases same : other = slot
    · rw [same, update_self]
      exact ⟨rfl, rfl, rfl, rfl, rfl, rfl, fun bounded =>
        ⟨bounded.w, bounded.h, bounded.savedW, bounded.savedH⟩⟩
    · rw [elsewhere other same]
      exact (Alike.refl _).toSimilar
  · refine steady.captured.mono fun other captures => ?_
    by_cases same : other = slot
    · rw [same, update_self] at captures
      rw [same]
      exact captures
    · rwa [elsewhere other same] at captures
  · intro other shows foreign
    dsimp only at shows foreign ⊢
    by_cases same : other = slot
    · rw [same, update_self] at foreign ⊢
      exact living foreign
    · rw [elsewhere other same] at shows foreign ⊢
      exact steady.owned other shows foreign
  · by_cases same : other = slot
    · rw [same, update_self]
    · rw [elsewhere other same]

/-- A capture is taken from whoever has it. -/
theorem Sound.capture (sound : Sound state) (id : Int) (on : Bool) :
    Sound (wmCaptureMouse state id on) := by
  unfold wmCaptureMouse
  split
  · exact sound
  · rename_i slot found
    split_ifs with wanted has has
    · exact sound
    · refine sound.similar (fun other => ⟨rfl, rfl, rfl, rfl, rfl, rfl, fun bounded =>
        ⟨bounded.w, bounded.h, bounded.savedW, bounded.savedH⟩⟩) (fun first second one two => ?_)
        (fun other shows foreign => sound.standing.steady.owned other shows foreign) fun other => rfl
      exact (of_decide_eq_true one).trans (of_decide_eq_true two).symm
    · exact sound.restyle (alike_clear state slot) (minimized_clear state slot)
    · exact sound

theorem Sound.invalidate (sound : Sound state) (id : Int) : Sound (wmInvalidate state id) := by
  unfold wmInvalidate
  split
  · exact sound
  · exact sound.restyleOne ⟨⟨rfl, rfl, rfl, rfl, rfl, rfl, fun bounded =>
      ⟨bounded.w, bounded.h, bounded.savedW, bounded.savedH⟩⟩, rfl, fun captures => captures⟩ rfl

/-! ### The reset of a session -/

/-- A buffer that is freed at once. -/
theorem Ledger.release {panes : Panes} {freeList freed : List Nat} {allocated : Nat}
    (ledger : Ledger panes freeList freed allocated) (slot : Slot) {pane : Pane}
    (empty : pane.contentBuffer = none) :
    Ledger (update panes slot pane) freeList ((panes slot).contentBuffer.toList ++ freed)
      allocated := by
  refine ledger.exchange (fun _ => empty) ?_ le_rfl ?_
  · rw [empty, Nat.sub_self]
    show (freeList ++ ((panes slot).contentBuffer.toList ++ freed)).Perm _
    rw [List.range'_zero, List.append_nil, ← List.append_assoc, ← List.append_assoc]
    exact List.perm_append_comm.append_right freed
  · have after := (buffersOf_update_perm panes slot pane).length_eq
    have before := (buffersOf_perm panes slot).length_eq
    have room := ledger.room
    rw [empty, Option.toList_none, List.nil_append] at after
    rw [List.length_append] at before
    omega

/-- Windows went, and nothing was asked for. -/
structure Fewer (before after : WmState) : Prop where
  steady : Steady after
  shrinks : Shrinks before.panes after.panes
  requested : after.requested = before.requested
  deferred : after.deferredCloseId = before.deferredCloseId

theorem Fewer.trans {middle : WmState} (early : Fewer state middle) (late : Fewer middle after) :
    Fewer state after :=
  ⟨late.steady, early.shrinks.trans late.shrinks, late.requested.trans early.requested,
    late.deferred.trans early.deferred⟩

theorem Left.fewer {gone : Slot → Bool} (left : Left state after gone) :
    Fewer state (refocusTop after) :=
  ⟨left.steady.refocusTop, left.shrinks, left.requested, left.deferred⟩

/-- The first loop: the windows of tasks. -/
theorem fewer_cleanOwners (list : List Slot) (cleaned : List Int) (steady : Steady state)
    (nodup : state.zorder.Nodup) : Fewer state (cleanOwners list cleaned state) := by
  induction list generalizing state cleaned with
  | nil => exact ⟨steady, Shrinks.refl _, rfl, rfl⟩
  | cons slot rest inductionHypothesis =>
    unfold cleanOwners
    split_ifs with kernel fresh
    · exact inductionHypothesis cleaned steady nodup
    · have left := Left.owned steady nodup (state.wins slot).ownerTask
      have still : (wmCleanupTask state (state.wins slot).ownerTask).zorder.Nodup := by
        show (closeOwned state (state.wins slot).ownerTask).zorder.Nodup
        rw [left.zorder]
        exact nodup.filter _
      exact left.fewer.trans (inductionHypothesis _ left.fewer.steady still)
    · exact inductionHypothesis cleaned steady nodup

theorem resetWin_fewer (steady : Steady state) (slot : Slot) :
    Fewer state (resetWin state slot) ∧ ((resetWin state slot).panes slot).visible = false := by
  unfold resetWin
  dsimp only
  split_ifs with off
  · exact ⟨⟨steady, Shrinks.refl _, rfl, rfl⟩, off⟩
  · have bounded := steady.bounded slot
    generalize away : ({ state.wins slot with
      visible := false, dragging := false, resizing := false, minimized := false
      maximized := false, snapState := .none, ownerTask := -1, contentBuffer := none } : WmWin) =
        win
    have hidden : win.visible = false := by rw [← away]
    have empty : win.contentBuffer = none := by rw [← away]
    have captures : win.captureMouse = true → (state.wins slot).captureMouse = true := by
      rw [← away]
      exact fun captures => captures
    have small : win.Bounded := by
      rw [← away]
      exact ⟨bounded.w, bounded.h, bounded.savedW, bounded.savedH⟩
    have panes := panes_setWin state slot win
    have shrinks : Shrinks state.panes (state.setWin slot win).panes := by
      rw [panes]
      exact Shrinks.update fun shows => absurd (hidden.symm.trans shows) Bool.false_ne_true
    have here : ((state.setWin slot win).panes slot).visible = false := by
      rw [panes, update_self]
      exact hidden
    exact ⟨⟨steady.leave slot win hidden empty captures small
      (steady.ledger.release slot empty) state.zorder, shrinks, rfl, rfl⟩, here⟩

/-- The second loop: the windows that are left. -/
theorem fewer_resetWin (list : List Slot) (steady : Steady state) :
    Fewer state (list.foldl resetWin state) ∧
      ∀ slot ∈ list, ((list.foldl resetWin state).panes slot).visible = false := by
  induction list generalizing state with
  | nil => exact ⟨⟨steady, Shrinks.refl _, rfl, rfl⟩, fun _ member => nomatch member⟩
  | cons slot rest inductionHypothesis =>
    obtain ⟨first, off⟩ := resetWin_fewer steady slot
    obtain ⟨later, gone⟩ := inductionHypothesis first.steady
    rw [List.foldl_cons]
    refine ⟨first.trans later, fun other member => ?_⟩
    rcases List.mem_cons.mp member with rfl | listed
    · refine Bool.eq_false_iff.mpr fun shows => ?_
      exact Bool.false_ne_true (off.symm.trans (later.shrinks other shows).1)
    · exact gone other listed

theorem Sound.resetSession (sound : Sound state) : Sound (wmResetSession state) := by
  have early := fewer_cleanOwners slots [] sound.standing.steady sound.standing.stacked.nodup
  obtain ⟨late, gone⟩ := fewer_resetWin slots early.steady
  have fewer := early.trans late
  unfold wmResetSession
  generalize slots.foldl resetWin (cleanOwners slots [] state) = after at fewer gone ⊢
  have steady := fewer.steady
  have off : ∀ slot, (after.panes slot).visible = false := fun slot => gone slot (mem_slots slot)
  have asked : Asked after.panes after.requested after.deferredCloseId := by
    rw [fewer.requested, fewer.deferred]
    exact sound.standing.asked.shrinks fewer.shrinks
  have stacked : Stacked after.panes [] := by
    refine ⟨List.nodup_nil, fun slot => ?_⟩
    rw [off slot]
    exact iff_of_false List.not_mem_nil Bool.false_ne_true
  have focused : Focused after.panes (-1) := by
    refine ⟨Or.inl rfl, fun _ slot => ?_⟩
    unfold Pane.shown
    rw [off slot, Bool.false_and]
  exact ⟨⟨⟨steady.named, steady.captured, steady.owned, steady.ledger, steady.sized,
    steady.bounded⟩, stacked, asked⟩, focused⟩

end MectovOS.Wm
