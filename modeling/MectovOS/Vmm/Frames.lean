/-
This file models the reference counts of src/sys/vmm.c as the users of a frame
see them: `frame_free` drops one reference, and the last one parks the frame in
a per-CPU cache. What the caches and the buddy lists do with frames nobody holds
is left out.
-/

import Mathlib

namespace MectovOS.Vmm

open Function

/-- `FRAME_PINNED`. -/
def framePinned : Nat := 255

/-- The counts of the frames, the marks of the parked ones, and the bounds of the frames the
allocator owns. -/
structure Frames where
  refCount : Nat → Nat
  cached : Nat → Bool
  reservedPages : Nat
  totalPages : Nat
  zeroPage : Nat

/-- What `frame_alloc` leaves of the frame it returns. -/
def frameAlloc (frames : Frames) (frame : Nat) : Frames :=
  { frames with
    refCount := update frames.refCount frame 1
    cached := update frames.cached frame false }

/-- `frame_free`. -/
def frameFree (frames : Frames) (frame : Nat) : Frames :=
  if frame = 0 ∨ frame = frames.zeroPage then frames
  else if frame < frames.reservedPages ∨ frames.totalPages ≤ frame then frames
  else if frames.cached frame = true ∨ frames.refCount frame = 0 then frames
  else if framePinned ≤ frames.refCount frame then frames
  else if 1 < frames.refCount frame then
    { frames with
      refCount := update frames.refCount frame (frames.refCount frame - 1) }
  else { frames with cached := update frames.cached frame true }

/-! ### References -/

/-- The references held to a frame: a parked frame has none. -/
def Frames.refs (frames : Frames) (frame : Nat) : Nat :=
  if frames.cached frame then 0 else frames.refCount frame

/-- The allocator counts the references of this frame: it owns the frame, and the frame is
not pinned. -/
def Frames.Counted (frames : Frames) (frame : Nat) : Prop :=
  frame ≠ 0 ∧ frame ≠ frames.zeroPage ∧ frames.reservedPages ≤ frame ∧
    frame < frames.totalPages ∧ frames.refCount frame < framePinned

instance (frames : Frames) (frame : Nat) : Decidable (frames.Counted frame) :=
  inferInstanceAs (Decidable (_ ∧ _))

theorem frameFree_bounds (frames : Frames) (frame : Nat) :
    (frameFree frames frame).reservedPages = frames.reservedPages ∧
      (frameFree frames frame).totalPages = frames.totalPages ∧
      (frameFree frames frame).zeroPage = frames.zeroPage := by
  unfold frameFree
  split_ifs <;> exact ⟨rfl, rfl, rfl⟩

/-- A counted frame loses one reference, every other frame keeps its own. -/
theorem refs_frameFree (frames : Frames) (frame other : Nat) :
    (frameFree frames frame).refs other =
      if other = frame ∧ frames.Counted frame then frames.refs other - 1
      else frames.refs other := by
  by_cases apart : other = frame
  · subst apart
    unfold frameFree Frames.Counted framePinned Frames.refs
    split_ifs <;> simp_all <;> omega
  · rw [if_neg fun both => apart both.1]
    unfold frameFree Frames.refs
    split_ifs <;> simp_all

theorem counted_frameFree (frames : Frames) (frame other : Nat) :
    (frameFree frames frame).Counted other ↔ frames.Counted other := by
  obtain ⟨reserved, total, zero⟩ := frameFree_bounds frames frame
  unfold Frames.Counted
  rw [reserved, total, zero]
  have kept : (frameFree frames frame).refCount other < framePinned ↔
      frames.refCount other < framePinned := by
    unfold frameFree
    split_ifs with _ _ _ unpinned
    all_goals try rfl
    dsimp only
    by_cases apart : other = frame
    · rw [apart, update_self]
      omega
    · rw [update_of_ne apart]
  rw [kept]

/-- Freeing a list of frames takes from each counted frame as many references as the list
names it. -/
theorem refs_foldl_frameFree (freed : List Nat) (frames : Frames) (other : Nat) :
    (freed.foldl frameFree frames).refs other =
      if frames.Counted other then frames.refs other - freed.count other
      else frames.refs other := by
  induction freed generalizing frames with
  | nil => simp
  | cons frame rest inductionHypothesis =>
    rw [List.foldl_cons, inductionHypothesis, refs_frameFree, List.count_cons]
    simp only [counted_frameFree]
    by_cases same : other = frame
    · subst same
      split_ifs
      all_goals simp_all
      omega
    · have differ : ¬(frame == other) = true := fun equal => same (beq_iff_eq.mp equal).symm
      simp only [differ, same, false_and, if_false, Bool.false_eq_true, Nat.add_zero]

end MectovOS.Vmm
