/-
This file shows what the frame allocator keeps: every frame is at one place, the
frames on the free lists have no references, and the frames of a cache carry
BUDDY_CACHED exactly when a free put them there. A refill parks its frames
without that mark. So a second free of a frame nobody holds is refused, unless a
refill parked the frame.
-/

import MectovOS.Vmm.FrameCache

namespace MectovOS.Vmm.Cache

open Function

open Buddy (Store Mark)

/-! ### Places -/

/-- The flag of a frame that is parked or on its way. -/
def Spot.origin : Spot → Option Bool
  | .parked _ refilled => some refilled
  | .moving refilled => some refilled
  | _ => none

/-- The order byte of a frame that is parked or on its way. -/
def restOwner (refilled : Bool) : FrameOwner := if refilled then .allocated else .cached

/-- A frame that is parked or on its way: the allocator owns it, and counts one reference. -/
structure Resting (alloc : Allocator) (frame : Nat) (refilled : Bool) : Prop where
  low : alloc.reservedPages ≤ frame
  high : frame < alloc.totalPages
  nonzero : frame ≠ 0
  plain : frame ≠ alloc.zeroPage
  one : alloc.refCount frame = 1
  owner : alloc.buddy.mark frame = .label (restOwner refilled)

/-- Every frame is where its place says, and nowhere else. -/
structure Placed (alloc : Allocator) (spot : Nat → Spot) (flying : List Nat) : Prop where
  sound : alloc.buddy.Sound buddyMaxOrder alloc.reservedPages alloc.totalPages
  free : ∀ frame, alloc.buddy.Free frame ↔ spot frame = .free
  cacheNodup : ∀ cid, (alloc.caches cid).Nodup
  cached : ∀ cid frame, frame ∈ alloc.caches cid ↔ ∃ refilled, spot frame = .parked cid refilled
  nodup : flying.Nodup
  flying : ∀ frame, frame ∈ flying ↔ ∃ refilled, spot frame = .moving refilled
  unused : ∀ frame, spot frame = .free → alloc.refCount frame = 0
  resting : ∀ frame refilled, (spot frame).origin = some refilled →
    Resting alloc frame refilled
  zeroHeld : spot 0 = .held ∧ spot alloc.zeroPage = .held

theorem moved_mem {spot : Nat → Spot} {frames : List Nat} {place : Nat → Spot} {frame : Nat}
    (member : frame ∈ frames) : moved spot frames place frame = place frame := if_pos member

theorem moved_other {spot : Nat → Spot} {frames : List Nat} {place : Nat → Spot} {frame : Nat}
    (other : frame ∉ frames) : moved spot frames place frame = spot frame := if_neg other

namespace Placed

variable {alloc : Allocator} {spot : Nat → Spot} {flying : List Nat}

theorem parked_origin {frame : Nat} {refilled : Bool} {cid : Nat}
    (parked : spot frame = .parked cid refilled) : (spot frame).origin = some (spot frame).refilled := by
  rw [parked]
  rfl

theorem moving_origin {frame : Nat} {refilled : Bool}
    (moving : spot frame = .moving refilled) : (spot frame).origin = some (spot frame).refilled := by
  rw [moving]
  rfl

theorem perm (placed : Placed alloc spot flying) {other : List Nat} (same : flying.Perm other) :
    Placed alloc spot other :=
  { placed with
    nodup := same.nodup_iff.mp placed.nodup
    flying := fun frame => (same.mem_iff).symm.trans (placed.flying frame) }

/-- Frames leave a cache for a call. -/
theorem unpark (placed : Placed alloc spot flying) {cid : Nat} {front back : List Nat}
    (parts : alloc.caches cid = front ++ back) :
    Placed (alloc.setCache cid back)
      (moved spot front fun frame => .moving (spot frame).refilled) (front ++ flying) := by
  have whole := placed.cacheNodup cid
  rw [parts] at whole
  obtain ⟨frontNodup, backNodup, apart⟩ := List.nodup_append'.mp whole
  have parked : ∀ frame ∈ front, ∃ refilled, spot frame = .parked cid refilled := fun frame member =>
    (placed.cached cid frame).mp (parts ▸ List.mem_append_left back member)
  constructor
  case sound => exact placed.sound
  case free =>
    intro frame
    by_cases member : frame ∈ front
    · rw [moved_mem member]
      obtain ⟨refilled, there⟩ := parked frame member
      refine iff_of_false (fun free => ?_) nofun
      rw [(placed.free frame).mp free] at there
      cases there
    · rw [moved_other member]
      exact placed.free frame
  case cacheNodup =>
    intro other
    unfold Allocator.setCache
    dsimp only
    by_cases same : other = cid
    · rw [same, update_self]
      exact backNodup
    · rw [update_of_ne same]
      exact placed.cacheNodup other
  case cached =>
    intro other frame
    unfold Allocator.setCache
    dsimp only
    by_cases member : frame ∈ front
    · rw [moved_mem member]
      refine iff_of_false (fun listed => ?_) nofun
      by_cases same : other = cid
      · rw [same, update_self] at listed
        exact apart member listed
      · rw [update_of_ne same] at listed
        obtain ⟨first, here⟩ := parked frame member
        obtain ⟨second, there⟩ := (placed.cached other frame).mp listed
        rw [here] at there
        exact same (Spot.parked.inj there).1.symm
    · rw [moved_other member]
      by_cases same : other = cid
      · rw [same, update_self, ← placed.cached cid frame, parts, List.mem_append,
          or_iff_right member]
      · rw [update_of_ne same]
        exact placed.cached other frame
  case nodup =>
    refine List.nodup_append'.mpr ⟨frontNodup, placed.nodup, fun {frame} member away => ?_⟩
    obtain ⟨first, here⟩ := parked frame member
    obtain ⟨second, there⟩ := (placed.flying frame).mp away
    rw [here] at there
    cases there
  case flying =>
    intro frame
    rw [List.mem_append]
    by_cases member : frame ∈ front
    · rw [moved_mem member]
      exact iff_of_true (Or.inl member) ⟨_, rfl⟩
    · rw [moved_other member, or_iff_right member]
      exact placed.flying frame
  case unused =>
    intro frame free
    by_cases member : frame ∈ front
    · rw [moved_mem member] at free
      cases free
    · rw [moved_other member] at free
      exact placed.unused frame free
  case resting =>
    intro frame refilled rests
    by_cases member : frame ∈ front
    · rw [moved_mem member] at rests
      obtain ⟨was, there⟩ := parked frame member
      exact { placed.resting frame refilled ((parked_origin there).trans rests) with }
    · rw [moved_other member] at rests
      exact { placed.resting frame refilled rests with }
  case zeroHeld =>
    have stays : ∀ frame, spot frame = .held → frame ∉ front := by
      intro frame held member
      obtain ⟨was, there⟩ := parked frame member
      rw [held] at there
      cases there
    exact ⟨(moved_other (stays _ placed.zeroHeld.1)).trans placed.zeroHeld.1,
      (moved_other (stays _ placed.zeroHeld.2)).trans placed.zeroHeld.2⟩

/-- Frames of a call are parked in a cache. -/
theorem park (cid : Nat) {front : List Nat} (placed : Placed alloc spot (front ++ flying)) :
    Placed (alloc.setCache cid (front.reverse ++ alloc.caches cid))
      (moved spot front fun frame => .parked cid (spot frame).refilled) flying := by
  obtain ⟨frontNodup, restNodup, apart⟩ := List.nodup_append'.mp placed.nodup
  have aloft : ∀ frame ∈ front, ∃ refilled, spot frame = .moving refilled := fun frame member =>
    (placed.flying frame).mp (List.mem_append_left flying member)
  constructor
  case sound => exact placed.sound
  case free =>
    intro frame
    by_cases member : frame ∈ front
    · rw [moved_mem member]
      obtain ⟨refilled, there⟩ := aloft frame member
      refine iff_of_false (fun free => ?_) nofun
      rw [(placed.free frame).mp free] at there
      cases there
    · rw [moved_other member]
      exact placed.free frame
  case cacheNodup =>
    intro other
    unfold Allocator.setCache
    dsimp only
    by_cases same : other = cid
    · rw [same, update_self]
      refine List.nodup_append'.mpr ⟨List.nodup_reverse.mpr frontNodup, placed.cacheNodup cid,
        fun {frame} member listed => ?_⟩
      obtain ⟨first, here⟩ := aloft frame (List.mem_reverse.mp member)
      obtain ⟨second, there⟩ := (placed.cached cid frame).mp listed
      rw [here] at there
      cases there
    · rw [update_of_ne same]
      exact placed.cacheNodup other
  case cached =>
    intro other frame
    unfold Allocator.setCache
    dsimp only
    by_cases member : frame ∈ front
    · rw [moved_mem member]
      by_cases same : other = cid
      · rw [same, update_self, List.mem_append, List.mem_reverse]
        exact iff_of_true (Or.inl member) ⟨_, rfl⟩
      · rw [update_of_ne same]
        refine iff_of_false (fun listed => ?_) fun ⟨_, there⟩ => same (Spot.parked.inj there).1.symm
        obtain ⟨first, here⟩ := aloft frame member
        obtain ⟨second, there⟩ := (placed.cached other frame).mp listed
        rw [here] at there
        cases there
    · rw [moved_other member]
      by_cases same : other = cid
      · rw [same, update_self, List.mem_append, List.mem_reverse, or_iff_right member]
        exact placed.cached cid frame
      · rw [update_of_ne same]
        exact placed.cached other frame
  case nodup => exact restNodup
  case flying =>
    intro frame
    by_cases member : frame ∈ front
    · rw [moved_mem member]
      exact iff_of_false (fun away => apart member away) nofun
    · rw [moved_other member, ← placed.flying frame, List.mem_append, or_iff_right member]
  case unused =>
    intro frame free
    by_cases member : frame ∈ front
    · rw [moved_mem member] at free
      cases free
    · rw [moved_other member] at free
      exact placed.unused frame free
  case resting =>
    intro frame refilled rests
    by_cases member : frame ∈ front
    · rw [moved_mem member] at rests
      obtain ⟨was, there⟩ := aloft frame member
      exact { placed.resting frame refilled ((moving_origin there).trans rests) with }
    · rw [moved_other member] at rests
      exact { placed.resting frame refilled rests with }
  case zeroHeld =>
    have stays : ∀ frame, spot frame = .held → frame ∉ front := by
      intro frame held member
      obtain ⟨was, there⟩ := aloft frame member
      rw [held] at there
      cases there
    exact ⟨(moved_other (stays _ placed.zeroHeld.1)).trans placed.zeroHeld.1,
      (moved_other (stays _ placed.zeroHeld.2)).trans placed.zeroHeld.2⟩

/-- What the buddy core leaves of the allocator when it hands out a frame. -/
structure Fetched (before after : Allocator) (frame : Nat) : Prop where
  takes : before.buddy.Takes after.buddy buddyMaxOrder before.reservedPages before.totalPages frame
    .allocated
  refCount : after.refCount = update before.refCount frame 1
  caches : after.caches = before.caches
  reserved : after.reservedPages = before.reservedPages
  total : after.totalPages = before.totalPages
  zero : after.zeroPage = before.zeroPage

theorem fetched (placed : Placed alloc spot flying) {frame : Nat} {after : Allocator}
    (got : buddyAllocLocked alloc = some (frame, after)) : Fetched alloc after frame := by
  obtain ⟨⟨cell, buddy⟩, took, rest⟩ := Option.map_eq_some_iff.mp got
  obtain ⟨rfl, rfl⟩ := Prod.mk.inj rest
  exact ⟨Store.take_spec placed.sound took, rfl, rfl, rfl, rfl, rfl⟩

/-- One frame goes to a new place, and every other frame stays as it is. -/
structure Moves (before after : Allocator) (flying left : List Nat) (frame : Nat) (place : Spot) :
    Prop where
  sound : after.buddy.Sound buddyMaxOrder after.reservedPages after.totalPages
  free : ∀ other, after.buddy.Free other ↔
    if other = frame then place = .free else before.buddy.Free other
  cacheNodup : ∀ cid, (after.caches cid).Nodup
  cached : ∀ cid other, other ∈ after.caches cid ↔
    if other = frame then ∃ refilled, place = .parked cid refilled else other ∈ before.caches cid
  nodup : left.Nodup
  flying : ∀ other, other ∈ left ↔
    if other = frame then ∃ refilled, place = .moving refilled else other ∈ flying
  refCount : ∀ other, other ≠ frame → after.refCount other = before.refCount other
  mark : ∀ other, other ≠ frame → ¬before.buddy.Free other →
    after.buddy.mark other = before.buddy.mark other
  reserved : after.reservedPages = before.reservedPages
  total : after.totalPages = before.totalPages
  zero : after.zeroPage = before.zeroPage
  unused : place = .free → after.refCount frame = 0
  resting : ∀ refilled, place.origin = some refilled → Resting after frame refilled

theorem move (placed : Placed alloc spot flying) {after : Allocator} {left : List Nat}
    {frame : Nat} {place : Spot} (moves : Moves alloc after flying left frame place)
    (plain : frame ≠ 0 ∧ frame ≠ alloc.zeroPage) :
    Placed after (moved spot [frame] fun _ => place) left := by
  have own : moved spot [frame] (fun _ => place) frame = place :=
    moved_mem List.mem_cons_self
  have rest : ∀ other, other ≠ frame → moved spot [frame] (fun _ => place) other = spot other :=
    fun other differ => moved_other fun member => differ (List.mem_singleton.mp member)
  constructor
  case sound => exact moves.sound
  case free =>
    intro other
    rw [moves.free]
    by_cases same : other = frame
    · rw [if_pos same, same, own]
    · rw [if_neg same, rest other same]
      exact placed.free other
  case cacheNodup => exact moves.cacheNodup
  case cached =>
    intro cid other
    rw [moves.cached]
    by_cases same : other = frame
    · rw [if_pos same, same, own]
    · rw [if_neg same, rest other same]
      exact placed.cached cid other
  case nodup => exact moves.nodup
  case flying =>
    intro other
    rw [moves.flying]
    by_cases same : other = frame
    · rw [if_pos same, same, own]
    · rw [if_neg same, rest other same]
      exact placed.flying other
  case unused =>
    intro other free
    by_cases same : other = frame
    · rw [same, own] at free
      rw [same]
      exact moves.unused free
    · rw [rest other same] at free
      rw [moves.refCount other same]
      exact placed.unused other free
  case resting =>
    intro other refilled rests
    by_cases same : other = frame
    · rw [same, own] at rests
      rw [same]
      exact moves.resting refilled rests
    · rw [rest other same] at rests
      have was := placed.resting other refilled rests
      have taken : ¬alloc.buddy.Free other := fun free => by
        rw [(placed.free other).mp free] at rests
        cases rests
      exact ⟨moves.reserved ▸ was.low, moves.total ▸ was.high, was.nonzero, moves.zero ▸ was.plain,
        (moves.refCount other same).trans was.one, (moves.mark other same taken).trans was.owner⟩
  case zeroHeld =>
    rw [rest 0 plain.1.symm, moves.zero, rest _ plain.2.symm]
    exact placed.zeroHeld

/-- A frame that is not held is an ordinary one. -/
theorem plain (placed : Placed alloc spot flying) {frame : Nat} (away : spot frame ≠ .held) :
    frame ≠ 0 ∧ frame ≠ alloc.zeroPage :=
  ⟨fun same => away (same ▸ placed.zeroHeld.1), fun same => away (same ▸ placed.zeroHeld.2)⟩

theorem unlisted (placed : Placed alloc spot flying) {frame : Nat}
    (elsewhere : ∀ cid refilled, spot frame ≠ .parked cid refilled) (cid : Nat) :
    frame ∉ alloc.caches cid := fun listed =>
  let ⟨refilled, there⟩ := (placed.cached cid frame).mp listed
  elsewhere cid refilled there

theorem grounded (placed : Placed alloc spot flying) {frame : Nat}
    (elsewhere : ∀ refilled, spot frame ≠ .moving refilled) : frame ∉ flying := fun away =>
  let ⟨refilled, there⟩ := (placed.flying frame).mp away
  elsewhere refilled there

/-- A frame that the caches do not list, and does not go there. -/
theorem cached_same (placed : Placed alloc spot flying) {frame : Nat} {place : Spot}
    (elsewhere : ∀ cid refilled, spot frame ≠ .parked cid refilled)
    (going : ∀ cid refilled, place ≠ .parked cid refilled) (cid other : Nat) :
    other ∈ alloc.caches cid ↔
      if other = frame then ∃ refilled, place = .parked cid refilled
      else other ∈ alloc.caches cid := by
  by_cases same : other = frame
  · rw [if_pos same, same]
    exact iff_of_false (placed.unlisted elsewhere cid) fun ⟨_, there⟩ => going cid _ there
  · rw [if_neg same]

/-- A frame leaves the free lists for a call. -/
theorem fetch (placed : Placed alloc spot flying) {frame : Nat} {after : Allocator}
    (got : buddyAllocLocked alloc = some (frame, after)) :
    spot frame = .free ∧
      Placed after (moved spot [frame] fun _ => .moving true) (frame :: flying) ∧
      Placed after (moved spot [frame] fun _ => .held) flying := by
  have core := placed.fetched got
  have free : spot frame = .free := (placed.free frame).mp core.takes.was
  have away : spot frame ≠ .held := by
    rw [free]
    nofun
  have plain := placed.plain away
  have aground : frame ∉ flying := placed.grounded (by rw [free]; nofun)
  have frees : ∀ place : Spot, place ≠ .free → ∀ other, after.buddy.Free other ↔
      if other = frame then place = .free else alloc.buddy.Free other := by
    intro place going other
    rw [core.takes.free]
    by_cases same : other = frame
    · rw [if_pos same]
      exact iff_of_false (fun both => both.2 same) going
    · rw [if_neg same, and_iff_left same]
  have base : ∀ (place : Spot) (left : List Nat), place ≠ .free →
      (∀ cid refilled, place ≠ .parked cid refilled) → left.Nodup →
      (∀ other, other ∈ left ↔
        if other = frame then ∃ refilled, place = .moving refilled else other ∈ flying) →
      (∀ refilled, place.origin = some refilled → Resting after frame refilled) →
      Moves alloc after flying left frame place := by
    intro place left going uncached nodup away rests
    refine ⟨?_, frees place going, ?_, ?_, nodup, away, ?_, ?_, core.reserved, core.total,
      core.zero, fun there => absurd there going, rests⟩
    · rw [core.reserved, core.total]
      exact core.takes.sound
    · rw [core.caches]
      exact placed.cacheNodup
    · rw [core.caches]
      exact placed.cached_same (by rw [free]; nofun) uncached
    · intro other differ
      rw [core.refCount, update_of_ne differ]
    · exact fun other _ taken => core.takes.mark other taken
  refine ⟨free, ?_, ?_⟩
  · refine placed.move (base _ _ nofun nofun (List.nodup_cons.mpr ⟨aground, placed.nodup⟩)
      (fun other => ?_) fun refilled rests => ?_) plain
    · by_cases same : other = frame
      · rw [if_pos same, same]
        exact iff_of_true List.mem_cons_self ⟨_, rfl⟩
      · rw [if_neg same, List.mem_cons, or_iff_right same]
    · obtain rfl : true = refilled := Option.some.inj rests
      refine ⟨core.reserved ▸ core.takes.window.1, core.total ▸ core.takes.window.2, plain.1,
        core.zero ▸ plain.2, ?_, core.takes.own⟩
      rw [core.refCount, update_self]
  · refine placed.move (base _ _ nofun nofun placed.nodup (fun other => ?_) nofun) plain
    by_cases same : other = frame
    · rw [if_pos same, same]
      exact iff_of_false aground nofun
    · rw [if_neg same]

/-- A frame of a call goes back to the free lists. -/
theorem land {frame : Nat} (placed : Placed alloc spot (frame :: flying)) :
    Placed (buddyFreeLocked alloc frame) (moved spot [frame] fun _ => .free) flying := by
  obtain ⟨aground, nodup⟩ := List.nodup_cons.mp placed.nodup
  obtain ⟨refilled, aloft⟩ := (placed.flying frame).mp List.mem_cons_self
  have rests := placed.resting frame _ (moving_origin aloft)
  have taken : ¬alloc.buddy.Free frame := fun free => by
    rw [(placed.free frame).mp free] at aloft
    cases aloft
  have put := Store.put_spec placed.sound .allocated ⟨rests.low, rests.high⟩ taken
  have unpinned : ¬framePinned ≤ alloc.refCount frame := by
    rw [rests.one]
    decide
  unfold buddyFreeLocked
  rw [if_neg (not_or.mpr ⟨Nat.not_lt_of_le rests.low, Nat.not_le_of_lt rests.high⟩),
    if_neg unpinned]
  refine placed.move ?_ (placed.plain (by rw [aloft]; nofun))
  refine ⟨put.sound, fun other => ?_, placed.cacheNodup, placed.cached_same (by rw [aloft]; nofun)
    nofun, nodup, fun other => ?_, fun other differ => update_of_ne differ _ _,
    fun other differ held => ?_, rfl, rfl, rfl, fun _ => update_self _ _ _, nofun⟩
  · rw [put.free]
    by_cases same : other = frame
    · rw [if_pos same]
      exact iff_of_true (Or.inr same) rfl
    · rw [if_neg same, or_iff_left same]
  · by_cases same : other = frame
    · rw [if_pos same, same]
      exact iff_of_false aground nofun
    · rw [if_neg same, List.mem_cons, or_iff_right same]
  · exact put.mark other fun free => ((put.free other).mp free).elim held differ

theorem mark_setOwner (alloc : Allocator) {frame other : Nat} (owner : FrameOwner)
    (differ : other ≠ frame) :
    (alloc.setOwner frame owner).buddy.mark other = alloc.buddy.mark other :=
  update_of_ne differ _ _

/-- The last reference to a frame of a caller is claimed. -/
theorem claim (placed : Placed alloc spot flying) {frame : Nat} (held : spot frame = .held)
    (window : alloc.reservedPages ≤ frame ∧ frame < alloc.totalPages)
    (plain : frame ≠ 0 ∧ frame ≠ alloc.zeroPage) (one : alloc.refCount frame = 1) :
    Placed (alloc.setOwner frame .cached) (moved spot [frame] fun _ => .moving false)
      (frame :: flying) := by
  have taken : ¬alloc.buddy.Free frame := fun free => by
    rw [(placed.free frame).mp free] at held
    cases held
  have aground : frame ∉ flying := placed.grounded (by rw [held]; nofun)
  refine placed.move ?_ plain
  refine ⟨placed.sound.relabel taken .cached, fun other => ?_, placed.cacheNodup,
    placed.cached_same (by rw [held]; nofun) nofun, List.nodup_cons.mpr ⟨aground, placed.nodup⟩,
    fun other => ?_, fun _ _ => rfl, fun other differ _ => mark_setOwner alloc _ differ, rfl, rfl,
    rfl, nofun, fun refilled rests => ?_⟩
  · by_cases same : other = frame
    · rw [if_pos same, same]
      exact iff_of_false taken nofun
    · rw [if_neg same]
      exact Iff.rfl
  · by_cases same : other = frame
    · rw [if_pos same, same]
      exact iff_of_true List.mem_cons_self ⟨_, rfl⟩
    · rw [if_neg same, List.mem_cons, or_iff_right same]
  · obtain rfl : false = refilled := Option.some.inj rests
    exact ⟨window.1, window.2, plain.1, plain.2, one, update_self _ _ _⟩

/-- A frame on its way gets another owner byte and a place outside the lists. -/
theorem relabel {frame : Nat} (placed : Placed alloc spot (frame :: flying)) :
    Placed (alloc.setOwner frame .allocated) (moved spot [frame] fun _ => .held) flying ∧
      Placed (alloc.setOwner frame .cached) (moved spot [frame] fun _ => .moving false)
        (frame :: flying) := by
  obtain ⟨aground, nodup⟩ := List.nodup_cons.mp placed.nodup
  obtain ⟨refilled, aloft⟩ := (placed.flying frame).mp List.mem_cons_self
  have rests := placed.resting frame _ (moving_origin aloft)
  have taken : ¬alloc.buddy.Free frame := fun free => by
    rw [(placed.free frame).mp free] at aloft
    cases aloft
  have frees : ∀ (owner : FrameOwner) (place : Spot), place ≠ .free → ∀ other,
      (alloc.setOwner frame owner).buddy.Free other ↔
        if other = frame then place = .free else alloc.buddy.Free other := by
    intro owner place going other
    by_cases same : other = frame
    · rw [if_pos same, same]
      exact iff_of_false taken going
    · rw [if_neg same]
      exact Iff.rfl
  constructor
  · refine placed.move ⟨placed.sound.relabel taken _, frees _ _ nofun, placed.cacheNodup,
      placed.cached_same (by rw [aloft]; nofun) nofun, nodup, fun other => ?_, fun _ _ => rfl,
      fun other differ _ => mark_setOwner alloc _ differ, rfl, rfl, rfl, nofun, nofun⟩
      (placed.plain (by rw [aloft]; nofun))
    by_cases same : other = frame
    · rw [if_pos same, same]
      exact iff_of_false aground nofun
    · rw [if_neg same, List.mem_cons, or_iff_right same]
  · refine placed.move ⟨placed.sound.relabel taken _, frees _ _ nofun, placed.cacheNodup,
      placed.cached_same (by rw [aloft]; nofun) nofun, placed.nodup, fun other => ?_,
      fun _ _ => rfl, fun other differ _ => mark_setOwner alloc _ differ, rfl, rfl, rfl, nofun,
      fun flag flagged => ?_⟩ (placed.plain (by rw [aloft]; nofun))
    · by_cases same : other = frame
      · rw [if_pos same, same]
        exact iff_of_true List.mem_cons_self ⟨_, rfl⟩
      · rw [if_neg same]
    · obtain rfl : false = flag := Option.some.inj flagged
      exact ⟨rests.low, rests.high, rests.nonzero, rests.plain, rests.one,
        update_self _ _ _⟩

theorem moved_moved (spot : Nat → Spot) (frames : List Nat) (first second : Nat → Spot) :
    moved (moved spot frames first) frames second = moved spot frames second := by
  funext frame
  by_cases member : frame ∈ frames
  · rw [moved_mem member, moved_mem member]
  · rw [moved_other member, moved_other member, moved_other member]

/-- The newest frame of a cache goes to a caller. -/
theorem pop (placed : Placed alloc spot flying) {cid frame : Nat} {rest : List Nat}
    (parts : alloc.caches cid = frame :: rest) :
    Placed ((alloc.setCache cid rest).setOwner frame .allocated)
      (moved spot [frame] fun _ => .held) flying := by
  have handed := (@unpark alloc spot flying placed cid [frame] rest parts).relabel.1
  rwa [moved_moved] at handed

/-- A claimed frame is parked. -/
theorem parkClaimed {frame : Nat} (placed : Placed alloc spot (frame :: flying)) (cid : Nat) :
    Placed ((alloc.setCache cid (frame :: alloc.caches cid)).setOwner frame .cached)
      (moved spot [frame] fun _ => .parked cid false) flying := by
  have parked := @park (alloc.setOwner frame .cached)
    (moved spot [frame] fun _ => .moving false) flying cid [frame] placed.relabel.2
  rw [moved_moved] at parked
  have place : (moved spot [frame] fun other =>
      Spot.parked cid ((moved spot [frame] fun _ => .moving false) other).refilled) =
      moved spot [frame] fun _ => .parked cid false := by
    funext other
    by_cases member : other ∈ [frame]
    · rw [moved_mem member, moved_mem member, moved_mem member]
      rfl
    · rw [moved_other member, moved_other member]
  rwa [place] at parked

/-- The count of a frame that a caller holds may change. -/
theorem recount (placed : Placed alloc spot flying) {frame : Nat} (held : spot frame = .held)
    (count : Nat) :
    Placed { alloc with refCount := update alloc.refCount frame count } spot flying :=
  { placed with
    unused := fun other free => by
      have differ : other ≠ frame := fun same => by
        rw [same, held] at free
        cases free
      exact (update_of_ne differ _ _).trans (placed.unused other free)
    resting := fun other refilled rests => by
      have differ : other ≠ frame := fun same => by
        rw [same, held] at rests
        cases rests
      have was := placed.resting other refilled rests
      exact { was with one := (update_of_ne differ _ _).trans was.one } }

/-! ### Several frames -/

theorem moved_nil (spot : Nat → Spot) (place : Nat → Spot) : moved spot [] place = spot := by
  funext frame
  exact moved_other List.not_mem_nil

theorem moved_cons (spot : Nat → Spot) (frame : Nat) (rest : List Nat) (place : Spot) :
    moved (moved spot [frame] fun _ => place) rest (fun _ => place) =
      moved spot (frame :: rest) fun _ => place := by
  funext other
  by_cases later : other ∈ rest
  · rw [moved_mem later, moved_mem (List.mem_cons_of_mem _ later)]
  · rw [moved_other later]
    by_cases same : other = frame
    · rw [same, moved_mem List.mem_cons_self, moved_mem List.mem_cons_self]
    · have neither : other ∉ frame :: rest := fun member =>
        (List.mem_cons.mp member).elim same later
      rw [moved_other fun member => same (List.mem_singleton.mp member), moved_other neither]

theorem giveBack {frames : List Nat} (placed : Placed alloc spot (frames ++ flying)) :
    Placed (giveBack alloc frames) (moved spot frames fun _ => .free) flying := by
  induction frames generalizing alloc spot with
  | nil =>
    rw [moved_nil]
    exact placed
  | cons frame rest inductionHypothesis =>
    have landed := inductionHypothesis placed.land
    rwa [moved_cons] at landed

theorem fetchBatch (placed : Placed alloc spot flying) (want : Nat) :
    Placed (fetchBatch want alloc).1 (moved spot (fetchBatch want alloc).2 fun _ => .moving true)
      ((fetchBatch want alloc).2 ++ flying) := by
  induction want generalizing alloc spot flying with
  | zero =>
    rw [Cache.fetchBatch, moved_nil]
    exact placed
  | succ want inductionHypothesis =>
    rw [Cache.fetchBatch]
    cases got : buddyAllocLocked alloc with
    | none =>
      dsimp only
      rw [moved_nil]
      exact placed
    | some pair =>
      obtain ⟨frame, after⟩ := pair
      have later := inductionHypothesis (placed.fetch got).2.1
      rw [moved_cons] at later
      exact later.perm List.perm_middle

/-- A freed frame goes to the cache, or the cache spills with it. -/
theorem percpuCacheFree {frame : Nat} (placed : Placed alloc spot (frame :: flying)) (cid : Nat) :
    Placed (percpuCacheFree alloc cid frame).1
      (if (percpuCacheFree alloc cid frame).2 = [] then
        moved spot [frame] fun _ => .parked cid false
      else moved spot (percpuCacheFree alloc cid frame).2 fun other =>
        .moving (spot other).refilled)
      ((percpuCacheFree alloc cid frame).2 ++ flying) := by
  unfold Cache.percpuCacheFree
  dsimp only
  by_cases room : (alloc.caches cid).length < percpuCacheSize
  · rw [if_pos room]
    exact placed.parkClaimed cid
  · rw [if_neg room]
    obtain ⟨refilled, here⟩ := (placed.flying frame).mp List.mem_cons_self
    have spilled := placed.unpark (List.take_append_drop
      ((alloc.caches cid).length - percpuFlushKeep) (alloc.caches cid)).symm
    generalize (alloc.caches cid).take ((alloc.caches cid).length - percpuFlushKeep) = front
      at spilled ⊢
    have nonempty : front ++ [frame] ≠ [] := List.append_ne_nil_of_right_ne_nil _ (by simp)
    have same : (moved spot (front ++ [frame]) fun other => Spot.moving (spot other).refilled) =
        moved spot front fun other => .moving (spot other).refilled := by
      funext other
      by_cases member : other ∈ front
      · rw [moved_mem member, moved_mem (List.mem_append_left _ member)]
      · rw [moved_other member]
        by_cases own : other = frame
        · rw [own, moved_mem (List.mem_append_right _ List.mem_cons_self), here]
          rfl
        · refine moved_other fun either => ?_
          rcases List.mem_append.mp either with first | last
          · exact member first
          · exact own (List.mem_singleton.mp last)
    dsimp only
    rw [if_neg nonempty, same, List.append_assoc]
    exact spilled

theorem freeClaim (placed : Placed alloc spot flying) {frame : Nat}
    (spared : (spot frame).refilled = false) :
    (∀ after, Cache.freeClaim alloc frame = (after, false) → Placed after spot flying) ∧
      ∀ after, Cache.freeClaim alloc frame = (after, true) →
        Placed after (moved spot [frame] fun _ => .moving false) (frame :: flying) := by
  have holds : ¬(alloc.buddy.mark frame = .label .cached ∨ alloc.refCount frame = 0) →
      spot frame = .held := by
    intro owned
    obtain ⟨unmarked, counted⟩ := not_or.mp owned
    have rests : ∀ refilled, (spot frame).origin = some refilled → refilled = false → False :=
      fun refilled origin same => by
        have owner := (placed.resting frame refilled origin).owner
        rw [same] at owner
        exact unmarked owner
    cases place : spot frame with
    | held => rfl
    | free => exact absurd (placed.unused frame place) counted
    | parked cid refilled =>
      rw [place] at rests spared
      exact (rests refilled rfl spared).elim
    | moving refilled =>
      rw [place] at rests spared
      exact (rests refilled rfl spared).elim
  have unclaimed : ∀ (first : Allocator) after, (first, false) = (after, true) →
      Placed after (moved spot [frame] fun _ => .moving false) (frame :: flying) :=
    fun _ _ same => absurd (Prod.mk.inj same).2 Bool.false_ne_true
  unfold Cache.freeClaim
  split_ifs with special outside unowned pinned several
  · exact ⟨fun after same => by rw [← (Prod.mk.inj same).1]; exact placed, unclaimed _⟩
  · exact ⟨fun after same => by rw [← (Prod.mk.inj same).1]; exact placed, unclaimed _⟩
  · refine ⟨fun after same => ?_, unclaimed _⟩
    rw [← (Prod.mk.inj same).1]
    exact { placed with resting := fun other refilled origin =>
      { placed.resting other refilled origin with } }
  · exact ⟨fun after same => by rw [← (Prod.mk.inj same).1]; exact placed, unclaimed _⟩
  · refine ⟨fun after same => ?_, unclaimed _⟩
    rw [← (Prod.mk.inj same).1]
    exact placed.recount (holds unowned) _
  · refine ⟨nofun, fun after same => ?_⟩
    rw [← (Prod.mk.inj same).1]
    have window := not_or.mp outside
    have counted := (not_or.mp unowned).2
    exact placed.claim (holds unowned) ⟨Nat.le_of_not_lt window.1, Nat.lt_of_not_le window.2⟩
      (not_or.mp special) (by omega)

end Placed

/-! ### Flights -/

/-- The frames of all calls. -/
def aloft (flights : List Flight) : List Nat := flights.flatMap Flight.frames

theorem aloft_erase {flight : Flight} {flights : List Flight} (member : flight ∈ flights) :
    (aloft flights).Perm (flight.frames ++ aloft (flights.erase flight)) :=
  (List.perm_cons_erase member).flatMap_right _

theorem aloft_spillFlight (frames : List Nat) (flights : List Flight) :
    aloft (spillFlight frames flights) = frames ++ aloft flights := by
  unfold spillFlight
  split_ifs with none
  · rw [none]
    rfl
  · rfl

theorem stockCache_eq (cache frames : List Nat) :
    stockCache cache frames =
      ((frames.take (percpuCacheSize - cache.length)).reverse ++ cache,
        frames.drop (percpuCacheSize - cache.length)) := by
  induction frames generalizing cache with
  | nil => rw [stockCache, List.take_nil, List.drop_nil]; rfl
  | cons frame rest inductionHypothesis =>
    rw [stockCache]
    split_ifs with room
    · obtain ⟨left, less⟩ : ∃ left, percpuCacheSize - cache.length = left + 1 :=
        ⟨percpuCacheSize - cache.length - 1, by omega⟩
      have next : percpuCacheSize - (frame :: cache).length = left := by
        rw [List.length_cons]
        omega
      rw [inductionHypothesis, next, less, List.take_succ_cons, List.drop_succ_cons,
        List.reverse_cons, List.append_assoc]
      rfl
    · have full : percpuCacheSize - cache.length = 0 := by omega
      rw [inductionHypothesis, full, List.take_zero, List.drop_zero]
      rfl

/-! ### Runs -/

/-- No frame that a refill brought is freed before it is handed out. -/
def sparesRefilled (state : FrameState) : Section → Bool
  | .free frame => !(state.spot frame).refilled
  | _ => true

/-- Every frame of a state is at its place. -/
def Settled (state : FrameState) : Prop := Placed state.alloc state.spot (aloft state.flights)

namespace Settled

variable {state next : FrameState}

theorem free (settled : Settled state) {frame : Nat}
    (spared : sparesRefilled state (.free frame) = true)
    (stepped : frameStep state (.free frame) = some next) : Settled next := by
  obtain ⟨kept, claimed⟩ := Placed.freeClaim settled ((Bool.not_eq_true' _).mp spared)
  unfold frameStep at stepped
  dsimp only at stepped
  split at stepped
  · rename_i alloc outcome
    rw [← Option.some.inj stepped]
    exact kept alloc outcome
  · rename_i alloc outcome
    rw [← Option.some.inj stepped]
    exact claimed alloc outcome

theorem park (settled : Settled state) {cid frame : Nat}
    (stepped : frameStep state (.park cid frame) = some next) : Settled next := by
  unfold frameStep at stepped
  dsimp only at stepped
  by_cases member : .claimed frame ∈ state.flights
  · rw [if_pos member] at stepped
    obtain rfl := Option.some.inj stepped
    have aside : Placed state.alloc state.spot
        (frame :: aloft (state.flights.erase (.claimed frame))) :=
      settled.perm (aloft_erase member)
    unfold Settled
    rw [aloft_spillFlight]
    exact aside.percpuCacheFree cid
  · rw [if_neg member] at stepped
    cases stepped

theorem giveBack (settled : Settled state) {frames : List Nat}
    (stepped : frameStep state (.giveBack frames) = some next) : Settled next := by
  unfold frameStep at stepped
  dsimp only at stepped
  by_cases member : .spill frames ∈ state.flights
  · rw [if_pos member] at stepped
    obtain rfl := Option.some.inj stepped
    exact Placed.giveBack (settled.perm (aloft_erase member))
  · rw [if_neg member] at stepped
    cases stepped

theorem fetch (settled : Settled state) {cid : Nat}
    (stepped : frameStep state (.fetch cid) = some next) : Settled next := by
  unfold frameStep at stepped
  dsimp only at stepped
  by_cases low : (state.alloc.caches cid).length < percpuRefillThreshold
  · rw [if_pos low] at stepped
    obtain rfl := Option.some.inj stepped
    exact Placed.fetchBatch settled percpuRefillBatch
  · rw [if_neg low] at stepped
    cases stepped

theorem stock (settled : Settled state) {cid : Nat} {frames : List Nat}
    (stepped : frameStep state (.stock cid frames) = some next) : Settled next := by
  unfold frameStep at stepped
  dsimp only at stepped
  by_cases member : .batch cid frames ∈ state.flights
  · rw [if_pos member, stockCache_eq] at stepped
    obtain rfl := Option.some.inj stepped
    have aside : Placed state.alloc state.spot
        (frames ++ aloft (state.flights.erase (.batch cid frames))) :=
      settled.perm (aloft_erase member)
    have parts : frames ++ aloft (state.flights.erase (.batch cid frames)) =
        frames.take (percpuCacheSize - (state.alloc.caches cid).length) ++
          (frames.drop (percpuCacheSize - (state.alloc.caches cid).length) ++
            aloft (state.flights.erase (.batch cid frames))) := by
      rw [← List.append_assoc, List.take_append_drop]
    rw [parts] at aside
    unfold Settled
    rw [aloft_spillFlight]
    exact Placed.park cid aside
  · rw [if_neg member] at stepped
    cases stepped

theorem pop (settled : Settled state) {cid : Nat}
    (stepped : frameStep state (.pop cid) = some next) : Settled next := by
  obtain ⟨⟨frame, alloc⟩, popped, rfl⟩ := Option.map_eq_some_iff.mp stepped
  unfold cachePop at popped
  cases parts : state.alloc.caches cid with
  | nil =>
    rw [parts] at popped
    cases popped
  | cons first rest =>
    rw [parts] at popped
    obtain ⟨rfl, rfl⟩ := Prod.mk.inj (Option.some.inj popped)
    exact Placed.pop settled parts

theorem direct (settled : Settled state)
    (stepped : frameStep state .direct = some next) : Settled next := by
  obtain ⟨⟨frame, alloc⟩, got, rfl⟩ := Option.map_eq_some_iff.mp stepped
  exact (Placed.fetch settled got).2.2

theorem share (settled : Settled state) {frame : Nat}
    (stepped : frameStep state (.share frame) = some next) : Settled next := by
  unfold frameStep at stepped
  dsimp only at stepped
  by_cases held : state.spot frame = .held
  · rw [if_pos held] at stepped
    obtain rfl := Option.some.inj stepped
    unfold addReference Settled
    dsimp only
    split_ifs
    · exact Placed.recount settled held _
    · exact settled
  · rw [if_neg held] at stepped
    cases stepped

theorem flush (settled : Settled state) {cid : Nat}
    (stepped : frameStep state (.flush cid) = some next) : Settled next := by
  obtain rfl := Option.some.inj stepped
  unfold Settled
  rw [aloft_spillFlight]
  exact Placed.unpark settled (List.append_nil _).symm

theorem step (settled : Settled state) {label : Section}
    (spared : sparesRefilled state label = true)
    (stepped : frameStep state label = some next) : Settled next := by
  cases label with
  | free frame => exact settled.free spared stepped
  | park cid frame => exact settled.park stepped
  | giveBack frames => exact settled.giveBack stepped
  | fetch cid => exact settled.fetch stepped
  | stock cid frames => exact settled.stock stepped
  | pop cid => exact settled.pop stepped
  | direct => exact settled.direct stepped
  | share frame => exact settled.share stepped
  | flush cid => exact settled.flush stepped

end Settled

theorem mem_bootFrames {reserved total frame : Nat} :
    frame ∈ bootFrames reserved total ↔ reserved < frame ∧ frame < total := by
  unfold bootFrames
  rw [List.mem_reverse, List.mem_range'_1]
  omega

theorem listed_physInit {reserved total order head : Nat} :
    head ∈ (physInit reserved total).buddy.lists order ↔
      order = 0 ∧ reserved < head ∧ head < total := by
  unfold physInit
  dsimp only
  by_cases zero : order = 0
  · rw [if_pos zero, mem_bootFrames, and_iff_right zero]
  · rw [if_neg zero]
    exact iff_of_false List.not_mem_nil fun both => zero both.1

theorem sound_physInit (reserved total : Nat) :
    (physInit reserved total).buddy.Sound buddyMaxOrder reserved total where
  listed order head := by
    rw [listed_physInit]
    unfold physInit
    dsimp only
    by_cases inside : reserved < head ∧ head < total
    · rw [if_pos inside, and_iff_left inside, Mark.head.injEq]
      exact eq_comm
    · rw [if_neg inside]
      exact iff_of_false (fun both => inside both.2) nofun
  nodup order := by
    unfold physInit
    dsimp only
    by_cases zero : order = 0
    · rw [if_pos zero]
      exact List.nodup_reverse.mpr List.nodup_range'
    · rw [if_neg zero]
      exact List.nodup_nil
  order_le order head listed := by
    rw [(listed_physInit.mp listed).1]
    exact Nat.zero_le _
  aligned order head listed := by
    rw [(listed_physInit.mp listed).1]
    exact one_dvd _
  window order head listed := by
    obtain ⟨rfl, low, high⟩ := listed_physInit.mp listed
    exact ⟨low.le, high⟩
  apart first second head other listed there differ := by
    obtain ⟨rfl, -⟩ := listed_physInit.mp listed
    obtain ⟨rfl, -⟩ := listed_physInit.mp there
    rw [Nat.pow_zero]
    omega

theorem free_physInit (reserved total frame : Nat) :
    (physInit reserved total).buddy.Free frame ↔ reserved < frame ∧ frame < total := by
  constructor
  · rintro ⟨order, head, listed, inside⟩
    obtain ⟨rfl, there⟩ := listed_physInit.mp listed
    rw [(Store.inside_zero head frame).mp inside]
    exact there
  · intro inside
    exact ⟨0, frame, listed_physInit.mpr ⟨rfl, inside⟩, Store.inside_head frame 0⟩

theorem settled_boot {reserved total : Nat} (positive : 0 < reserved) :
    Settled (bootState reserved total) := by
  have spots : ∀ frame, (bootState reserved total).spot frame = .free ∨
      (bootState reserved total).spot frame = .held := by
    intro frame
    unfold bootState
    dsimp only
    split_ifs
    · exact Or.inl rfl
    · exact Or.inr rfl
  constructor
  case sound => exact sound_physInit reserved total
  case free =>
    intro frame
    refine (free_physInit reserved total frame).trans ?_
    unfold bootState
    dsimp only
    by_cases inside : reserved < frame ∧ frame < total
    · rw [if_pos inside]
      exact iff_of_true inside rfl
    · rw [if_neg inside]
      exact iff_of_false inside nofun
  case cacheNodup => exact fun _ => List.nodup_nil
  case cached =>
    intro cid frame
    refine iff_of_false List.not_mem_nil fun ⟨_, there⟩ => ?_
    rcases spots frame with free | held
    · rw [free] at there
      cases there
    · rw [held] at there
      cases there
  case nodup => exact List.nodup_nil
  case flying =>
    intro frame
    refine iff_of_false List.not_mem_nil fun ⟨_, there⟩ => ?_
    rcases spots frame with free | held
    · rw [free] at there
      cases there
    · rw [held] at there
      cases there
  case unused =>
    intro frame free
    unfold bootState at free ⊢
    dsimp only at free
    split_ifs at free with inside
    unfold physInit
    dsimp only
    rw [if_neg (Nat.not_lt_of_lt inside.1), if_neg (Nat.ne_of_gt inside.1)]
  case resting =>
    intro frame refilled rests
    rcases spots frame with free | held
    · rw [free] at rests
      cases rests
    · rw [held] at rests
      cases rests
  case zeroHeld =>
    have low : ∀ frame, frame ≤ reserved → (bootState reserved total).spot frame = .held :=
      fun frame below => if_neg fun inside => absurd inside.1 (Nat.not_lt_of_le below)
    exact ⟨low 0 positive.le, low reserved le_rfl⟩

theorem settled_reachable {state : FrameState}
    (reachable : frameSystem.Reachable (fun state label => sparesRefilled state label) state) :
    Settled state :=
  reachable.invariant Settled
    (fun _ start => by
      obtain ⟨reserved, total, positive, -, rfl⟩ := start
      exact settled_boot positive)
    fun _ _ _ settled spared stepped => settled.step spared stepped

/-! ### A free of a frame nobody holds -/

/-- Nobody holds the frame: it is on a free list or in a cache. -/
def Unheld (alloc : Allocator) (frame : Nat) : Prop :=
  alloc.buddy.Free frame ∨ ∃ cid, frame ∈ alloc.caches cid

/-- Nothing but the count of the over-frees differs. -/
def OnlyOverfree (before after : Allocator) : Prop :=
  after = { before with overfree := after.overfree }

theorem caches_buddyFreeLocked (alloc : Allocator) (frame : Nat) :
    (buddyFreeLocked alloc frame).caches = alloc.caches := by
  unfold buddyFreeLocked
  split_ifs <;> rfl

theorem caches_giveBack (alloc : Allocator) (frames : List Nat) :
    (giveBack alloc frames).caches = alloc.caches := by
  induction frames generalizing alloc with
  | nil => rfl
  | cons frame rest inductionHypothesis =>
    exact (inductionHypothesis _).trans (caches_buddyFreeLocked alloc frame)

/-- Parking a frame changes the cache, whether there is room or not. -/
theorem cache_percpuCacheFree (alloc : Allocator) (cid frame : Nat) :
    (percpuCacheFree alloc cid frame).1.caches cid ≠ alloc.caches cid := by
  intro same
  have lengths := congrArg List.length same
  unfold percpuCacheFree at lengths
  dsimp only at lengths
  split_ifs at lengths with room
  · have longer : ((alloc.setCache cid (frame :: alloc.caches cid)).setOwner frame
        .cached).caches cid = frame :: alloc.caches cid := update_self _ _ _
    rw [longer, List.length_cons] at lengths
    omega
  · have shorter : (alloc.setCache cid ((alloc.caches cid).drop ((alloc.caches cid).length -
        percpuFlushKeep))).caches cid = (alloc.caches cid).drop ((alloc.caches cid).length -
        percpuFlushKeep) := update_self _ _ _
    rw [shorter, List.length_drop] at lengths
    unfold percpuCacheSize at room
    unfold percpuFlushKeep at lengths
    omega

theorem frameFree_claimed {alloc after : Allocator} {cid frame : Nat}
    (claimed : freeClaim alloc frame = (after, true)) :
    frameFree alloc cid frame =
      giveBack (percpuCacheFree after cid frame).1 (percpuCacheFree after cid frame).2 := by
  unfold frameFree
  rw [claimed]

/-- A frame nobody holds is claimed exactly when a refill parked it. -/
theorem freeClaim_unheld {alloc : Allocator} {spot : Nat → Spot} {flying : List Nat}
    (placed : Placed alloc spot flying) {frame : Nat} (unheld : Unheld alloc frame) :
    (spot frame).refilled = false ∧
        (∃ after, freeClaim alloc frame = (after, false) ∧ OnlyOverfree alloc after) ∨
      (spot frame).refilled = true ∧
        freeClaim alloc frame = (alloc.setOwner frame .cached, true) := by
  have away : spot frame ≠ .held := by
    rcases unheld with free | ⟨cid, listed⟩
    · rw [(placed.free frame).mp free]
      nofun
    · obtain ⟨refilled, there⟩ := (placed.cached cid frame).mp listed
      rw [there]
      nofun
  have special := not_or.mpr (placed.plain away)
  have overfree : alloc.buddy.mark frame = .label .cached ∨ alloc.refCount frame = 0 →
      ∃ after, freeClaim alloc frame = (after, false) ∧ OnlyOverfree alloc after := by
    intro unowned
    unfold freeClaim
    rw [if_neg special]
    split_ifs
    · exact ⟨alloc, rfl, rfl⟩
    · exact ⟨_, rfl, rfl⟩
  have parked : ∀ refilled, (spot frame).origin = some refilled →
      refilled = false ∧
          (∃ after, freeClaim alloc frame = (after, false) ∧ OnlyOverfree alloc after) ∨
        refilled = true ∧ freeClaim alloc frame = (alloc.setOwner frame .cached, true) := by
    intro refilled origin
    have rests := placed.resting frame refilled origin
    cases refilled with
    | false => exact Or.inl ⟨rfl, overfree (Or.inl rests.owner)⟩
    | true =>
      refine Or.inr ⟨rfl, ?_⟩
      have owned : ¬(alloc.buddy.mark frame = .label .cached ∨ alloc.refCount frame = 0) := by
        rw [rests.owner, rests.one]
        rintro (marked | zero)
        · cases marked
        · cases zero
      unfold freeClaim
      rw [if_neg special,
        if_neg (not_or.mpr ⟨Nat.not_lt_of_le rests.low, Nat.not_le_of_lt rests.high⟩),
        if_neg owned, if_neg (by rw [rests.one]; decide), if_neg (by rw [rests.one]; decide)]
  rcases unheld with free | ⟨cid, listed⟩
  · have there := (placed.free frame).mp free
    rw [there]
    exact Or.inl ⟨rfl, overfree (Or.inr (placed.unused frame there))⟩
  · obtain ⟨refilled, there⟩ := (placed.cached cid frame).mp listed
    have flag : (spot frame).refilled = refilled := by rw [there]; rfl
    rw [flag]
    exact parked refilled (by rw [there]; rfl)

/-- In every run in which no frame brought by a refill is freed before it is handed out, a free
of a frame nobody holds changes nothing but the count of the over-frees exactly when no refill
parked the frame; and no frame is parked twice. -/
theorem frameFree_inert_iff {state : FrameState}
    (reachable : frameSystem.Reachable (fun state label => sparesRefilled state label) state)
    {frame : Nat} (unheld : Unheld state.alloc frame) (cid : Nat) :
    (OnlyOverfree state.alloc (frameFree state.alloc cid frame) ↔
        (state.spot frame).refilled = false) ∧
      (∀ home, (state.alloc.caches home).Nodup) ∧
      ∀ home other, frame ∈ state.alloc.caches home → frame ∈ state.alloc.caches other →
        home = other := by
  have settled := settled_reachable reachable
  refine ⟨?_, settled.cacheNodup, fun home other here there => ?_⟩
  · rcases freeClaim_unheld settled unheld with ⟨spared, after, refused, only⟩ | ⟨brought, claimed⟩
    · have same : frameFree state.alloc cid frame = after := by
        unfold frameFree
        rw [refused]
      rw [same]
      exact iff_of_true only spared
    · rw [brought, frameFree_claimed claimed]
      refine iff_of_false (fun only => ?_) (Ne.symm Bool.false_ne_true)
      have caches := congrFun (congrArg Allocator.caches only) cid
      rw [caches_giveBack] at caches
      exact cache_percpuCacheFree _ cid frame caches
  · obtain ⟨first, place⟩ := (settled.cached home frame).mp here
    obtain ⟨second, again⟩ := (settled.cached other frame).mp there
    rw [place] at again
    exact (Spot.parked.inj again).1

/-- A free of a frame of the lists right after the start. -/
theorem frameFree_inert_boot :
    (OnlyOverfree (bootState 8 40).alloc (frameFree (bootState 8 40).alloc 0 20) ↔
        ((bootState 8 40).spot 20).refilled = false) ∧
      (∀ home, ((bootState 8 40).alloc.caches home).Nodup) ∧
      ∀ home other, 20 ∈ (bootState 8 40).alloc.caches home →
        20 ∈ (bootState 8 40).alloc.caches other → home = other :=
  frameFree_inert_iff (.init ⟨8, 40, by decide, by decide, rfl⟩)
    (Or.inl ((free_physInit 8 40 20).mpr (by decide))) 0

/-! ### A frame of a refill -/

/-- The first allocation of a core: a refill of sixteen frames, of which one goes out. -/
def firstAllocation : List Section :=
  [.fetch 0, .stock 0 ((List.range' 24 16).reverse), .pop 0]

def stockedState : FrameState :=
  (Transition.execute frameStep (bootState 8 40) firstAllocation).getD (bootState 8 40)

theorem stockedState_reachable : frameSystem.Reachable Transition.anyStep stockedState := by
  have completes : (Transition.execute frameStep (bootState 8 40) firstAllocation).isSome = true := by
    decide +kernel
  obtain ⟨final, run⟩ := Option.isSome_iff_exists.mp completes
  unfold stockedState
  rw [run]
  exact Transition.reachable_execute (.init ⟨8, 40, by decide, by decide, rfl⟩) run

/-- A stray free of a frame that a refill parked parks it again. -/
theorem refilled_frame_parked_twice :
    ¬∀ (state : FrameState) (cid frame : Nat), frameSystem.Reachable Transition.anyStep state →
      Unheld state.alloc frame → OnlyOverfree state.alloc (frameFree state.alloc cid frame) := by
  intro claimed
  have only := claimed stockedState 0 25 stockedState_reachable
    (Or.inr ⟨0, by decide +kernel⟩)
  have caches := congrFun (congrArg Allocator.caches only) 0
  exact absurd caches (by decide +kernel)

end MectovOS.Vmm.Cache
