/-
This file models the frame allocator of src/sys/vmm.c: the buddy lists with the
order byte of every frame, the reference counts, the bitmap, and the per-CPU
caches. A call is cut where it drops `vmm_lock` or the lock of a cache, so calls
of several cores interleave: `frame_free` claims a frame before it parks it, a
full cache spills before the frames go back to the lists, and a refill fetches
its batch before it stocks the cache.

Beside the allocator the statements keep where every frame is, and whether the
frame of a cache was put there by a refill.
-/

import MectovOS.Lib.Buddy
import MectovOS.Lib.Transition

namespace MectovOS.Vmm.Cache

open Function

open Buddy (Store Mark)

/-! ### The allocator -/

/-- `BUDDY_MAX_ORDER`, `PERCPU_CACHE_SIZE`, `PERCPU_REFILL_THRESHOLD`, `PERCPU_REFILL_BATCH`,
`PERCPU_FLUSH_KEEP` and `FRAME_PINNED`. -/
def buddyMaxOrder : Nat := 9
def percpuCacheSize : Nat := 32
def percpuRefillThreshold : Nat := 8
def percpuRefillBatch : Nat := 16
def percpuFlushKeep : Nat := 16
def framePinned : Nat := 255

/-- The order byte of a frame that starts no free block: `BUDDY_ALLOCATED` or
`BUDDY_CACHED`. -/
inductive FrameOwner where
  | allocated
  | cached
  deriving DecidableEq

/-- The allocator; frames are given by their number. The frames of a cache are listed from the
last one parked. -/
structure Allocator where
  buddy : Store FrameOwner
  refCount : Nat → Nat
  bitmap : Nat → Bool
  usedCount : Nat
  overfree : Nat
  caches : Nat → List Nat
  reservedPages : Nat
  totalPages : Nat
  zeroPage : Nat

/-- Set the order byte of a frame. -/
def Allocator.setOwner (state : Allocator) (frame : Nat) (owner : FrameOwner) : Allocator :=
  { state with buddy := state.buddy.relabel frame owner }

def Allocator.setCache (state : Allocator) (cid : Nat) (frames : List Nat) : Allocator :=
  { state with caches := update state.caches cid frames }

/-! ### The buddy core -/

/-- `buddy_alloc_locked`. -/
def buddyAllocLocked (state : Allocator) : Option (Nat × Allocator) :=
  (state.buddy.take buddyMaxOrder .allocated).map fun (frame, buddy) =>
    (frame, { state with
      buddy := buddy
      bitmap := update state.bitmap frame true
      refCount := update state.refCount frame 1
      usedCount := state.usedCount + 1 })

/-- `buddy_free_locked`. -/
def buddyFreeLocked (state : Allocator) (frame : Nat) : Allocator :=
  if frame < state.reservedPages ∨ state.totalPages ≤ frame then state
  else if framePinned ≤ state.refCount frame then state
  else
    { state with
      buddy := state.buddy.put buddyMaxOrder state.reservedPages state.totalPages .allocated frame
      refCount := update state.refCount frame 0
      usedCount := state.usedCount - 1
      bitmap := update state.bitmap frame false }

/-- The frames of a spill or a surplus, in one critical section. -/
def giveBack (state : Allocator) (frames : List Nat) : Allocator :=
  frames.foldl buddyFreeLocked state

/-- `percpu_fetch_batch`: the frames in the order they were fetched. -/
def fetchBatch : Nat → Allocator → Allocator × List Nat
  | 0, state => (state, [])
  | want + 1, state =>
    match buddyAllocLocked state with
    | none => (state, [])
    | some (frame, state) =>
      let (state, rest) := fetchBatch want state
      (state, frame :: rest)

/-! ### The caches -/

/-- The part of `percpu_cache_refill` that sorts a batch: what fits stays, the rest is
surplus. -/
def stockCache : List Nat → List Nat → List Nat × List Nat
  | cache, [] => (cache, [])
  | cache, frame :: rest =>
    if cache.length < percpuCacheSize then stockCache (frame :: cache) rest
    else
      let (cache, surplus) := stockCache cache rest
      (cache, frame :: surplus)

/-- The part of `percpu_cache_alloc` behind the refill: the frame goes to a caller. -/
def cachePop (state : Allocator) (cid : Nat) : Option (Nat × Allocator) :=
  match state.caches cid with
  | [] => none
  | frame :: rest => some (frame, (state.setCache cid rest).setOwner frame .allocated)

/-- `percpu_cache_free`: a full cache keeps its older half and spills the rest with the frame. -/
def percpuCacheFree (state : Allocator) (cid frame : Nat) : Allocator × List Nat :=
  let cache := state.caches cid
  if cache.length < percpuCacheSize then
    ((state.setCache cid (frame :: cache)).setOwner frame .cached, [])
  else
    let spilled := cache.length - percpuFlushKeep
    (state.setCache cid (cache.drop spilled), cache.take spilled ++ [frame])

/-- The section of `frame_free` under `vmm_lock`; the flag says whether the last reference was
claimed. -/
def freeClaim (state : Allocator) (frame : Nat) : Allocator × Bool :=
  if frame = 0 ∨ frame = state.zeroPage then (state, false)
  else if frame < state.reservedPages ∨ state.totalPages ≤ frame then (state, false)
  else if state.buddy.mark frame = .label .cached ∨ state.refCount frame = 0 then
    ({ state with overfree := state.overfree + 1 }, false)
  else if framePinned ≤ state.refCount frame then (state, false)
  else if 1 < state.refCount frame then
    ({ state with
      refCount := update state.refCount frame (state.refCount frame - 1) }, false)
  else (state.setOwner frame .cached, true)

/-- `frame_free` on core `cid`, from its start to its end. -/
def frameFree (state : Allocator) (cid frame : Nat) : Allocator :=
  match freeClaim state frame with
  | (state, false) => state
  | (state, true) =>
    let (state, spilled) := percpuCacheFree state cid frame
    giveBack state spilled

/-- A reference taken by a caller that holds the frame: copy-on-write, shared memory and fork
count up to below `FRAME_PINNED`. -/
def addReference (state : Allocator) (frame : Nat) : Allocator :=
  if state.refCount frame < framePinned then
    { state with refCount := update state.refCount frame (state.refCount frame + 1) }
  else state

/-! ### phys_init -/

/-- The frames above the reservation and the zero page, as `buddy_rebuild_lists` lists them. -/
def bootFrames (reserved total : Nat) : List Nat :=
  (List.range' (reserved + 1) (total - (reserved + 1))).reverse

/-- The allocator when its lists are built for the first time: the kernel is reserved, and the
frame behind it is the zero page. -/
def physInit (reserved total : Nat) : Allocator where
  buddy :=
    { lists := fun order => if order = 0 then bootFrames reserved total else []
      mark := fun frame => if reserved < frame ∧ frame < total then .head 0
        else .label .allocated }
  refCount := fun frame =>
    if frame < reserved then 1 else if frame = reserved then framePinned else 0
  bitmap := fun frame => frame ≤ reserved
  usedCount := reserved + 1
  overfree := 0
  caches := fun _ => []
  reservedPages := reserved
  totalPages := total
  zeroPage := reserved

/-! ### The transition system -/

/-- Where a frame is: with a caller (or reserved), on a free list, in the cache of a core, or on
its way in a call. The flag says that a refill brought it. -/
inductive Spot where
  | held
  | free
  | parked (cid : Nat) (refilled : Bool)
  | moving (refilled : Bool)
  deriving DecidableEq

/-- What a call holds between two sections: a claimed frame, a fetched batch, or frames to give
back. -/
inductive Flight where
  | claimed (frame : Nat)
  | batch (cid : Nat) (frames : List Nat)
  | spill (frames : List Nat)
  deriving DecidableEq

def Flight.frames : Flight → List Nat
  | .claimed frame => [frame]
  | .batch _ frames => frames
  | .spill frames => frames

structure FrameState where
  alloc : Allocator
  flights : List Flight
  spot : Nat → Spot

/-- Did a refill bring this frame, and nobody take it since? -/
def Spot.refilled : Spot → Bool
  | .parked _ refilled => refilled
  | .moving refilled => refilled
  | _ => false

/-- Some of the frames are at a new place. -/
def moved (spot : Nat → Spot) (frames : List Nat) (place : Nat → Spot) : Nat → Spot :=
  fun frame => if frame ∈ frames then place frame else spot frame

/-- One critical section. -/
inductive Section where
  | free (frame : Nat)
  | park (cid frame : Nat)
  | giveBack (frames : List Nat)
  | fetch (cid : Nat)
  | stock (cid : Nat) (frames : List Nat)
  | pop (cid : Nat)
  | direct
  | share (frame : Nat)
  | flush (cid : Nat)

/-- What is left to give back becomes a flight of its own. -/
def spillFlight (frames : List Nat) (flights : List Flight) : List Flight :=
  if frames = [] then flights else .spill frames :: flights

/-- One step; `none` when the section cannot run. -/
def frameStep (state : FrameState) : Section → Option FrameState
  | .free frame =>
    match freeClaim state.alloc frame with
    | (alloc, false) => some { state with alloc := alloc }
    | (alloc, true) =>
      some ⟨alloc, .claimed frame :: state.flights,
        moved state.spot [frame] fun _ => .moving false⟩
  | .park cid frame =>
    if .claimed frame ∈ state.flights then
      let (alloc, spilled) := percpuCacheFree state.alloc cid frame
      some ⟨alloc, spillFlight spilled (state.flights.erase (.claimed frame)),
        if spilled = [] then moved state.spot [frame] fun _ => .parked cid false
        else moved state.spot spilled fun other => .moving (state.spot other).refilled⟩
    else none
  | .giveBack frames =>
    if .spill frames ∈ state.flights then
      some ⟨giveBack state.alloc frames, state.flights.erase (.spill frames),
        moved state.spot frames fun _ => .free⟩
    else none
  | .fetch cid =>
    if (state.alloc.caches cid).length < percpuRefillThreshold then
      let (alloc, frames) := fetchBatch percpuRefillBatch state.alloc
      some ⟨alloc, .batch cid frames :: state.flights,
        moved state.spot frames fun _ => .moving true⟩
    else none
  | .stock cid frames =>
    if .batch cid frames ∈ state.flights then
      let (cache, surplus) := stockCache (state.alloc.caches cid) frames
      let stocked := frames.take (percpuCacheSize - (state.alloc.caches cid).length)
      some ⟨state.alloc.setCache cid cache,
        spillFlight surplus (state.flights.erase (.batch cid frames)),
        moved state.spot stocked fun other => .parked cid (state.spot other).refilled⟩
    else none
  | .pop cid =>
    (cachePop state.alloc cid).map fun (frame, alloc) =>
      { state with alloc := alloc, spot := moved state.spot [frame] fun _ => .held }
  | .direct =>
    (buddyAllocLocked state.alloc).map fun (frame, alloc) =>
      { state with alloc := alloc, spot := moved state.spot [frame] fun _ => .held }
  | .share frame =>
    if state.spot frame = .held then
      some { state with alloc := addReference state.alloc frame }
    else none
  | .flush cid =>
    some ⟨state.alloc.setCache cid [], spillFlight (state.alloc.caches cid) state.flights,
      moved state.spot (state.alloc.caches cid) fun other =>
        .moving (state.spot other).refilled⟩

/-- The state after `phys_init`. -/
def bootState (reserved total : Nat) : FrameState where
  alloc := physInit reserved total
  flights := []
  spot frame := if reserved < frame ∧ frame < total then .free else .held

/-- The frame allocator as a transition system. -/
def frameSystem : Transition.System FrameState Section :=
  Transition.System.ofStep
    (fun state => ∃ reserved total, 0 < reserved ∧ reserved < total ∧
      state = bootState reserved total) frameStep

end MectovOS.Vmm.Cache
