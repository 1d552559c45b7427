/-
This file is a small library of split virtqueues: an available ring that the driver fills, a
used ring that the device fills, indices of 16 bits that run freely on both sides, and the
chains that a device has taken and works on. A queue on which the driver has at most one
chain at a time goes through four phases, whatever the size of the rings is.
-/

import Mathlib

namespace Virtqueue

open Function

variable {Work : Type}

/-- An entry of a ring: the head of its chain, and the number of the request that made it, which
neither side reads. -/
structure Entry where
  head : Nat
  ticket : Nat
  deriving DecidableEq

/-- The rings with the cursors of both sides, and the chains that the device has taken, in order,
with what it has done of them. -/
structure Queue (Work : Type) where
  size : Nat
  avail : Nat → Entry
  availIdx : Nat
  used : Nat → Entry
  usedIdx : Nat
  lastUsed : Nat
  seen : Nat
  taken : List (Entry × Work)

/-- An index of 16 bits goes on. -/
def bump (index : Nat) : Nat := (index + 1) % 2 ^ 16

/-- A queue that nobody has used. -/
def Queue.fresh (size : Nat) : Queue Work :=
  ⟨size, fun _ => ⟨0, 0⟩, 0, fun _ => ⟨0, 0⟩, 0, 0, 0, []⟩

/-! ### The driver -/

/-- Make a chain available. -/
def Queue.post (queue : Queue Work) (entry : Entry) : Queue Work :=
  { queue with
    avail := update queue.avail (queue.availIdx % queue.size) entry
    availIdx := bump queue.availIdx }

/-- Is there a completion that the driver has not taken? -/
def Queue.answered (queue : Queue Work) : Bool := queue.usedIdx != queue.lastUsed

/-- The completion at the cursor of the driver. -/
def Queue.current (queue : Queue Work) : Entry := queue.used (queue.lastUsed % queue.size)

/-- The cursor of the driver goes on. -/
def Queue.consume (queue : Queue Work) : Queue Work :=
  { queue with lastUsed := bump queue.lastUsed }

/-! ### The device -/

/-- The device takes the next chain that is available. -/
def Queue.take (queue : Queue Work) (work : Work) : Option (Queue Work) :=
  if queue.seen ≠ queue.availIdx then
    some { queue with
      seen := bump queue.seen
      taken := queue.taken ++ [(queue.avail (queue.seen % queue.size), work)] }
  else none

/-- The device goes on with a chain that it has taken. -/
def Queue.work (queue : Queue Work) (index : Nat) (go : Entry → Work → Option Work) :
    Option (Queue Work) :=
  (queue.taken[index]?).bind fun chain => (go chain.1 chain.2).map fun work =>
    { queue with taken := queue.taken.set index (chain.1, work) }

/-- The device completes the first chain that it has taken. -/
def Queue.push (queue : Queue Work) (ready : Work → Bool) : Option (Queue Work) :=
  match queue.taken with
  | [] => none
  | chain :: rest =>
    if ready chain.2 then
      some { queue with
        used := update queue.used (queue.usedIdx % queue.size) chain.1
        usedIdx := bump queue.usedIdx
        taken := rest }
    else none

/-- Is there a chain that the device has not completed? -/
def Queue.outstanding (queue : Queue Work) : Bool :=
  queue.seen != queue.availIdx || !queue.taken.isEmpty

/-! ### One chain at a time -/

/-- Where the one chain of a queue is. -/
inductive Phase (Work : Type) where
  | idle
  | available (entry : Entry)
  | taken (entry : Entry) (work : Work)
  | answered (entry : Entry)

/-- The cursors and the rings are those of a phase. -/
def Queue.Single (queue : Queue Work) : Phase Work → Prop
  | .idle => queue.seen = queue.availIdx ∧ queue.taken = [] ∧ queue.usedIdx = queue.lastUsed
  | .available entry => queue.availIdx = bump queue.seen ∧
      queue.avail (queue.seen % queue.size) = entry ∧ queue.taken = [] ∧
      queue.usedIdx = queue.lastUsed
  | .taken entry work => queue.seen = queue.availIdx ∧ queue.taken = [(entry, work)] ∧
      queue.usedIdx = queue.lastUsed
  | .answered entry => queue.seen = queue.availIdx ∧ queue.taken = [] ∧
      queue.usedIdx = bump queue.lastUsed ∧ queue.used (queue.lastUsed % queue.size) = entry

/-- The chain that the driver has not taken back. -/
def Phase.entry : Phase Work → Option Entry
  | .idle => none
  | .available entry | .taken entry _ | .answered entry => some entry

/-- Has the device the chain still in front of it? -/
def Phase.pending : Phase Work → Bool
  | .available _ | .taken _ _ => true
  | .idle | .answered _ => false

variable {queue next : Queue Work} {phase : Phase Work}

theorem bump_ne (index : Nat) : bump index ≠ index := by
  show (index + 1) % 2 ^ 16 ≠ index
  omega

theorem Queue.single_fresh (size : Nat) : (Queue.fresh size : Queue Work).Single .idle :=
  ⟨rfl, rfl, rfl⟩

theorem Queue.take_size {work : Work} (took : queue.take work = some next) :
    next.size = queue.size := by
  obtain ⟨-, equal⟩ := Option.ite_none_right_eq_some.mp took
  obtain rfl := Option.some.inj equal
  rfl

theorem Queue.work_size {index : Nat} {go : Entry → Work → Option Work}
    (went : queue.work index go = some next) : next.size = queue.size := by
  obtain ⟨chain, -, went⟩ := Option.bind_eq_some_iff.mp went
  obtain ⟨after, -, rfl⟩ := Option.map_eq_some_iff.mp went
  rfl

theorem Queue.push_size {ready : Work → Bool} (pushed : queue.push ready = some next) :
    next.size = queue.size := by
  rw [Queue.push] at pushed
  split at pushed
  · cases pushed
  · obtain ⟨-, equal⟩ := Option.ite_none_right_eq_some.mp pushed
    obtain rfl := Option.some.inj equal
    rfl

/-- Making a chain available on an idle queue. -/
theorem Queue.Single.post (single : queue.Single .idle) (entry : Entry) :
    (queue.post entry).Single (.available entry) := by
  obtain ⟨same, none, level⟩ := single
  refine ⟨?_, ?_, none, level⟩
  · show bump queue.availIdx = bump queue.seen
    rw [same]
  · show update queue.avail (queue.availIdx % queue.size) entry
      (queue.seen % queue.size) = entry
    rw [same, update_self]

/-- A device can take only the one chain that is available. -/
theorem Queue.Single.take (single : queue.Single phase) {work : Work}
    (took : queue.take work = some next) :
    ∃ entry, phase = .available entry ∧ next.Single (.taken entry work) := by
  obtain ⟨differs, equal⟩ := Option.ite_none_right_eq_some.mp took
  obtain rfl := Option.some.inj equal
  cases phase with
  | idle => exact absurd single.1 differs
  | available entry =>
    obtain ⟨ahead, holds, none, level⟩ := single
    refine ⟨entry, rfl, ahead.symm, ?_, level⟩
    show queue.taken ++ [(queue.avail (queue.seen % queue.size), work)] = [(entry, work)]
    rw [none, holds]
    rfl
  | taken entry done => exact absurd single.1 differs
  | answered entry => exact absurd single.1 differs

/-- A device can go on only with the one chain that it has taken. -/
theorem Queue.Single.work (single : queue.Single phase) {index : Nat}
    {go : Entry → Work → Option Work} (went : queue.work index go = some next) :
    ∃ entry before after, phase = .taken entry before ∧
      queue.taken[index]? = some (entry, before) ∧ go entry before = some after ∧
      next.Single (.taken entry after) := by
  obtain ⟨chain, found, went⟩ := Option.bind_eq_some_iff.mp went
  obtain ⟨after, goes, rfl⟩ := Option.map_eq_some_iff.mp went
  have none : queue.taken = [] → False := by
    intro empty
    rw [empty] at found
    cases found
  cases phase with
  | idle => exact (none single.2.1).elim
  | available entry => exact (none single.2.2.1).elim
  | answered entry => exact (none single.2.1).elim
  | taken entry before =>
    obtain ⟨same, only, level⟩ := single
    rw [only] at found
    have first : index = 0 := by
      by_contra later
      obtain ⟨smaller, rfl⟩ := Nat.exists_eq_succ_of_ne_zero later
      cases found
    subst first
    obtain rfl := Option.some.inj found
    refine ⟨entry, before, after, rfl, by rw [only]; rfl, goes, same, ?_, level⟩
    show queue.taken.set 0 (entry, after) = [(entry, after)]
    rw [only]
    rfl

/-- A device can complete only the one chain that it has taken. -/
theorem Queue.Single.push (single : queue.Single phase) {ready : Work → Bool}
    (pushed : queue.push ready = some next) :
    ∃ entry work, phase = .taken entry work ∧ ready work = true ∧
      next.Single (.answered entry) := by
  rw [Queue.push] at pushed
  cases phase with
  | idle => rw [single.2.1] at pushed; cases pushed
  | available entry => rw [single.2.2.1] at pushed; cases pushed
  | answered entry => rw [single.2.1] at pushed; cases pushed
  | taken entry work =>
    obtain ⟨same, only, level⟩ := single
    rw [only] at pushed
    obtain ⟨done, equal⟩ := Option.ite_none_right_eq_some.mp pushed
    obtain rfl := Option.some.inj equal
    refine ⟨entry, work, rfl, done, same, rfl, ?_, ?_⟩
    · show bump queue.usedIdx = bump queue.lastUsed
      rw [level]
    · show update queue.used (queue.usedIdx % queue.size) entry
        (queue.lastUsed % queue.size) = entry
      rw [level, update_self]

/-- A completion that the driver sees is that of the one chain. -/
theorem Queue.Single.current (single : queue.Single phase) (answered : queue.answered = true) :
    phase = .answered queue.current := by
  have differs : queue.usedIdx ≠ queue.lastUsed := bne_iff_ne.mp answered
  cases phase with
  | idle => exact absurd single.2.2 differs
  | available entry => exact absurd single.2.2.2 differs
  | taken entry work => exact absurd single.2.2 differs
  | answered entry => exact congrArg Phase.answered single.2.2.2.symm

/-- A queue whose chain is completed and taken is idle again. -/
theorem Queue.Single.consume {entry : Entry} (single : queue.Single (.answered entry)) :
    queue.consume.Single .idle := by
  obtain ⟨same, none, ahead, -⟩ := single
  exact ⟨same, none, ahead⟩

theorem Queue.Single.outstanding (single : queue.Single phase) :
    queue.outstanding = phase.pending := by
  rw [Queue.outstanding]
  cases phase with
  | idle => rw [single.1, single.2.1]; exact congrArg (· || false) (bne_self_eq_false _)
  | available entry =>
    rw [single.1, bne_iff_ne.mpr (bump_ne _).symm]
    rfl
  | taken entry work =>
    rw [single.2.1]
    exact Bool.or_true _
  | answered entry => rw [single.1, single.2.1]; exact congrArg (· || false) (bne_self_eq_false _)

end Virtqueue
