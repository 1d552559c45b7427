/-
This file models `vnet_send` of src/drivers/virtio_net.c: every frame goes through the one
transmit buffer and descriptor 0, and the send waits, for a bounded time, until the device
has let go of it; the device takes the chain, reads its descriptor and the bytes one by one,
and completes it, after any delay.
-/

import MectovOS.Lib.Virtqueue
import MectovOS.Lib.Transition

namespace MectovOS.Virtio

open Virtqueue Transition Function

/-- `VNET_HDR_SIZE`, and the longest frame that `vnet_send` takes. -/
def vnetHdrSize : Nat := 10
def vnetFrameMax : Nat := 1514

/-- The header of zeros and the frame. -/
def framed (frame : List Nat) : List Nat := List.replicate vnetHdrSize 0 ++ frame

/-- Where a send is: in front of the buffer, in front of the ring, or waiting. -/
inductive SendStage where
  | fill
  | post
  | poll
  deriving DecidableEq

/-- `vnet_send`. -/
structure Sending where
  frame : List Nat
  stage : SendStage
  ticket : Nat

/-- What the device has read of a chain: the length in the descriptor, and some bytes. -/
structure Reading where
  len : Option Nat
  got : Nat → Option Nat

/-- The transmit queue, `vnet_tx_buf` and the length in descriptor 0, the send that holds
`vnet_lock`, and whether a send has ever given up. Then the frame of each request, the requests
that the device has not completed, for each completion that a send has taken the request it waited
for and the request that was completed, and what the device has sent for each request. -/
structure Net where
  queue : Queue Reading
  buf : Nat → Nat
  len : Nat
  sending : Option Sending
  gaveUp : Bool
  frames : List (List Nat)
  unfinished : List Nat
  taken : List (Nat × Nat)
  wire : List (Nat × List (Option Nat))

/-- The device reads the length in the descriptor. -/
def Net.load (net : Net) (_ : Entry) (reading : Reading) : Option Reading :=
  if reading.len.isNone then some { reading with len := some net.len } else none

/-- The device reads a byte of the buffer. -/
def Net.fetch (net : Net) (index : Nat) (_ : Entry) (reading : Reading) : Option Reading :=
  some { reading with got := update reading.got index (some (net.buf index)) }

/-- Has the device all of a frame? -/
def Reading.full (reading : Reading) : Bool :=
  reading.len.any fun len => (List.range len).all fun index => (reading.got index).isSome

/-- What the device sends. -/
def Reading.bytes (reading : Reading) : List (Option Nat) :=
  (List.range (reading.len.getD 0)).map reading.got

/-- A send that takes `vnet_lock`, its steps, and those of the device. -/
inductive NetEvent where
  | send (frame : List Nat)
  | fill
  | post
  | poll
  | giveUp
  | take
  | load (index : Nat)
  | fetch (index byte : Nat)
  | push

/-- The send that has the lock, when it is at a stage. -/
def Net.sendingAt (net : Net) (stage : SendStage) : Option Sending :=
  net.sending.bind fun sending => if sending.stage = stage then some sending else none

def Net.step (net : Net) : NetEvent → Option Net
  | .send frame =>
    if net.sending.isNone ∧ 1 ≤ frame.length ∧ frame.length ≤ vnetFrameMax then
      some { net with sending := some ⟨frame, .fill, 0⟩ }
    else none
  | .fill => (net.sendingAt .fill).map fun sending =>
    { net with
      buf := fun index => ((framed sending.frame)[index]?).getD (net.buf index)
      len := vnetHdrSize + sending.frame.length
      sending := some { sending with stage := .post } }
  | .post => (net.sendingAt .post).map fun sending =>
    { net with
      queue := net.queue.post ⟨0, net.frames.length⟩
      frames := net.frames ++ [sending.frame]
      unfinished := net.unfinished ++ [net.frames.length]
      sending := some { sending with stage := .poll, ticket := net.frames.length } }
  | .poll => (net.sendingAt .poll).bind fun sending =>
    if net.queue.answered then
      some { net with
        queue := net.queue.consume
        taken := net.taken ++ [(sending.ticket, net.queue.current.ticket)]
        sending := none }
    else none
  | .giveUp => (net.sendingAt .poll).map fun _ => { net with sending := none, gaveUp := true }
  | .take => (net.queue.take ⟨none, fun _ => none⟩).map fun queue => { net with queue := queue }
  | .load index => (net.queue.work index net.load).map fun queue => { net with queue := queue }
  | .fetch index byte =>
    (net.queue.work index (net.fetch byte)).map fun queue => { net with queue := queue }
  | .push => (net.queue.taken.head?).bind fun chain =>
    (net.queue.push Reading.full).map fun queue =>
      { net with
        queue := queue
        unfinished := net.unfinished.erase chain.1.ticket
        wire := net.wire ++ [(chain.1.ticket, chain.2.bytes)] }

/-- The driver is up, and nothing was sent. -/
structure Net.Fresh (net : Net) : Prop where
  queue : ∃ size, net.queue = Queue.fresh size
  sending : net.sending = none
  gaveUp : net.gaveUp = false
  unfinished : net.unfinished = []
  taken : net.taken = []
  wire : net.wire = []

def netSystem : System Net NetEvent := System.ofStep Net.Fresh Net.step

/-- The transmit buffer and the descriptor hold a frame. -/
def Net.Holds (net : Net) (frame : List Nat) : Prop :=
  net.len = vnetHdrSize + frame.length ∧
    ∀ index < net.len, (framed frame)[index]? = some (net.buf index)

/-- A request that the device has not completed still finds its frame in the buffer, what the
device has sent for a request is its frame, and every send that took a completion took its own. -/
structure Net.Kept (net : Net) : Prop where
  buffer : ∀ ticket ∈ net.unfinished, ∃ frame, net.frames[ticket]? = some frame ∧ net.Holds frame
  wire : ∀ sent ∈ net.wire, ∃ frame, net.frames[sent.1]? = some frame ∧
    sent.2 = (framed frame).map some
  taken : ∀ pair ∈ net.taken, pair.2 = pair.1

/-- No send has ever given up. -/
def NetEvent.inTime (net : Net) : NetEvent → Bool
  | .send _ => !net.gaveUp
  | _ => true

/-! ### The invariant -/

/-- What the device has read of its chain is what the buffer and the descriptor hold. -/
def Net.Reads (net : Net) : Phase Reading → Prop
  | .taken _ reading => (∀ len, reading.len = some len → len = net.len) ∧
      ∀ index byte, reading.got index = some byte → byte = net.buf index
  | _ => True

/-- What a send knows at its stage. -/
def Net.Here (net : Net) (phase : Phase Reading) (sending : Sending) : Prop :=
  match sending.stage with
  | .fill => phase = .idle
  | .post => phase = .idle ∧ net.Holds sending.frame
  | .poll => ∃ entry, phase.entry = some entry ∧ entry.ticket = sending.ticket

/-- The transmit queue is in a phase of its one chain. -/
structure NetInv (net : Net) (phase : Phase Reading) : Prop where
  single : net.queue.Single phase
  reads : net.Reads phase
  idle : net.gaveUp = false → net.sending = none → phase = .idle
  here : ∀ sending, net.sending = some sending → net.Here phase sending
  unfinished : net.unfinished =
    if phase.pending then (phase.entry.map Entry.ticket).toList else []
  kept : net.Kept

variable {net next : Net} {phase : Phase Reading}

theorem sendingAt_some {stage : SendStage} {sending : Sending}
    (found : net.sendingAt stage = some sending) :
    net.sending = some sending ∧ sending.stage = stage := by
  obtain ⟨held, is, found⟩ := Option.bind_eq_some_iff.mp found
  obtain ⟨at_, equal⟩ := Option.ite_none_right_eq_some.mp found
  obtain rfl := Option.some.inj equal
  exact ⟨is, at_⟩

theorem framed_length (frame : List Nat) : (framed frame).length = vnetHdrSize + frame.length := by
  rw [framed, List.length_append, List.length_replicate]

/-- A step of the device that completes nothing: only what it has read changes. -/
theorem NetInv.device (inv : NetInv net phase) {queue : Queue Reading} {later : Phase Reading}
    (single : queue.Single later) (reads : net.Reads later)
    (pending : phase.pending = true) (stays : later.pending = true)
    (entry : later.entry = phase.entry) : NetInv { net with queue := queue } later := by
  have busy : phase ≠ .idle := by
    rintro rfl
    exact absurd pending Bool.false_ne_true
  refine ⟨single, ?_, fun gave none => absurd (inv.idle gave none) busy, fun sending is => ?_, ?_,
    ⟨inv.kept.buffer, inv.kept.wire, inv.kept.taken⟩⟩
  · cases later with
    | taken _ _ => exact reads
    | idle => trivial
    | available _ => trivial
    | answered _ => trivial
  · have here := inv.here sending is
    rw [Net.Here] at here ⊢
    split at here
    · exact absurd here busy
    · exact absurd here.1 busy
    · rw [entry]
      exact here
  · show net.unfinished = _
    rw [inv.unfinished, pending, stays, entry]

/-- A frame that was read to its end is the frame in the buffer. -/
theorem Net.Reads.bytes {entry : Entry} {reading : Reading}
    (reads : net.Reads (.taken entry reading)) (full : reading.full = true) {frame : List Nat}
    (holds : net.Holds frame) : reading.bytes = (framed frame).map some := by
  obtain ⟨len, is, all⟩ := (Option.any_eq_true ..).mp full
  have same := reads.1 len is
  have length : len = (framed frame).length := by
    rw [same, holds.1, framed_length]
  refine List.ext_getElem? fun index => ?_
  rw [Reading.bytes, is, Option.getD_some, List.getElem?_map, List.getElem?_map]
  by_cases below : index < len
  · rw [List.getElem?_range below, Option.map_some, holds.2 index (same ▸ below), Option.map_some]
    obtain ⟨byte, got⟩ := Option.isSome_iff_exists.mp
      (List.all_eq_true.mp all index (List.mem_range.mpr below))
    rw [got, reads.2 index byte got]
  · have above := Nat.not_lt.mp below
    rw [List.getElem?_eq_none (by rw [List.length_range]; exact above),
      List.getElem?_eq_none (length ▸ above)]
    rfl

/-- A step in time keeps the invariant. -/
theorem NetInv.step (inv : NetInv net phase) {event : NetEvent} (inTime : event.inTime net = true)
    (step : net.step event = some next) : ∃ phase, NetInv next phase := by
  cases event with
  | send frame =>
    obtain ⟨⟨free, -⟩, equal⟩ := Option.ite_none_right_eq_some.mp step
    obtain rfl := Option.some.inj equal
    have idle := inv.idle (Bool.not_eq_true' _ |>.mp inTime) (Option.isNone_iff_eq_none.mp free)
    subst idle
    refine ⟨.idle, inv.single, trivial, fun _ _ => rfl, fun sending is => ?_, inv.unfinished,
      ⟨inv.kept.buffer, inv.kept.wire, inv.kept.taken⟩⟩
    obtain rfl := Option.some.inj is
    exact rfl
  | fill =>
    obtain ⟨sending, found, rfl⟩ := Option.map_eq_some_iff.mp step
    obtain ⟨is, stage⟩ := sendingAt_some found
    have here := inv.here sending is
    rw [Net.Here, stage] at here
    subst here
    have none : net.unfinished = [] := inv.unfinished
    refine ⟨.idle, inv.single, trivial, fun _ _ => rfl, fun sending is => ?_, none,
      fun ticket member => ?_, inv.kept.wire, inv.kept.taken⟩
    · obtain rfl := Option.some.inj is
      refine ⟨rfl, rfl, fun index below => ?_⟩
      have below : index < (framed _).length := (framed_length _).symm ▸ below
      show _ = some (((framed sending.frame)[index]?).getD (net.buf index))
      rw [List.getElem?_eq_getElem below]
      rfl
    · have member : ticket ∈ net.unfinished := member
      rw [none] at member
      exact absurd member List.not_mem_nil
  | post =>
    obtain ⟨sending, found, rfl⟩ := Option.map_eq_some_iff.mp step
    obtain ⟨is, stage⟩ := sendingAt_some found
    have here := inv.here sending is
    rw [Net.Here, stage] at here
    obtain ⟨idle, holds⟩ := here
    subst idle
    have none : net.unfinished = [] := inv.unfinished
    have single := inv.single.post ⟨0, net.frames.length⟩
    refine ⟨_, single, trivial, fun _ none => absurd none (Option.some_ne_none _),
      fun sending is => ?_, ?_, fun ticket member => ?_, fun sent member => ?_, inv.kept.taken⟩
    · obtain rfl := Option.some.inj is
      exact ⟨_, rfl, rfl⟩
    · show net.unfinished ++ [net.frames.length] = [net.frames.length]
      rw [none, List.nil_append]
    · have member : ticket ∈ net.unfinished ++ [net.frames.length] := member
      rw [none, List.nil_append, List.mem_singleton] at member
      exact ⟨sending.frame, by rw [member]; exact List.getElem?_concat_length, holds⟩
    · obtain ⟨frame, old, same⟩ := inv.kept.wire sent member
      refine ⟨frame, ?_, same⟩
      exact (List.getElem?_append_left (List.getElem?_eq_some_iff.mp old).1).trans old
  | poll =>
    obtain ⟨sending, found, step⟩ := Option.bind_eq_some_iff.mp step
    obtain ⟨is, stage⟩ := sendingAt_some found
    obtain ⟨answered, equal⟩ := Option.ite_none_right_eq_some.mp step
    obtain rfl := Option.some.inj equal
    have here := inv.here sending is
    rw [Net.Here, stage] at here
    obtain ⟨entry, at_, ticket⟩ := here
    have phased := inv.single.current answered
    subst phased
    obtain rfl := Option.some.inj at_
    refine ⟨.idle, inv.single.consume, trivial, fun _ _ => rfl,
      fun _ is => absurd is.symm (Option.some_ne_none _), inv.unfinished, inv.kept.buffer,
      inv.kept.wire, fun pair member => ?_⟩
    rcases List.mem_append.mp member with before | now
    · exact inv.kept.taken pair before
    · obtain rfl := List.mem_singleton.mp now
      exact ticket
  | giveUp =>
    obtain ⟨sending, found, rfl⟩ := Option.map_eq_some_iff.mp step
    refine ⟨phase, inv.single, ?_, fun kept => absurd kept.symm Bool.noConfusion,
      fun _ is => absurd is.symm (Option.some_ne_none _), inv.unfinished,
      ⟨inv.kept.buffer, inv.kept.wire, inv.kept.taken⟩⟩
    have reads := inv.reads
    cases phase with
    | taken _ _ => exact reads
    | idle => trivial
    | available _ => trivial
    | answered _ => trivial
  | take =>
    obtain ⟨queue, took, rfl⟩ := Option.map_eq_some_iff.mp step
    obtain ⟨entry, rfl, later⟩ := inv.single.take took
    refine ⟨_, inv.device later ⟨fun len is => ?_, fun _ byte is => ?_⟩ rfl rfl rfl⟩
    · exact absurd is.symm (Option.some_ne_none len)
    · exact absurd is.symm (Option.some_ne_none byte)
  | load index =>
    obtain ⟨queue, went, rfl⟩ := Option.map_eq_some_iff.mp step
    obtain ⟨entry, before, after, rfl, -, goes, later⟩ := inv.single.work went
    obtain ⟨-, equal⟩ := Option.ite_none_right_eq_some.mp goes
    obtain rfl := Option.some.inj equal
    exact ⟨_, inv.device later ⟨fun len is => (Option.some.inj is).symm, inv.reads.2⟩ rfl rfl rfl⟩
  | fetch index byte =>
    obtain ⟨queue, went, rfl⟩ := Option.map_eq_some_iff.mp step
    obtain ⟨entry, before, after, rfl, -, goes, later⟩ := inv.single.work went
    obtain rfl := Option.some.inj goes
    refine ⟨_, inv.device later ⟨inv.reads.1, fun other found is => ?_⟩ rfl rfl rfl⟩
    have is : update before.got byte (some (net.buf byte)) other = some found := is
    by_cases same : other = byte
    · rw [same, update_self] at is
      rw [same]
      exact (Option.some.inj is).symm
    · rw [update_of_ne same] at is
      exact inv.reads.2 other found is
  | push =>
    obtain ⟨chain, first, step⟩ := Option.bind_eq_some_iff.mp step
    obtain ⟨queue, pushed, rfl⟩ := Option.map_eq_some_iff.mp step
    obtain ⟨entry, reading, rfl, full, later⟩ := inv.single.push pushed
    rw [inv.single.2.1] at first
    obtain rfl := Option.some.inj first
    have one : net.unfinished = [entry.ticket] := inv.unfinished
    have none : net.unfinished.erase entry.ticket = [] := by
      rw [one]
      exact List.erase_cons_head ..
    obtain ⟨frame, at_, holds⟩ := inv.kept.buffer entry.ticket
      (one ▸ List.mem_singleton.mpr rfl)
    refine ⟨_, later, trivial, fun gave free => (nomatch inv.idle gave free),
      fun sending is => ?_, none, fun ticket member => ?_, fun sent member => ?_,
      inv.kept.taken⟩
    · have here := inv.here sending is
      rw [Net.Here] at here ⊢
      split at here
      · cases here
      · cases here.1
      · exact here
    · have member : ticket ∈ net.unfinished.erase entry.ticket := member
      rw [none] at member
      exact absurd member List.not_mem_nil
    · rcases List.mem_append.mp member with before | now
      · exact inv.kept.wire sent before
      · obtain rfl := List.mem_singleton.mp now
        exact ⟨frame, at_, inv.reads.bytes full holds⟩

theorem NetInv.initial (fresh : net.Fresh) : NetInv net .idle := by
  obtain ⟨⟨size, queue⟩, sending, -, unfinished, taken, wire⟩ := fresh
  refine ⟨queue ▸ Queue.single_fresh size, trivial, fun _ _ => rfl, fun _ is => ?_, unfinished,
    fun ticket member => ?_, fun sent member => ?_, fun pair member => ?_⟩
  · exact absurd (sending.symm.trans is).symm (Option.some_ne_none _)
  · exact absurd (unfinished ▸ member) List.not_mem_nil
  · exact absurd (wire ▸ member) List.not_mem_nil
  · exact absurd (taken ▸ member) List.not_mem_nil

/-- In every run in time the transmit buffer is kept. -/
theorem NetInv.reachable
    (reachable : netSystem.Reachable (fun net event => NetEvent.inTime net event) net) :
    ∃ phase, NetInv net phase :=
  reachable.invariant (fun net => ∃ phase, NetInv net phase)
    (fun _ fresh => ⟨_, NetInv.initial fresh⟩)
    fun _ _ _ ⟨_, inv⟩ inTime step => inv.step inTime step

end MectovOS.Virtio
