/-
This file gives each stretch of a read or a write one specification: what it
moves between the ring and the caller, what it leaves alone, and how it ends.
Before that come the few facts about histories of bytes that the law needs.
-/

import MectovOS.Fd.Rings

namespace MectovOS.Fd

open Sched (maxTasks)
open Transition Function

variable {tables next : Tables}

/-! ### History -/

theorem stream_append (first second : List Event) (channel : Channel) (life : Nat) :
    stream (first ++ second) channel life =
      stream first channel life ++ stream second channel life := by
  unfold stream
  rw [List.filter_append, List.map_append]

theorem ofCall_append (first second : List Event) (serial : Nat) :
    ofCall (first ++ second) serial = ofCall first serial ++ ofCall second serial := by
  unfold ofCall
  rw [List.filter_append, List.map_append]

/-- The events of a stretch. -/
def eventsOf (channel : Channel) (life serial : Nat) (bytes : List UInt8) : List Event :=
  bytes.map fun byte => ⟨channel, life, serial, byte⟩

theorem map_byte_eventsOf (channel : Channel) (life serial : Nat) (bytes : List UInt8) :
    (eventsOf channel life serial bytes).map Event.byte = bytes := by
  unfold eventsOf
  rw [List.map_map]
  exact List.map_id bytes

theorem stream_eventsOf (channel : Channel) (life serial : Nat) (bytes : List UInt8) :
    stream (eventsOf channel life serial bytes) channel life = bytes := by
  unfold stream
  rw [List.filter_eq_self.mpr, map_byte_eventsOf]
  intro event member
  obtain ⟨byte, _, rfl⟩ := List.mem_map.mp member
  simp

theorem stream_eventsOf_of_ne {channel other : Channel} {life later : Nat}
    (different : (other, later) ≠ (channel, life)) (serial : Nat) (bytes : List UInt8) :
    stream (eventsOf channel life serial bytes) other later = [] := by
  unfold stream
  rw [List.filter_eq_nil_iff.mpr, List.map_nil]
  intro event member
  obtain ⟨byte, _, rfl⟩ := List.mem_map.mp member
  simp only [decide_eq_true_eq]
  rintro ⟨rfl, rfl⟩
  exact different rfl

theorem ofCall_eventsOf (channel : Channel) (life serial : Nat) (bytes : List UInt8) :
    ofCall (eventsOf channel life serial bytes) serial = bytes := by
  unfold ofCall
  rw [List.filter_eq_self.mpr, map_byte_eventsOf]
  intro event member
  obtain ⟨byte, _, rfl⟩ := List.mem_map.mp member
  simp

theorem ofCall_eq_nil {events : List Event} {serial : Nat}
    (absent : ∀ event ∈ events, event.serial ≠ serial) : ofCall events serial = [] := by
  unfold ofCall
  rw [List.filter_eq_nil_iff.mpr, List.map_nil]
  intro event member
  simpa using absent event member

theorem stream_eq_nil {events : List Event} {channel : Channel} {life : Nat}
    (absent : ∀ event ∈ events, event.channel = channel → event.life ≠ life) :
    stream events channel life = [] := by
  unfold stream
  rw [List.filter_eq_nil_iff.mpr, List.map_nil]
  intro event member
  simp only [decide_eq_true_eq]
  exact fun both => absent event member both.1 both.2

theorem serial_of_mem_eventsOf {channel : Channel} {life serial : Nat} {bytes : List UInt8}
    {event : Event} (member : event ∈ eventsOf channel life serial bytes) :
    event.channel = channel ∧ event.life = life ∧ event.serial = serial := by
  obtain ⟨byte, _, rfl⟩ := List.mem_map.mp member
  exact ⟨rfl, rfl, rfl⟩

/-! ### Stretches -/

/-- A change of one ring goes unnoticed by the descriptor tables. -/
theorem agree_setRing (tables : Tables) (channel : Channel) (ring : ByteRing) :
    Agree tables (tables.setRing channel ring) := by
  cases channel with
  | pipe pipe =>
    have same : ∀ index, (update tables.pipes pipe
        { tables.pipes pipe with
          buffer := ring.buffer, readPos := ring.readPos, writePos := ring.writePos } index).inUse =
          (tables.pipes index).inUse ∧
        (update tables.pipes pipe
        { tables.pipes pipe with
          buffer := ring.buffer, readPos := ring.readPos,
          writePos := ring.writePos } index).closedWrite = (tables.pipes index).closedWrite := by
      intro index
      rcases eq_or_ne index pipe with rfl | different
      · rw [update_self]
        exact ⟨rfl, rfl⟩
      · rw [update_of_ne different]
        exact ⟨rfl, rfl⟩
    exact ⟨⟨fun _ => rfl, fun _ _ => rfl, fun _ _ => rfl, fun index => (same index).1,
      fun index _ => (same index).2⟩, fun _ _ => rfl, rfl⟩
  | m2s pty => exact agree_setPty tables pty _
  | s2m pty => exact agree_setPty tables pty _

/-- What a stretch that moves bytes does: a read hands out the oldest bytes in flight, a write
appends the next of its data. -/
structure Moved (tables next : Tables) (channel : Channel) (done : Nat) (request : Request)
    (bytes : List UInt8) : Prop where
  agree : Agree tables next
  others : ∀ other, other ≠ channel → next.ring other = tables.ring other
  valid : (next.ring channel).Valid channel.capacity
  bounded : done ≤ request.size → done + bytes.length ≤ request.size
  read : ∀ size, request = .read size →
    inFlight tables channel = bytes ++ inFlight next channel
  write : ∀ data, request = .write data →
    inFlight next channel = inFlight tables channel ++ bytes ∧ bytes <+: data.drop done

theorem transfer_moved {channel : Channel} (valid : (tables.ring channel).Valid channel.capacity)
    (done : Nat) (request : Request) :
    Moved tables (transfer tables channel done request).1 channel done request
      (transfer tables channel done request).2 := by
  cases request with
  | read size =>
    obtain ⟨still, contents, short, _⟩ := takeBytes_spec (size.toNat - done) valid
    refine ⟨agree_setRing tables channel _, fun other different =>
      setRing_of_ne tables different _, ?_, fun begun => ?_, fun _ _ => ?_, fun data is => ?_⟩
    · show ((tables.setRing channel _).ring channel).Valid _
      rw [setRing_self]
      exact still
    · show done + (takeBytes channel.capacity (size.toNat - done) (tables.ring channel)).1.length ≤
        size.toNat
      replace begun : done ≤ size.toNat := begun
      omega
    · show (tables.ring channel).contents channel.capacity =
        _ ++ ((tables.setRing channel _).ring channel).contents channel.capacity
      rw [setRing_self]
      exact contents
    · exact absurd is (by simp)
  | write data =>
    obtain ⟨still, contents, first⟩ := putBytes_spec (data.drop done) valid
    refine ⟨agree_setRing tables channel _, fun other different =>
      setRing_of_ne tables different _, ?_, fun begun => ?_, fun size is => ?_, fun data' is => ?_⟩
    · show ((tables.setRing channel _).ring channel).Valid _
      rw [setRing_self]
      exact still
    · have fewer := first.length_le
      rw [List.length_drop] at fewer
      show done + (putBytes channel.capacity (data.drop done) (tables.ring channel)).1.length ≤
        data.length
      replace begun : done ≤ data.length := begun
      omega
    · exact absurd is (by simp)
    · obtain rfl := Request.write.inj is
      refine ⟨?_, first⟩
      show ((tables.setRing channel _).ring channel).contents channel.capacity =
        (tables.ring channel).contents channel.capacity ++ _
      rw [setRing_self]
      exact contents

/-- A read of a pipe that returns short of what it was asked for found it closed and empty. -/
def EndsRight (tables next : Tables) (channel : Channel) (done : Nat) (request : Request)
    (bytes : List UInt8) (returns : Bool) : Prop :=
  ∀ size pipe, request = .read size → channel = .pipe pipe → returns = true →
    done + bytes.length < size.toNat →
      (tables.pipes pipe).closedWrite = true ∧ inFlight next (.pipe pipe) = []

theorem pipeStretch_spec {pipe : Nat}
    (valid : (tables.ring (.pipe pipe)).Valid (Channel.pipe pipe).capacity) (done : Nat)
    (request : Request) :
    ∃ bytes returns, (pipeStretch tables pipe done request).2 = .moved (.pipe pipe) bytes returns ∧
      Moved tables (pipeStretch tables pipe done request).1 (.pipe pipe) done request bytes ∧
      EndsRight tables (pipeStretch tables pipe done request).1 (.pipe pipe) done request bytes
        returns := by
  have moved := transfer_moved valid done request
  cases request with
  | read size =>
    refine ⟨_, _, rfl, moved, fun size' pipe' is same ends short => ?_⟩
    obtain rfl := Request.read.inj is
    obtain rfl := Channel.pipe.inj same
    replace short : done + (takeBytes (Channel.pipe pipe).capacity (size.toNat - done)
      (tables.ring (.pipe pipe))).1.length < size.toNat := short
    obtain ⟨_, _, _, early⟩ := takeBytes_spec (size.toNat - done) valid
    have unfinished : ¬ done + (takeBytes (Channel.pipe pipe).capacity (size.toNat - done)
        (tables.ring (.pipe pipe))).1.length = size.toNat := short.ne
    constructor
    · rcases Bool.or_eq_true_iff.mp ends with finished | closed
      · exact absurd (of_decide_eq_true finished) unfinished
      · exact closed
    · show ((tables.setRing (.pipe pipe) _).ring (.pipe pipe)).contents _ = []
      rw [setRing_self]
      exact early (by omega)
  | write data =>
    exact ⟨_, _, rfl, moved, fun size pipe is => absurd is (by simp)⟩

/-- The descriptor of a call is the end of the pipe that the call works on. -/
def OnPipe (tables : Tables) (tid : Nat) (fd : Int) (request : Request) (pipe gfd : Nat) : Prop :=
  taskGetFd tables tid fd = some gfd ∧ (tables.globalFds gfd).type = request.endType ∧
    (tables.globalFds gfd).pipeId = pipe

/-- How the first stretch of a call ends. -/
inductive FirstResult (tables : Tables) (tid : Nat) (fd : Int) (request : Request) :
    Tables × Stretch → Prop
  | result {next : Tables} {value : Int} : Agree tables next → SameRings tables next →
      FirstResult tables tid fd request (next, .result value)
  | pty {next : Tables} {channel : Channel} {bytes : List UInt8} :
      Moved tables next channel 0 request bytes → (∀ pipe, channel ≠ .pipe pipe) →
      FirstResult tables tid fd request (next, .moved channel bytes true)
  | pipe {next : Tables} {pipe gfd : Nat} {bytes : List UInt8} {returns : Bool} :
      Moved tables next (.pipe pipe) 0 request bytes → OnPipe tables tid fd request pipe gfd →
      EndsRight tables next (.pipe pipe) 0 request bytes returns →
      FirstResult tables tid fd request (next, .moved (.pipe pipe) bytes returns)

/-- A change to the offset of a descriptor goes unnoticed. -/
theorem agree_offset (tables : Tables) (gfd : Nat) (offset : Int) :
    Agree tables (tables.setGlobal gfd { tables.globalFds gfd with offset := offset }) := by
  have offsets : ∀ other, ∃ value,
      (tables.setGlobal gfd { tables.globalFds gfd with offset := offset }).globalFds other =
        { tables.globalFds other with offset := value } := by
    intro other
    rcases eq_or_ne other gfd with rfl | different
    · exact ⟨offset, update_self other _ _⟩
    · exact ⟨(tables.globalFds other).offset, update_of_ne different _ _⟩
  refine ⟨⟨fun other => ?_, fun other _ => ?_, fun other _ => ?_, fun _ => rfl, fun _ _ => rfl⟩,
    fun other _ => ?_, rfl⟩
  all_goals
    obtain ⟨value, same⟩ := offsets other
    rw [same]

theorem backendStretch_result (tables : Tables) (tid : Nat) (fd : Int) (request : Request)
    (gfd : Nat) (backend : Backend) :
    FirstResult tables tid fd request (backendStretch tables gfd backend) := by
  unfold backendStretch
  split
  · exact .result (Agree.refl tables) (SameRings.refl tables)
  · exact .result (agree_offset tables gfd _) (sameRings_setGlobal tables gfd _)
  · exact .result (Agree.refl tables) (SameRings.refl tables)

theorem ptyStretch_result (valid : ∀ channel, (tables.ring channel).Valid channel.capacity)
    (tid : Nat) (fd : Int) (request : Request) (gfd : Nat) :
    FirstResult tables tid fd request (ptyStretch tables gfd request) := by
  unfold ptyStretch
  split
  · exact .result (Agree.refl tables) (SameRings.refl tables)
  · rename_i isMaster _
    refine .pty (transfer_moved (valid _) 0 request) fun pipe same => ?_
    cases request <;> cases isMaster <;> exact absurd same (by simp [ptyChannel])

theorem firstStretch_result (valid : ∀ channel, (tables.ring channel).Valid channel.capacity)
    (tid : Nat) (fd : Int) (request : Request) (backend : Backend) :
    FirstResult tables tid fd request (firstStretch tables tid fd request backend) := by
  have still : FirstResult tables tid fd request (tables, .result (-1)) :=
    .result (Agree.refl tables) (SameRings.refl tables)
  unfold firstStretch
  cases found : taskGetFd tables tid fd with
  | none => exact still
  | some gfd =>
    simp only
    split
    · exact still
    split
    · exact backendStretch_result tables tid fd request gfd backend
    · exact backendStretch_result tables tid fd request gfd backend
    · exact backendStretch_result tables tid fd request gfd backend
    · exact ptyStretch_result valid tid fd request gfd
    · split
      · rename_i type
        obtain ⟨bytes, returns, ends, moved, right⟩ :=
          pipeStretch_spec (valid (.pipe (tables.globalFds gfd).pipeId)) 0 request
        rw [← Prod.eta (pipeStretch tables _ 0 request), ends]
        exact .pipe moved ⟨found, type, rfl⟩ right
      · exact still

/-- A stretch after a halt: the descriptor is gone, or the call goes on with what it finds. -/
theorem nextStretch_result (valid : ∀ channel, (tables.ring channel).Valid channel.capacity)
    (tid : Nat) (fd : Int) (done : Nat) (request : Request) :
    (nextStretch tables tid fd done request = none ∧
      ∀ gfd, taskGetFd tables tid fd = some gfd → (tables.globalFds gfd).inUse = false) ∨
    ∃ next gfd bytes returns, taskGetFd tables tid fd = some gfd ∧
      nextStretch tables tid fd done request =
        some (next, .moved (.pipe (tables.globalFds gfd).pipeId) bytes returns) ∧
      Moved tables next (.pipe (tables.globalFds gfd).pipeId) done request bytes ∧
      EndsRight tables next (.pipe (tables.globalFds gfd).pipeId) done request bytes returns := by
  unfold nextStretch
  cases found : taskGetFd tables tid fd with
  | none => exact Or.inl ⟨rfl, fun gfd is => absurd is (by simp)⟩
  | some gfd =>
    simp only
    split
    · rename_i idle
      exact Or.inl ⟨rfl, fun other is => Option.some.inj is ▸ idle⟩
    · obtain ⟨bytes, returns, ends, moved, right⟩ :=
        pipeStretch_spec (valid (.pipe (tables.globalFds gfd).pipeId)) done request
      refine Or.inr ⟨_, gfd, bytes, returns, rfl, ?_, moved, right⟩
      rw [← ends]

end MectovOS.Fd
