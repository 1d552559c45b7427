/-
This file proves that pipes and pseudo-terminals are lossless queues: in every
run of reads, writes and descriptor calls, what a channel handed out is a prefix
of what it accepted, and a read of a pipe stops early only at its end. The
invariant ties the history to the rings, and each call in progress to its part
of the history and to the descriptor it holds.
-/

import MectovOS.Fd.Turns

namespace MectovOS.Fd

open Function (update update_of_ne update_self)

open Sched (maxTasks)
open Transition

variable {tables next : Tables}

/-! ### The invariant -/

/-- The part of the history that a call adds to. -/
def Request.history (accepted taken : List Event) : Request → List Event
  | .read _ => taken
  | .write _ => accepted

/-- What a call has moved is its part of the history; it is no more than it asked for, and for a
write it is the start of its data. -/
structure CallLaw (accepted taken : List Event) (serial : Nat) (request : Request)
    (bytes : List UInt8) : Prop where
  own : bytes = ofCall (request.history accepted taken) serial
  bounded : bytes.length ≤ request.size
  data : ∀ data, request = .write data → bytes <+: data

/-- A call that has halted: its descriptor, if it still has one, is the end of its pipe. -/
structure Halted (state : Streams) (tid : Nat) (call : Transfer) : Prop where
  serial : call.serial < state.serial
  law : CallLaw state.accepted state.taken call.serial call.request call.bytes
  entry : ∀ gfd, taskGetFd state.fds.tables tid call.fd = some gfd →
    (state.fds.tables.globalFds gfd).type = call.request.endType ∧
      (state.fds.tables.globalFds gfd).pipeId = call.pipe

/-- A call that returned. -/
structure Returned (state : Streams) (call : Return) : Prop where
  serial : call.serial < state.serial
  law : CallLaw state.accepted state.taken call.serial call.request call.bytes
  gone : ∀ tid halted, state.parked tid = some halted → halted.serial ≠ call.serial
  short : ∀ size pipe, call.request = .read size → call.channel = .pipe pipe →
    call.bytes.length < size.toNat → taskGetFd call.tables call.tid call.fd = none ∨
      (WritersGone call.tables pipe ∧ inFlight call.tables (.pipe pipe) = [])

/-- What every run keeps. -/
structure Flowing (state : Streams) : Prop where
  sound : Sound state.fds
  valid : ∀ channel, (state.fds.tables.ring channel).Valid channel.capacity
  current : ∀ channel, stream state.accepted channel (state.lives channel) =
    stream state.taken channel (state.lives channel) ++ inFlight state.fds.tables channel
  past : ∀ channel life, stream state.taken channel life <+: stream state.accepted channel life
  known : ∀ event, event ∈ state.accepted ∨ event ∈ state.taken →
    event.life ≤ state.lives event.channel ∧ event.serial < state.serial
  halted : ∀ tid call, state.parked tid = some call → Halted state tid call
  distinct : ∀ first second call call', state.parked first = some call →
    state.parked second = some call' → call.serial = call'.serial → first = second
  child : ∀ copy, state.fds.copying = some copy → state.parked copy.child = none
  returned : ∀ call ∈ state.returned, Returned state call

/-! ### Moving bytes -/

section Moving

variable {state : Streams} {tid : Nat} {call : Transfer} {channel : Channel} {bytes : List UInt8}
  {returns : Bool}

/-- A call adds its bytes to its part of the history. -/
theorem history_moved :
    call.request.history (state.moved tid call tables channel bytes returns).accepted
      (state.moved tid call tables channel bytes returns).taken =
      call.request.history state.accepted state.taken ++
        eventsOf channel (state.lives channel) call.serial bytes := by
  unfold Streams.moved
  cases call.request <;> rfl

/-- An event after a stretch was one before, or is one of the stretch. -/
theorem mem_moved {event : Event}
    (member : event ∈ (state.moved tid call tables channel bytes returns).accepted ∨
      event ∈ (state.moved tid call tables channel bytes returns).taken) :
    (event ∈ state.accepted ∨ event ∈ state.taken) ∨
      event ∈ eventsOf channel (state.lives channel) call.serial bytes := by
  unfold Streams.moved at member
  cases request : call.request with
  | read size =>
    rw [request] at member
    rcases member with before | after
    · exact Or.inl (Or.inl before)
    · exact (List.mem_append.mp after).imp Or.inr id
  | write data =>
    rw [request] at member
    rcases member with after | before
    · exact (List.mem_append.mp after).imp Or.inl id
    · exact Or.inl (Or.inr before)

/-- The other calls keep their parts. -/
theorem ofCall_moved {serial : Nat} (different : serial ≠ call.serial) (request : Request) :
    ofCall (request.history (state.moved tid call tables channel bytes returns).accepted
      (state.moved tid call tables channel bytes returns).taken) serial =
      ofCall (request.history state.accepted state.taken) serial := by
  have absent : ofCall (eventsOf channel (state.lives channel) call.serial bytes) serial = [] :=
    ofCall_eq_nil fun event member => by
      rw [(serial_of_mem_eventsOf member).2.2]
      exact different.symm
  have added : ∀ events : List Event,
      ofCall (events ++ eventsOf channel (state.lives channel) call.serial bytes) serial =
        ofCall events serial := by
    intro events
    rw [ofCall_append, absent, List.append_nil]
  unfold Streams.moved
  cases call.request <;> cases request <;> first | rfl | exact added _

theorem CallLaw.other {serial : Nat} {request : Request} {moved : List UInt8}
    (law : CallLaw state.accepted state.taken serial request moved)
    (different : serial ≠ call.serial) :
    CallLaw (state.moved tid call tables channel bytes returns).accepted
      (state.moved tid call tables channel bytes returns).taken serial request moved := by
  refine ⟨?_, law.bounded, law.data⟩
  rw [ofCall_moved different]
  exact law.own

/-- The call itself has moved the bytes of the stretch. -/
theorem CallLaw.add (law : CallLaw state.accepted state.taken call.serial call.request call.bytes)
    (moved : Moved state.fds.tables tables channel call.bytes.length call.request bytes) :
    CallLaw (state.moved tid call tables channel bytes returns).accepted
      (state.moved tid call tables channel bytes returns).taken call.serial call.request
      (call.bytes ++ bytes) := by
  refine ⟨?_, ?_, fun data is => ?_⟩
  · rw [history_moved, ofCall_append, ofCall_eventsOf, ← law.own]
  · rw [List.length_append]
    exact moved.bounded law.bounded
  · obtain ⟨rest, done⟩ := law.data data is
    have next := (moved.write data is).2
    rw [← done, List.drop_left] at next
    rw [← done]
    exact (List.prefix_append_right_inj call.bytes).mpr next

/-- The streams of other channels and lives do not change. -/
theorem stream_moved_of_ne {other : Channel} {life : Nat}
    (different : (other, life) ≠ (channel, state.lives channel)) :
    stream (state.moved tid call tables channel bytes returns).accepted other life =
      stream state.accepted other life ∧
    stream (state.moved tid call tables channel bytes returns).taken other life =
      stream state.taken other life := by
  have added : ∀ events : List Event,
      stream (events ++ eventsOf channel (state.lives channel) call.serial bytes) other life =
        stream events other life := by
    intro events
    rw [stream_append, stream_eventsOf_of_ne different, List.append_nil]
  unfold Streams.moved
  cases call.request with
  | read size => exact ⟨rfl, added _⟩
  | write data => exact ⟨added _, rfl⟩

/-- The law of the channel itself. -/
theorem current_moved
    (current : stream state.accepted channel (state.lives channel) =
      stream state.taken channel (state.lives channel) ++ inFlight state.fds.tables channel)
    (moved : Moved state.fds.tables tables channel call.bytes.length call.request bytes) :
    stream (state.moved tid call tables channel bytes returns).accepted channel
        (state.lives channel) =
      stream (state.moved tid call tables channel bytes returns).taken channel
        (state.lives channel) ++ inFlight tables channel := by
  have added : ∀ events : List Event,
      stream (events ++ eventsOf channel (state.lives channel) call.serial bytes) channel
        (state.lives channel) = stream events channel (state.lives channel) ++ bytes := by
    intro events
    rw [stream_append, stream_eventsOf]
  cases request : call.request with
  | read size =>
    have taken : (state.moved tid call tables channel bytes returns).taken =
        state.taken ++ eventsOf channel (state.lives channel) call.serial bytes := by
      unfold Streams.moved
      rw [request]
      rfl
    have accepted : (state.moved tid call tables channel bytes returns).accepted =
        state.accepted := by
      unfold Streams.moved
      rw [request]
    rw [taken, accepted, added, current, moved.read size request, List.append_assoc]
  | write data =>
    have accepted : (state.moved tid call tables channel bytes returns).accepted =
        state.accepted ++ eventsOf channel (state.lives channel) call.serial bytes := by
      unfold Streams.moved
      rw [request]
      rfl
    have taken : (state.moved tid call tables channel bytes returns).taken = state.taken := by
      unfold Streams.moved
      rw [request]
    rw [taken, accepted, added, current, (moved.write data request).1, List.append_assoc]

theorem parked_moved_of_ne {other : Nat} (different : other ≠ tid) :
    (state.moved tid call tables channel bytes returns).parked other = state.parked other :=
  update_of_ne different _ _

/-- A call that has halted is the one of the stretch, or one that had halted before. -/
theorem parked_moved {other : Nat} {halted : Transfer}
    (is : (state.moved tid call tables channel bytes returns).parked other = some halted) :
    (other = tid ∧ returns = false ∧ halted = { call with bytes := call.bytes ++ bytes }) ∨
      (other ≠ tid ∧ state.parked other = some halted) := by
  rcases eq_or_ne other tid with rfl | different
  · refine Or.inl ⟨rfl, ?_⟩
    replace is : update state.parked other (if returns then none else
      some { call with bytes := call.bytes ++ bytes }) other = some halted := is
    rw [update_self] at is
    obtain ⟨goes, same⟩ := Option.ite_none_left_eq_some.mp is
    exact ⟨by simpa using goes, (Option.some.inj same).symm⟩
  · rw [parked_moved_of_ne different] at is
    exact Or.inr ⟨different, is⟩

/-- Looking up a descriptor gives the same in tables that agree. -/
theorem Agree.taskGetFd (agree : Agree tables next) (tid : Nat) (fd : Int) :
    taskGetFd next tid fd = taskGetFd tables tid fd := by
  unfold Fd.taskGetFd
  rw [agree.table]

/-- A stretch that moves bytes keeps the invariant. -/
theorem Flowing.moved (flowing : Flowing state) (alone : state.fds.copying = none)
    (moved : Moved state.fds.tables tables channel call.bytes.length call.request bytes)
    (serial : call.serial < state.serial)
    (law : CallLaw state.accepted state.taken call.serial call.request call.bytes)
    (others : ∀ other halted, other ≠ tid → state.parked other = some halted →
      halted.serial ≠ call.serial)
    (unreturned : ∀ ended ∈ state.returned, ended.serial ≠ call.serial)
    (entry : returns = false → ∀ gfd, taskGetFd tables tid call.fd = some gfd →
      (tables.globalFds gfd).type = call.request.endType ∧
        (tables.globalFds gfd).pipeId = call.pipe)
    (short : returns = true → ∀ size pipe, call.request = .read size → channel = .pipe pipe →
      (call.bytes ++ bytes).length < size.toNat → taskGetFd tables tid call.fd = none ∨
        (WritersGone tables pipe ∧ inFlight tables (.pipe pipe) = [])) :
    Flowing (state.moved tid call tables channel bytes returns) := by
  generalize afterIs : state.moved tid call tables channel bytes returns = after
  have fds : after.fds = { state.fds with tables := tables } := by
    rw [← afterIs]
    rfl
  have lives : after.lives = state.lives := by
    rw [← afterIs]
    rfl
  have serials : after.serial = state.serial := by
    rw [← afterIs]
    rfl
  have agree := moved.agree
  have here : stream after.accepted channel (state.lives channel) =
      stream after.taken channel (state.lives channel) ++ inFlight tables channel := by
    rw [← afterIs]
    exact current_moved (flowing.current channel) moved
  have apart : ∀ other life, (other, life) ≠ (channel, state.lives channel) →
      stream after.accepted other life = stream state.accepted other life ∧
        stream after.taken other life = stream state.taken other life := by
    intro other life different
    rw [← afterIs]
    exact stream_moved_of_ne different
  have halted : ∀ {other : Nat} {halted : Transfer}, after.parked other = some halted →
      (other = tid ∧ returns = false ∧ halted = { call with bytes := call.bytes ++ bytes }) ∨
        (other ≠ tid ∧ state.parked other = some halted) := by
    intro other halted is
    rw [← afterIs] at is
    exact parked_moved is
  have lawOf : ∀ {serial : Nat} {request : Request} {moved : List UInt8},
      CallLaw state.accepted state.taken serial request moved → serial ≠ call.serial →
        CallLaw after.accepted after.taken serial request moved := by
    intro serial request moved law different
    rw [← afterIs]
    exact law.other different
  have lawHere : CallLaw after.accepted after.taken call.serial call.request
      (call.bytes ++ bytes) := by
    rw [← afterIs]
    exact law.add moved
  constructor
  case sound =>
    rw [fds]
    exact flowing.sound.moves alone (Move.agree agree).moves
  case valid =>
    intro other
    rw [fds]
    rcases eq_or_ne other channel with rfl | different
    · exact moved.valid
    · show (tables.ring other).Valid _
      rw [moved.others other different]
      exact flowing.valid other
  case current =>
    intro other
    rw [fds, lives]
    rcases eq_or_ne other channel with rfl | different
    · exact here
    · obtain ⟨accepted, taken⟩ := apart other (state.lives other) fun same =>
        different (congrArg Prod.fst same)
      show _ = _ ++ (tables.ring other).contents _
      rw [accepted, taken, moved.others other different]
      exact flowing.current other
  case past =>
    intro other life
    by_cases same : (other, life) = (channel, state.lives channel)
    · obtain ⟨rfl, rfl⟩ := Prod.mk.inj same
      rw [here]
      exact List.prefix_append _ _
    · obtain ⟨accepted, taken⟩ := apart other life same
      rw [accepted, taken]
      exact flowing.past other life
  case known =>
    intro event member
    rw [lives, serials]
    rw [← afterIs] at member
    rcases mem_moved member with before | new
    · exact flowing.known event before
    · obtain ⟨rfl, life, own⟩ := serial_of_mem_eventsOf new
      exact ⟨life.le, own ▸ serial⟩
  case halted =>
    intro other still is
    rcases halted is with ⟨rfl, goes, rfl⟩ | ⟨different, before⟩
    · refine ⟨serials ▸ serial, lawHere, ?_⟩
      rw [fds]
      exact entry goes
    · obtain ⟨serial', law', entry'⟩ := flowing.halted other still before
      refine ⟨serials ▸ serial', lawOf law' (others other still different before), ?_⟩
      rw [fds]
      intro gfd found
      replace found := (agree.taskGetFd other still.fd).symm.trans found
      obtain ⟨_, _, naming⟩ := taskGetFd_some found
      have live := (flowing.sound.tables alone).named _ gfd naming
      show (tables.globalFds gfd).type = _ ∧ (tables.globalFds gfd).pipeId = _
      rw [agree.type gfd live, agree.pipeId gfd live]
      exact entry' gfd found
  case distinct =>
    intro first second one two is is' same
    rcases halted is with ⟨rfl, _, rfl⟩ | ⟨different, before⟩
    · rcases halted is' with ⟨rfl, _, rfl⟩ | ⟨different', before'⟩
      · rfl
      · exact absurd same.symm (others second two different' before')
    · rcases halted is' with ⟨rfl, _, rfl⟩ | ⟨different', before'⟩
      · exact absurd same (others first one different before)
      · exact flowing.distinct first second one two before before' same
  case child =>
    intro copy busy
    rw [fds] at busy
    exact absurd (alone.symm.trans busy) (by simp)
  case returned =>
    have old : ∀ ended ∈ state.returned, Returned after ended := by
      intro ended member
      obtain ⟨serial', law', gone, short'⟩ := flowing.returned ended member
      refine ⟨serials ▸ serial', lawOf law' (unreturned ended member), fun other still is => ?_,
        short'⟩
      rcases halted is with ⟨rfl, _, rfl⟩ | ⟨_, before⟩
      · exact (unreturned ended member).symm
      · exact gone other still before
    intro ended member
    cases returns with
    | false =>
      rw [← afterIs] at member
      exact old ended member
    | true =>
      have split : ended = ⟨call.serial, tid, call.fd, call.request, channel, call.bytes ++ bytes,
          tables⟩ ∨ ended ∈ state.returned := by
        rw [← afterIs] at member
        exact List.mem_cons.mp member
      rcases split with rfl | before
      · refine ⟨serials ▸ serial, lawHere, fun other still is => ?_, short rfl⟩
        rcases halted is with ⟨_, goes, _⟩ | ⟨different, before⟩
        · exact absurd goes (by simp)
        · exact others other still different before
      · exact old ended before

end Moving

/-! ### Calls -/

/-- A pipe that is closed for its reader has no write end left. -/
theorem Consistent.writersGone {spare building : Nat → Prop}
    (consistent : Consistent tables spare building) {tid pipe gfd : Nat} {fd size : Int}
    (on : OnPipe tables tid fd (.read size) pipe gfd)
    (closed : (tables.pipes pipe).closedWrite = true) : WritersGone tables pipe := by
  obtain ⟨found, type, rfl⟩ := on
  obtain ⟨entry, _, naming⟩ := taskGetFd_some found
  have live := consistent.ends gfd (consistent.named entry gfd naming) (Or.inl type)
  have settled : ¬ building (tables.globalFds gfd).pipeId := by
    intro pending
    rw [(consistent.built _ pending).2] at closed
    exact absurd closed (by simp)
  exact (consistent.closed _ live settled).mp closed

theorem WritersGone.agree {pipe : Nat} (gone : WritersGone tables pipe)
    (agree : Agree tables next) : WritersGone next pipe := by
  intro gfd live write
  rw [agree.inUse] at live
  rw [agree.type gfd live] at write
  rw [agree.pipeId gfd live]
  exact gone gfd live write

/-- A read that returns short while it holds its end of the pipe has come to the end of it. -/
theorem Moved.short {spare building : Nat → Prop} (consistent : Consistent tables spare building)
    {channel : Channel} {done tid gfd pipe : Nat} {fd : Int} {request : Request}
    {bytes : List UInt8} {returns : Bool} (moved : Moved tables next channel done request bytes)
    (right : EndsRight tables next channel done request bytes returns)
    (on : channel = .pipe pipe → OnPipe tables tid fd request pipe gfd) (ends : returns = true)
    {size : Int} (is : request = .read size) (through : channel = .pipe pipe)
    (short : done + bytes.length < size.toNat) :
    WritersGone next pipe ∧ inFlight next (.pipe pipe) = [] := by
  obtain ⟨closed, empty⟩ := right size pipe is through ends short
  rw [is] at on
  exact ⟨(consistent.writersGone (on through) closed).agree moved.agree, empty⟩

/-- A call that starts. -/
theorem Flowing.enter {state after : Streams} (flowing : Flowing state)
    {tid : Nat} {fd : Int} {request : Request} {backend : Backend}
    (taken : ioStep state (.enter tid fd request backend) = some after) : Flowing after := by
  obtain ⟨ready, same⟩ := Option.ite_none_right_eq_some.mp taken
  rw [Bool.and_eq_true, Bool.and_eq_true, Option.isNone_iff_eq_none,
    Option.isNone_iff_eq_none] at ready
  obtain ⟨⟨_, alone⟩, idle⟩ := ready
  have result := firstStretch_result flowing.valid tid fd request backend
  generalize firstStretch state.fds.tables tid fd request backend = outcome at result same
  have started : Flowing { state with serial := state.serial + 1 } := by
    refine ⟨flowing.sound, flowing.valid, flowing.current, flowing.past, fun event member => ?_,
      fun other call is => ?_, flowing.distinct, flowing.child, fun call member => ?_⟩
    · obtain ⟨life, serial⟩ := flowing.known event member
      exact ⟨life, Nat.lt_succ_of_lt serial⟩
    · obtain ⟨serial, law, entry⟩ := flowing.halted other call is
      exact ⟨Nat.lt_succ_of_lt serial, law, entry⟩
    · obtain ⟨serial, law, gone, short⟩ := flowing.returned call member
      exact ⟨Nat.lt_succ_of_lt serial, law, gone, short⟩
  have fresh : CallLaw state.accepted state.taken state.serial request [] := by
    refine ⟨(ofCall_eq_nil fun event member => ?_).symm, Nat.zero_le _, fun _ _ => List.nil_prefix⟩
    have known : event.serial < state.serial := by
      cases request with
      | read size => exact (flowing.known event (Or.inr member)).2
      | write data => exact (flowing.known event (Or.inl member)).2
    exact known.ne
  have others : ∀ other halted, other ≠ tid → state.parked other = some halted →
      halted.serial ≠ state.serial :=
    fun other halted _ is => (flowing.halted other halted is).serial.ne
  have unreturned : ∀ ended ∈ state.returned, ended.serial ≠ state.serial :=
    fun ended member => (flowing.returned ended member).serial.ne
  cases result with
  | result agree rings =>
    rename_i next value
    obtain rfl := Option.some.inj same
    refine ⟨flowing.sound.moves alone (Move.agree agree).moves, fun channel => ?_,
      fun channel => ?_, flowing.past, flowing.known, fun other call is => ?_, flowing.distinct,
      flowing.child, fun call member => ?_⟩
    · show (next.ring channel).Valid _
      rw [rings]
      exact flowing.valid channel
    · show _ = _ ++ (next.ring channel).contents _
      rw [rings]
      exact flowing.current channel
    · obtain ⟨serial, law, entry⟩ := flowing.halted other call is
      refine ⟨serial, law, fun gfd found => ?_⟩
      replace found := (agree.taskGetFd other call.fd).symm.trans found
      obtain ⟨_, _, naming⟩ := taskGetFd_some found
      have live := (flowing.sound.tables alone).named _ gfd naming
      show (next.globalFds gfd).type = _ ∧ (next.globalFds gfd).pipeId = _
      rw [agree.type gfd live, agree.pipeId gfd live]
      exact entry gfd found
    · obtain ⟨serial, law, gone, short⟩ := flowing.returned call member
      exact ⟨serial, law, gone, short⟩
  | pty moved notPipe =>
    obtain rfl := Option.some.inj same
    exact started.moved alone moved (Nat.lt_succ_self _) fresh others unreturned
      (fun goes => absurd goes (by simp)) fun _ size pipe _ through => absurd through (notPipe pipe)
  | pipe moved on right =>
    rename_i next pipe gfd bytes returns
    obtain rfl := Option.some.inj same
    obtain ⟨found, type, pipeId⟩ := on
    obtain ⟨_, _, naming⟩ := taskGetFd_some found
    have live := (flowing.sound.tables alone).named _ gfd naming
    refine started.moved alone moved (Nat.lt_succ_self _) fresh others unreturned
      (fun _ gfd' found' => ?_) fun ends size pipe' is through short => Or.inr ?_
    · have same : gfd' = gfd :=
        Option.some.inj ((found'.symm.trans (moved.agree.taskGetFd tid fd)).trans found)
      rw [same, moved.agree.type gfd live, moved.agree.pipeId gfd live]
      exact ⟨type, pipeId⟩
    · have on : Channel.pipe pipe = .pipe pipe' →
          OnPipe state.fds.tables tid fd request pipe' gfd := fun through' =>
        ⟨found, type, pipeId.trans (Channel.pipe.inj through')⟩
      refine moved.short (flowing.sound.tables alone) right on ends is through ?_
      rw [Nat.zero_add]
      exact short

/-- A call that goes on after a halt. -/
theorem Flowing.resume {state after : Streams} (flowing : Flowing state) {tid : Nat}
    (taken : ioStep state (.resume tid) = some after) : Flowing after := by
  cases is : state.parked tid with
  | none =>
    simp only [ioStep, is] at taken
    exact absurd taken (by simp)
  | some call =>
    simp only [ioStep, is] at taken
    obtain ⟨alone, same⟩ := Option.ite_none_right_eq_some.mp taken
    rw [Option.isNone_iff_eq_none] at alone
    obtain ⟨serial, law, entry⟩ := flowing.halted tid call is
    have consistent := flowing.sound.tables alone
    have others : ∀ other halted, other ≠ tid → state.parked other = some halted →
        halted.serial ≠ call.serial :=
      fun other halted different is' equal =>
        different (flowing.distinct other tid halted call is' is equal)
    have unreturned : ∀ ended ∈ state.returned, ended.serial ≠ call.serial :=
      fun ended member => ((flowing.returned ended member).gone tid call is).symm
    rcases nextStretch_result flowing.valid tid call.fd call.bytes.length call.request with
      ⟨gone, idle⟩ | ⟨next, gfd, bytes, returns, found, goes, moved, right⟩
    · rw [gone] at same
      obtain rfl := Option.some.inj same
      have closed : taskGetFd state.fds.tables tid call.fd = none := by
        cases found : taskGetFd state.fds.tables tid call.fd with
        | none => rfl
        | some gfd =>
          obtain ⟨_, _, naming⟩ := taskGetFd_some found
          have live := consistent.named _ gfd naming
          rw [idle gfd found] at live
          exact absurd live (by simp)
      have nothing : Moved state.fds.tables state.fds.tables (.pipe call.pipe) call.bytes.length
          call.request [] :=
        ⟨Agree.refl _, fun _ _ => rfl, flowing.valid _, fun begun => begun, fun _ _ => rfl,
          fun _ _ => ⟨(List.append_nil _).symm, List.nil_prefix⟩⟩
      exact flowing.moved alone nothing serial law others unreturned
        (fun goes => absurd goes (by simp)) fun _ _ _ _ _ _ => Or.inl closed
    · rw [goes] at same
      obtain rfl := Option.some.inj same
      obtain ⟨_, _, naming⟩ := taskGetFd_some found
      have live := consistent.named _ gfd naming
      obtain ⟨type, pipeId⟩ := entry gfd found
      refine flowing.moved alone moved serial law others unreturned (fun _ gfd' found' => ?_)
        fun ends size pipe' is' through short => Or.inr ?_
      · have same : gfd' = gfd :=
          Option.some.inj ((found'.symm.trans (moved.agree.taskGetFd tid call.fd)).trans found)
        rw [same, moved.agree.type gfd live, moved.agree.pipeId gfd live]
        exact ⟨type, pipeId⟩
      · have on : Channel.pipe (state.fds.tables.globalFds gfd).pipeId = .pipe pipe' →
            OnPipe state.fds.tables tid call.fd call.request pipe' gfd := fun through' =>
          ⟨found, type, Channel.pipe.inj through'⟩
        refine moved.short consistent right on ends is' through ?_
        rw [← List.length_append]
        exact short

/-! ### Descriptor calls -/

theorem aloneNow_alone {fds : Descriptors} {label : Label} (now : aloneNow fds label = true) :
    Alone fds label := by
  cases label with
  | call tid call => exact Option.isNone_iff_eq_none.mp now
  | pipe tid credentials => exact Option.isNone_iff_eq_none.mp now
  | cleanup tid => exact Option.isNone_iff_eq_none.mp now
  | claim kind parent child =>
    intro fd within
    exact Option.isNone_iff_eq_none.mp (List.all_eq_true.mp now fd (List.mem_range.mpr within))
  | load => trivial
  | store => trivial

/-- The child of a copy is one of the tasks that claimed it, or was its child before. -/
theorem step_child {fds next : Descriptors} {label : Label} (alone : Alone fds label)
    (taken : step fds label = some next) {copy : Copy} (busy : next.copying = some copy) :
    copy.child ∈ label.actors ∨ ∃ before, fds.copying = some before ∧
      copy.child = before.child := by
  have kept : next.copying = fds.copying → fds.copying = none →
      copy.child ∈ label.actors ∨ ∃ before, fds.copying = some before ∧
        copy.child = before.child := by
    intro same none'
    rw [same, none'] at busy
    exact absurd busy (by simp)
  cases step_taken taken with
  | call _ _ => exact kept rfl alone
  | pipe _ =>
    refine kept ?_ alone
    unfold Descriptors.afterPipe
    split <;> rfl
  | cleanup _ =>
    refine kept ?_ alone
    unfold Descriptors.afterCleanup
    split <;> rfl
  | fork _ _ _ _ =>
    obtain rfl := Option.some.inj busy
    exact Or.inl (List.mem_cons_of_mem _ List.mem_cons_self)
  | spawn _ _ _ _ =>
    obtain rfl := Option.some.inj busy
    exact Or.inl (List.mem_cons_of_mem _ List.mem_cons_self)
  | create => exact Or.inr ⟨copy, busy, rfl⟩
  | load before _ =>
    rename_i earlier _
    unfold Descriptors.afterLoad at busy
    split at busy
    · exact absurd busy (by simp)
    split at busy
    · obtain rfl := Option.some.inj busy
      exact Or.inr ⟨earlier, before, rfl⟩
    · obtain rfl := Option.some.inj busy
      exact Or.inr ⟨earlier, before, rfl⟩
  | store before _ =>
    rename_i earlier _ _ _
    obtain rfl := Option.some.inj busy
    exact Or.inr ⟨earlier, before, rfl⟩

theorem Untouched.taskGetFd {tid : Nat} (untouched : Untouched tables next tid) {fd : Int}
    {gfd : Nat} (found : Fd.taskGetFd next tid fd = some gfd) :
    Fd.taskGetFd tables tid fd = some gfd ∧
      (next.globalFds gfd).type = (tables.globalFds gfd).type ∧
      (next.globalFds gfd).pipeId = (tables.globalFds gfd).pipeId := by
  obtain ⟨entry, place, naming⟩ := taskGetFd_some found
  obtain ⟨_, rfl⟩ := entryOf_spec place
  obtain ⟨before, same⟩ := untouched fd.toNat gfd naming
  refine ⟨?_, same⟩
  unfold Fd.taskGetFd
  rw [place]
  exact before

/-- A step of the descriptor calls. -/
theorem Flowing.fd {state after : Streams} (flowing : Flowing state) {label : Label}
    (taken : ioStep state (.fd label) = some after) : Flowing after := by
  obtain ⟨ready, same⟩ := Option.ite_none_right_eq_some.mp taken
  obtain ⟨next, stepped, rfl⟩ := Option.map_eq_some_iff.mp same
  rw [Bool.and_eq_true, List.all_eq_true] at ready
  have alone := aloneNow_alone ready.1
  have idle : ∀ tid ∈ label.actors, state.parked tid = none :=
    fun tid member => Option.isNone_iff_eq_none.mp (ready.2 tid member)
  have rings := step_ring stepped
  have later : ∀ channel, state.lives channel ≤
      if label.clears state.fds.tables channel then state.lives channel + 1
      else state.lives channel := by
    intro channel
    split
    · exact Nat.le_succ _
    · exact Nat.le_refl _
  constructor
  case sound => exact flowing.sound.step alone stepped
  case valid =>
    intro channel
    cases cleared : label.clears state.fds.tables channel with
    | false =>
      show (next.tables.ring channel).Valid _
      rw [(rings channel).1 cleared]
      exact flowing.valid channel
    | true =>
      obtain ⟨reads, writes⟩ := (rings channel).2 cleared
      have positive : 0 < channel.capacity := by
        rw [channel.capacity_eq]
        decide
      exact ⟨reads ▸ positive, writes ▸ positive⟩
  case current =>
    intro channel
    show stream state.accepted channel (if label.clears state.fds.tables channel then _ else _) =
      stream state.taken channel (if label.clears state.fds.tables channel then _ else _) ++
        (next.tables.ring channel).contents _
    cases cleared : label.clears state.fds.tables channel with
    | false =>
      rw [(rings channel).1 cleared]
      exact flowing.current channel
    | true =>
      obtain ⟨reads, writes⟩ := (rings channel).2 cleared
      have unborn : ∀ events : List Event, (∀ event ∈ events, event.life ≤
          state.lives event.channel) → stream events channel (state.lives channel + 1) = [] := by
        refine fun events known => stream_eq_nil fun event member here => ?_
        have before := known event member
        rw [here] at before
        omega
      rw [ByteRing.contents_eq_nil (reads.trans writes.symm), List.append_nil]
      exact (unborn _ fun event member => (flowing.known event (Or.inl member)).1).trans
        (unborn _ fun event member => (flowing.known event (Or.inr member)).1).symm
  case past => exact flowing.past
  case known =>
    intro event member
    obtain ⟨life, serial⟩ := flowing.known event member
    exact ⟨life.trans (later event.channel), serial⟩
  case halted =>
    intro tid call is
    have apart : tid ∉ label.actors := by
      intro member
      rw [idle tid member] at is
      exact absurd is (by simp)
    have child : ∀ copy, state.fds.copying = some copy → copy.child ≠ tid := by
      rintro copy busy rfl
      rw [flowing.child copy busy] at is
      exact absurd is (by simp)
    obtain ⟨serial, law, entry⟩ := flowing.halted tid call is
    refine ⟨serial, law, fun gfd found => ?_⟩
    obtain ⟨before, type, pipeId⟩ :=
      (flowing.sound.untouched alone stepped apart child).taskGetFd found
    show (next.tables.globalFds gfd).type = _ ∧ (next.tables.globalFds gfd).pipeId = _
    rw [type, pipeId]
    exact entry gfd before
  case distinct => exact flowing.distinct
  case child =>
    intro copy busy
    rcases step_child alone stepped busy with member | ⟨before, busy', same'⟩
    · exact idle copy.child member
    · show state.parked copy.child = none
      rw [same']
      exact flowing.child before busy'
  case returned =>
    intro call member
    obtain ⟨serial, law, gone, short⟩ := flowing.returned call member
    exact ⟨serial, law, gone, short⟩

/-- A task that dies in its call. -/
theorem Flowing.quit {state : Streams} (flowing : Flowing state) (tid : Nat) :
    Flowing { state with parked := update state.parked tid none } := by
  have before : ∀ {other : Nat} {call : Transfer},
      update state.parked tid none other = some call → state.parked other = some call := by
    intro other call is
    rcases eq_or_ne other tid with rfl | different
    · rw [update_self] at is
      exact absurd is (by simp)
    · rwa [update_of_ne different] at is
  refine ⟨flowing.sound, flowing.valid, flowing.current, flowing.past, flowing.known,
    fun other call is => ?_, fun first second call call' is is' =>
      flowing.distinct first second call call' (before is) (before is'), fun copy busy => ?_,
    fun call member => ?_⟩
  · obtain ⟨serial, law, entry⟩ := flowing.halted other call (before is)
    exact ⟨serial, law, entry⟩
  · cases still : update state.parked tid none copy.child with
    | none => exact still
    | some call =>
      have parked := flowing.child copy busy
      rw [before still] at parked
      exact absurd parked (by simp)
  · obtain ⟨serial, law, gone, short⟩ := flowing.returned call member
    exact ⟨serial, law, fun other halted is => gone other halted (before is), short⟩

/-! ### Runs -/

theorem Flowing.step {state after : Streams} {label : IoLabel} (flowing : Flowing state)
    (taken : ioStep state label = some after) : Flowing after := by
  cases label with
  | fd label => exact flowing.fd taken
  | enter tid fd request backend => exact flowing.enter taken
  | resume tid => exact flowing.resume taken
  | quit tid =>
    obtain rfl := Option.some.inj taken
    exact flowing.quit tid

theorem flowing_booted : Flowing streamsBooted where
  sound := sound_booted
  valid channel := by
    have positive : 0 < channel.capacity := by
      rw [channel.capacity_eq]
      decide
    cases channel <;> exact ⟨positive, positive⟩
  current channel := by
    have empty : inFlight streamsBooted.fds.tables channel = [] := by
      unfold inFlight
      refine ByteRing.contents_eq_nil ?_ _
      cases channel <;> rfl
    rw [empty]
    rfl
  past _ _ := List.prefix_refl []
  known _ member := member.elim (fun is => absurd is List.not_mem_nil)
    fun is => absurd is List.not_mem_nil
  halted _ _ is := absurd is (by simp [streamsBooted])
  distinct _ _ _ _ is := absurd is (by simp [streamsBooted])
  child _ _ := rfl
  returned _ member := absurd member List.not_mem_nil

/-- In every run of reads, writes and descriptor calls, pipes and pseudo-terminals are lossless
queues. -/
theorem io_lossless {state : Streams} (reachable : ioSystem.Reachable anyStep state) :
    Lossless state := by
  have initially : ∀ start, ioSystem.init start → Flowing start := by
    intro start initial
    obtain rfl : start = streamsBooted := initial
    exact flowing_booted
  have flowing : Flowing state := reachable.invariant Flowing initially
    fun _ _ _ flowing _ taken => flowing.step taken
  constructor
  case fifo => exact flowing.past
  case inFlight => exact flowing.current
  case bounded =>
    intro channel
    have short := (flowing.valid channel).length_contents
    rw [channel.capacity_eq] at short
    unfold inFlight
    rw [channel.capacity_eq]
    omega
  case reads =>
    intro call member size is
    have law := (flowing.returned call member).law
    rw [is] at law
    exact ⟨law.own, law.bounded⟩
  case writes =>
    intro call member data is
    have law := (flowing.returned call member).law
    rw [is] at law
    exact ⟨law.own, law.data data rfl⟩
  case short =>
    intro call member size pipe is through fewer
    exact (flowing.returned call member).short size pipe is through (by omega)

/-- Two bytes pass through a pipe of one task. -/
theorem io_lossless_pipe : ∃ state : Streams,
    state.returned.map Return.bytes = [[7, 8], [7, 8]] ∧ Lossless state := by
  have initial : ioSystem.Reachable anyStep streamsBooted := .init rfl
  have piped := initial.step trivial
    (show ioStep streamsBooted (.fd (.pipe 1 ⟨0, 32⟩)) = some _ from rfl)
  have wrote := piped.step trivial
    (show ioStep _ (.enter 1 1 (.write [7, 8]) ⟨0, none⟩) = some _ from rfl)
  have read := wrote.step trivial
    (show ioStep _ (.enter 1 0 (.read 2) ⟨0, none⟩) = some _ from rfl)
  exact ⟨_, by decide +kernel, io_lossless read⟩

end MectovOS.Fd
