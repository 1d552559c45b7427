/-
This file puts reads and writes on top of the descriptor calls. Any number of
tasks read and write at once, one stretch under `fd_lock` a step; a task whose
stretch ended at an empty or a full ring halts and goes on later, or is killed
there. Beside the tables the state keeps a history that the kernel does not
have: every byte accepted and every byte handed out, in the order in which they
passed the lock.
-/

import MectovOS.Fd.Refs
import MectovOS.Fd.Transfer

namespace MectovOS.Fd

open Sched (maxTasks)
open Transition

/-! ### History -/

/-- A byte passes a channel, in the course of a call. A channel is used again after its pipe or
pseudo-terminal was closed; each time it is set up it begins a new life. -/
structure Event where
  channel : Channel
  life : Nat
  serial : Nat
  byte : UInt8

/-- The bytes that passed a channel in one life. -/
def stream (events : List Event) (channel : Channel) (life : Nat) : List UInt8 :=
  (events.filter fun event => event.channel = channel ∧ event.life = life).map Event.byte

/-- The bytes that passed in the course of one call. -/
def ofCall (events : List Event) (serial : Nat) : List UInt8 :=
  (events.filter fun event => event.serial = serial).map Event.byte

/-- A call on a pipe that has halted: what it has moved so far, and through which pipe. -/
structure Transfer where
  serial : Nat
  fd : Int
  request : Request
  bytes : List UInt8
  pipe : Nat

/-- A call that returned, with the tables it left: its value is the number of bytes it moved. -/
structure Return where
  serial : Nat
  tid : Nat
  fd : Int
  request : Request
  channel : Channel
  bytes : List UInt8
  tables : Tables

/-- The descriptor tables, the lives of the channels, the number of calls so far, the calls that
have halted, the bytes accepted and handed out, and the calls that returned. -/
structure Streams where
  fds : Descriptors
  lives : Channel → Nat
  serial : Nat
  parked : Nat → Option Transfer
  accepted : List Event
  taken : List Event
  returned : List Return

/-- No descriptor is open, and nothing has passed. -/
def streamsBooted : Streams where
  fds := booted
  lives _ := 0
  serial := 0
  parked _ := none
  accepted := []
  taken := []
  returned := []

/-! ### Steps -/

/-- The steps of a run: a step of the descriptor calls, the first stretch of a read or a write,
a further one, and the death of a task in its call. -/
inductive IoLabel where
  | fd (label : Label)
  | enter (tid : Nat) (fd : Int) (request : Request) (backend : Backend)
  | resume (tid : Nat)
  | quit (tid : Nat)

/-- The channels a step sets up anew: `do_sys_pipe` resets the pipe it picks, and
`pty_alloc_fd` clears both directions of its pseudo-terminal. -/
def Label.clears (tables : Tables) (label : Label) (channel : Channel) : Bool :=
  match label, channel with
  | .pipe _ _, .pipe slot =>
    ((List.range maxPipes).find? fun slot => !(tables.pipes slot).inUse) == some slot
  | .call _ (.ptyAlloc _), .m2s pty =>
    ((List.range maxPtys).find? fun pty => !(tables.ptys pty).inUse) == some pty
  | .call _ (.ptyAlloc _), .s2m pty =>
    ((List.range maxPtys).find? fun pty => !(tables.ptys pty).inUse) == some pty
  | _, _ => false

/-- The tasks in whose name a step is taken; they are in no other call. A child that is claimed
or rewired has not started. -/
def Label.actors : Label → List Nat
  | .call tid made => [tid, made.target tid]
  | .pipe tid _ => [tid]
  | .cleanup _ => []
  | .claim _ parent child => [parent, child]
  | .load => []
  | .store => []

/-- Copies of a table are taken here in one go: no other stretch falls between their steps, and
the slot they claim holds no descriptor. -/
def aloneNow (state : Descriptors) : Label → Bool
  | .call _ _ => state.copying.isNone
  | .pipe _ _ => state.copying.isNone
  | .cleanup _ => state.copying.isNone
  | .claim _ _ child =>
    (List.range maxFdsPerTask).all fun fd => (state.tables.fdTable (child, fd)).isNone
  | .load => true
  | .store => true

/-- The history after a stretch moved bytes, and the call with it. -/
def Streams.moved (state : Streams) (tid : Nat) (call : Transfer) (tables : Tables)
    (channel : Channel) (bytes : List UInt8) (returns : Bool) : Streams :=
  let events := bytes.map fun byte => ⟨channel, state.lives channel, call.serial, byte⟩
  let after := { call with bytes := call.bytes ++ bytes }
  { state with
    fds := { state.fds with tables := tables }
    parked := Function.update state.parked tid (if returns then none else some after)
    accepted :=
      match call.request with
      | .read _ => state.accepted
      | .write _ => state.accepted ++ events
    taken :=
      match call.request with
      | .read _ => state.taken ++ events
      | .write _ => state.taken
    returned :=
      if returns then
        ⟨call.serial, tid, call.fd, call.request, channel, after.bytes, tables⟩ :: state.returned
      else state.returned }

/-- The pipe of a channel that is one. -/
def Channel.pipeOf : Channel → Nat
  | .pipe slot => slot
  | _ => 0

/-- One step. -/
def ioStep (state : Streams) : IoLabel → Option Streams
  | .fd label =>
    if aloneNow state.fds label && label.actors.all fun tid => (state.parked tid).isNone then
      (step state.fds label).map fun fds =>
        { state with
          fds := fds
          lives := fun channel =>
            if label.clears state.fds.tables channel then state.lives channel + 1
            else state.lives channel }
    else none
  | .enter tid fd request backend =>
    if state.fds.ready tid && state.fds.copying.isNone && (state.parked tid).isNone then
      match firstStretch state.fds.tables tid fd request backend with
      | (tables, .result _) => some { state with fds := { state.fds with tables := tables } }
      | (tables, .moved channel bytes returns) =>
        some (({ state with serial := state.serial + 1 }).moved tid
          ⟨state.serial, fd, request, [], channel.pipeOf⟩ tables channel bytes returns)
    else none
  | .resume tid =>
    match state.parked tid with
    | none => none
    | some call =>
      if state.fds.copying.isNone then
        match nextStretch state.fds.tables tid call.fd call.bytes.length call.request with
        | some (tables, .moved channel bytes returns) =>
          some (state.moved tid call tables channel bytes returns)
        | _ =>
          some (state.moved tid call state.fds.tables (.pipe call.pipe) [] true)
      else none
  | .quit tid => some { state with parked := Function.update state.parked tid none }

/-- Reads, writes and the descriptor calls as a transition system. -/
def ioSystem : System Streams IoLabel := System.ofStep (· = streamsBooted) ioStep

/-! ### The law -/

/-- The bytes in flight in a channel. -/
def inFlight (tables : Tables) (channel : Channel) : List UInt8 :=
  (tables.ring channel).contents channel.capacity

/-- Every write end of the pipe is closed. -/
def WritersGone (tables : Tables) (pipe : Nat) : Prop :=
  ∀ gfd, (tables.globalFds gfd).inUse = true → (tables.globalFds gfd).type = .pipeWrite →
    (tables.globalFds gfd).pipeId ≠ pipe

/-- Pipes and both directions of pseudo-terminals are lossless and in order. What was handed out
of a channel in a life is a prefix of what was accepted, and in the current life what is missing
is in flight, at most 4095 bytes of it. A read returns what was handed out to it and no more than
it asked for, a write returns how much of its data was accepted, and a read of a pipe returns
fewer bytes than asked only when its own descriptor is closed or when every write end is and the
pipe is empty. -/
structure Lossless (state : Streams) : Prop where
  fifo : ∀ channel life, stream state.taken channel life <+: stream state.accepted channel life
  inFlight : ∀ channel, stream state.accepted channel (state.lives channel) =
    stream state.taken channel (state.lives channel) ++ inFlight state.fds.tables channel
  bounded : ∀ channel, (Fd.inFlight state.fds.tables channel).length ≤ 4095
  reads : ∀ call ∈ state.returned, ∀ size, call.request = .read size →
    call.bytes = ofCall state.taken call.serial ∧ call.bytes.length ≤ size.toNat
  writes : ∀ call ∈ state.returned, ∀ data, call.request = .write data →
    call.bytes = ofCall state.accepted call.serial ∧ call.bytes <+: data
  short : ∀ call ∈ state.returned, ∀ size pipe, call.request = .read size →
    call.channel = .pipe pipe → (call.bytes.length : Int) < size →
      taskGetFd call.tables call.tid call.fd = none ∨
        (WritersGone call.tables pipe ∧ Fd.inFlight call.tables (.pipe pipe) = [])

end MectovOS.Fd
