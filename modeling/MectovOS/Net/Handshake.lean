/-
This file states what the handshake of src/drivers/net.c promises over the whole
table of connections, with the number of the SYN of each connection beside it.
-/

import MectovOS.Lib.Transition
import MectovOS.Net.TcpTable

namespace MectovOS.Net

open Transition

/-! ### The run -/

/-- The number of the SYN or the SYN-ACK with which an event starts the connection of a slot. -/
def startedIsn (env : Env) (table : TcpTable) (id : Nat) : NetEvent → Option Seq
  | .connect _ _ =>
    if table.netReady = true ∧ table.freeSlot = some id then
      some (initialSeq env table.portCounter)
    else none
  | .arpReply =>
    if table.pendingId = some id ∧ table.pendingPort ≠ 0 ∧ id < tcpMaxConns then
      some (initialSeq env (table.conns id).localPort)
    else none
  | .segment segment =>
    if table.findConn segment = none ∧ (table.spawns segment).map Prod.fst = some id then
      some (env.now * 54321 + segment.dstPort.setWidth 32)
    else none
  | _ => none

/-- The table before and behind the last event, the event and what it sent, and the number of the
SYN of the connection in each slot. -/
structure NetState where
  before : TcpTable
  event : Option NetEvent
  table : TcpTable
  sent : List Sent
  isn : Nat → Seq

/-- The state behind an event. -/
def NetState.after (state : NetState) (env : Env) (event : NetEvent) : NetState where
  before := state.table
  event := some event
  table := (state.table.on env event).1
  sent := (state.table.on env event).2
  isn := fun id => (startedIsn env state.table id event).getD (state.isn id)

/-- No slot is in use. -/
def NetState.Initial (state : NetState) : Prop :=
  (∀ id, (state.table.conns id).inUse = false) ∧ state.before = state.table ∧
    state.event = none ∧ state.sent = []

/-- The table under any events. -/
def netSystem : System NetState (Env × NetEvent) where
  init := NetState.Initial
  step state label next := next = state.after label.1 label.2

/-! ### The law -/

/-- A segment of a connection that passes the checks of its size, its checksum and its reset
flag. -/
structure Arrives (table : TcpTable) (segment : Segment) (id : Nat) : Prop where
  found : table.findConn segment = some id
  short : segment.length ≤ tcpLenMax
  valid : segment.valid = true
  alive : segment.flags.rst = false

/-- What the handshake promises of each event. -/
structure HandshakeKept (state : NetState) : Prop where
  client : ∀ id, (state.before.conns id).inUse = true →
    (state.before.conns id).state = .synSent → (state.table.conns id).state = .established →
    ∃ segment, state.event = some (.segment segment) ∧ segment.valid = true ∧
      segment.flags.syn = true ∧ segment.flags.ack = true ∧ segment.ack = state.isn id + 1
  server : ∀ id, (state.before.conns id).inUse = true →
    (state.before.conns id).state = .synRcvd → (state.table.conns id).state = .established →
    ∃ segment, state.event = some (.segment segment) ∧ segment.valid = true ∧
      segment.flags.ack = true ∧ segment.ack = state.isn id + 1
  completes : ∀ segment id, state.event = some (.segment segment) →
    Arrives state.before segment id → (state.before.conns id).state = .synRcvd →
    segment.flags.ack = true → segment.flags.syn = false → segment.ack = state.isn id + 1 →
    (state.table.conns id).state = .established
  repeatedSyn : ∀ segment id, state.event = some (.segment segment) →
    Arrives state.before segment id → (state.before.conns id).state = .synRcvd →
    segment.flags.syn = true → segment.flags.ack = false →
    (state.table.conns id).seq = (state.before.conns id).seq ∧
      (state.table.conns id).ack = (state.before.conns id).ack ∧
      (state.before.netReady = true → ∃ sent, state.sent = [sent] ∧ sent.flags = .synAck ∧
        sent.seq = state.isn id ∧ sent.ack = (state.before.conns id).ack)
  repeatedLater : ∀ segment id, state.event = some (.segment segment) →
    Arrives state.before segment id → (state.before.conns id).state = .established →
    segment.flags.syn = true → segment.flags.fin = false →
    (segment.payload = [] ∨ segment.seq ≠ (state.before.conns id).ack) →
    (state.table.conns id).seq = (state.before.conns id).seq ∧
      (state.table.conns id).ack = (state.before.conns id).ack
  invalid : ∀ segment, state.event = some (.segment segment) → segment.valid = false →
    state.table.conns = state.before.conns

/-- A segment with a bad checksum spawns nothing, a connection that has sent its SYN is not
answered with the number past its SYN, and no SYN is repeated before the final acknowledgment. -/
def PlainHandshake (state : NetState) (label : Env × NetEvent) : Prop :=
  ∀ segment, label.2 = .segment segment →
    (segment.valid = false → state.table.findConn segment = none →
      state.table.spawns segment = none) ∧
    ∀ id, Arrives state.table segment id → segment.flags.syn = true →
      (state.table.conns id).state ≠ .synRcvd ∧
      ((state.table.conns id).state = .synSent → segment.flags.ack = true →
        segment.ack ≠ (state.table.conns id).seq + 1)

end MectovOS.Net
