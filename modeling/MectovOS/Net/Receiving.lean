/-
This file states what the receiver of src/drivers/net.c promises on one
connection: what its owner reads is the stream of the peer. The peer numbers its
bytes and ends them with a FIN; the network drops, repeats, delays, reorders and
resizes its segments, so a segment may bring any part of the stream at any time.
-/

import MectovOS.Lib.Transition
import MectovOS.Net.Tcp

namespace MectovOS.Net

open Transition

/-! ### The peer -/

/-- The stream of the peer: its initial number, its bytes, and their count once it has ended. -/
structure Peer where
  isn : Seq
  byte : Nat → UInt8
  last : Option Nat

/-- Some bytes of the stream. -/
def Peer.slice (peer : Peer) (offset count : Nat) : Bytes :=
  (List.range count).map fun index => peer.byte (offset + index)

/-- The number of the byte at an offset. -/
def Peer.number (peer : Peer) (offset : Nat) : Seq := peer.isn + 1 + BitVec.ofNat 32 offset

/-- The segment brings the bytes of the stream at the offset, and its FIN stands behind the last
one. A segment without data and FIN may carry any number, and the peer does not reset. -/
structure Peer.Sends (peer : Peer) (segment : Segment) (offset : Nat) : Prop where
  reset : segment.flags.rst = false
  number : segment.payload ≠ [] ∨ segment.flags.fin = true → segment.seq = peer.number offset
  payload : segment.payload ≠ [] → segment.payload = peer.slice offset segment.payload.length
  within : ∀ last, peer.last = some last → segment.payload ≠ [] →
    offset + segment.payload.length ≤ last
  fin : segment.flags.fin = true → peer.last = some (offset + segment.payload.length)

/-! ### The run -/

/-- A connection with the bytes that its owner has read, and the answer of the last event if it
was a read. -/
@[ext]
structure RecvState where
  conn : TcpConn
  taken : Bytes
  answer : Option Received

/-- The bytes that an answer brings. -/
def Received.content : Received → Bytes
  | .bytes read => read
  | .code _ => []

/-- The answer to an event. -/
def answerOf (env : Env) (conn : TcpConn) : ConnEvent → Option Received
  | .recv maxLen => some (tcpRecv env conn maxLen).1
  | _ => none

/-- The state behind an event. -/
def RecvState.after (state : RecvState) (env : Env) (event : ConnEvent) : RecvState where
  conn := (state.conn.on env event).1
  taken := state.taken ++ ((answerOf env state.conn event).map Received.content).getD []
  answer := answerOf env state.conn event

/-- The bytes of the stream that are stored or were read. -/
def RecvState.stored (state : RecvState) : Nat := state.taken.length + state.conn.rx.length

/-- What happens to the connection: a segment that passes the checksum is one of the peer. -/
structure RecvLabel where
  env : Env
  event : ConnEvent
  offset : Nat

/-- A connection whose handshake is done and that has received nothing. -/
def RecvState.Initial (peer : Peer) (state : RecvState) : Prop :=
  state.conn.inUse = true ∧ state.conn.state = .established ∧ state.conn.rx = [] ∧
    state.conn.eof = false ∧ state.conn.ack = peer.number 0 ∧ state.taken = [] ∧
    state.answer = none

/-- The events of a connection with this peer as long as its slot is in use. -/
def recvSystem (peer : Peer) : System RecvState RecvLabel where
  init := RecvState.Initial peer
  step state label next := state.conn.inUse = true ∧
    (∀ segment, label.event = .segment segment → segment.valid = true →
      peer.Sends segment label.offset) ∧
    next = state.after label.env label.event

/-! ### The law -/

/-- What was read is a prefix of the stream, a read tells the end only behind its last byte, and
no byte is acknowledged that is not stored. -/
structure StreamKept (peer : Peer) (state : RecvState) : Prop where
  stream : state.taken = peer.slice 0 state.taken.length
  within : ∀ last, peer.last = some last → state.taken.length ≤ last
  ended : state.answer = some (.code (-1)) → peer.last = some state.taken.length
  acknowledged : state.conn.ack = peer.number state.stored ∨
    (peer.last = some state.stored ∧ state.conn.ack = peer.number state.stored + 1)

/-- Data with the number that is expected is the data that is expected: no segment comes as late
as the numbers come again. And a FIN comes when all bytes before it are stored: the segment ends
where the stored bytes end, or it is the next one and its data fits. -/
def FinInOrder (state : RecvState) (label : RecvLabel) : Prop :=
  ∀ segment, label.event = .segment segment → segment.valid = true →
    (segment.payload ≠ [] → segment.seq = state.conn.ack → label.offset = state.stored) ∧
    (segment.flags.fin = true →
      (state.conn.state = .established ∨ state.conn.state = .closeWait →
        label.offset + segment.payload.length = state.stored ∨
          (label.offset = state.stored ∧
            state.conn.rx.length + segment.payload.length ≤ tcpConnBuf)) ∧
      (state.conn.state = .finWait2 →
        label.offset + segment.payload.length = state.stored))

/-! ### What a step keeps -/

variable {env : Env} {conn next : TcpConn} {segment : Segment}

/-- The receive side of the connection is the same. -/
structure SameRecv (conn next : TcpConn) : Prop where
  rx : next.rx = conn.rx
  ack : next.ack = conn.ack
  eof : next.eof = conn.eof

theorem SameRecv.refl (conn : TcpConn) : SameRecv conn conn := ⟨rfl, rfl, rfl⟩

/-- The slot is free, or the handshake is done and the connection not closed. -/
def Live (conn : TcpConn) : Prop :=
  conn.inUse = true → conn.state ≠ .synSent ∧ conn.state ≠ .synRcvd ∧ conn.state ≠ .closed

theorem Live.of_same (live : Live conn) (inUse : next.inUse = conn.inUse)
    (state : next.state = conn.state) : Live next := by
  unfold Live
  rw [inUse, state]
  exact live

theorem sendSegment_recv (env : Env) (conn : TcpConn) (flags : Flags) (payload : Bytes) :
    SameRecv conn (sendSegment env conn flags payload).1 ∧
      (sendSegment env conn flags payload).1.state = conn.state ∧
      (sendSegment env conn flags payload).1.inUse = conn.inUse := by
  unfold sendSegment
  split
  · exact ⟨.refl conn, rfl, rfl⟩
  · exact ⟨⟨rfl, rfl, rfl⟩, rfl, rfl⟩

/-- Data is stored when it is next and fits, and nothing else changes. -/
theorem appendData_recv (env : Env) (conn : TcpConn) (segment : Segment) :
    (appendData env conn segment).1.state = conn.state ∧
      (appendData env conn segment).1.inUse = conn.inUse ∧
      (appendData env conn segment).1.eof = conn.eof ∧
      (if segment.payload ≠ [] ∧ (conn.state = .established ∨ conn.state = .closeWait) ∧
          segment.seq = conn.ack ∧ conn.rx.length + segment.payload.length ≤ tcpConnBuf then
        (appendData env conn segment).1.rx = conn.rx ++ segment.payload ∧
          (appendData env conn segment).1.ack =
            segment.seq + BitVec.ofNat 32 segment.payload.length
      else (appendData env conn segment).1.rx = conn.rx ∧
        (appendData env conn segment).1.ack = conn.ack) := by
  unfold appendData
  by_cases may : segment.payload ≠ [] ∧ (conn.state = .established ∨ conn.state = .closeWait)
  · rw [if_pos may]
    by_cases fits : segment.seq = conn.ack ∧
        conn.rx.length + segment.payload.length ≤ tcpConnBuf
    · rw [if_pos fits, if_pos ⟨may.1, may.2, fits.1, fits.2⟩]
      obtain ⟨same, state, inUse⟩ := sendSegment_recv env
        { conn with
          rx := conn.rx ++ segment.payload
          ack := segment.seq + BitVec.ofNat 32 segment.payload.length } .ackOnly []
      exact ⟨state, inUse, same.eof, same.rx, same.ack⟩
    · rw [if_neg fits, if_neg fun all => fits all.2.2]
      obtain ⟨same, state, inUse⟩ := sendSegment_recv env conn .ackOnly []
      exact ⟨state, inUse, same.eof, same.rx, same.ack⟩
  · rw [if_neg may, if_neg fun all => may ⟨all.1, all.2.1⟩]
    exact ⟨rfl, rfl, rfl, rfl, rfl⟩

/-- The FIN of the peer is taken in with its number, or nothing changes on the receive side. -/
theorem peerFin_recv (env : Env) (conn : TcpConn) (segment : Segment) :
    (SameRecv conn (peerFin env conn segment).1 ∧
      (peerFin env conn segment).1.state = conn.state ∧
      (peerFin env conn segment).1.inUse = conn.inUse) ∨
    (segment.flags.fin = true ∧ (conn.state = .established ∨ conn.state = .closeWait) ∧
      (peerFin env conn segment).1.rx = conn.rx ∧
      (peerFin env conn segment).1.ack = finNumber segment ∧
      (peerFin env conn segment).1.eof = true ∧
      (peerFin env conn segment).1.state = .closeWait ∧
      (peerFin env conn segment).1.inUse = conn.inUse) ∨
    (segment.flags.fin = true ∧ conn.state = .finWait2 ∧
      (peerFin env conn segment).1.rx = conn.rx ∧
      (peerFin env conn segment).1.ack = finNumber segment ∧
      (peerFin env conn segment).1.eof = conn.eof ∧
      (peerFin env conn segment).1.inUse = false) := by
  unfold peerFin
  split
  · exact Or.inl ⟨.refl conn, rfl, rfl⟩
  rename_i fin
  rw [Bool.not_eq_false] at fin
  split
  · rename_i either
    obtain ⟨same, state, inUse⟩ := sendSegment_recv env
      { conn with state := .closeWait, ack := finNumber segment, eof := true } .ackOnly []
    exact Or.inr (Or.inl ⟨fin, either, same.rx, same.ack, same.eof, state, inUse⟩)
  split
  · rename_i waits
    obtain ⟨same, _, _⟩ := sendSegment_recv env { conn with ack := finNumber segment } .ackOnly []
    exact Or.inr (Or.inr ⟨fin, waits, same.rx, same.ack, same.eof, rfl⟩)
  · exact Or.inl ⟨.refl conn, rfl, rfl⟩

end MectovOS.Net
