/-
This file states what the sender of src/drivers/net.c promises on one
connection: the bytes it takes get consecutive numbers, at most one data segment
waits for its acknowledgment, and the close goes on when the FIN is covered. The
model runs a connection from the end of its handshake on. Beside it stand the
bytes that were taken and the segments that are not acknowledged, where the
order of the numbers is read modulo their width.
-/

import MectovOS.Lib.Serial
import MectovOS.Lib.Transition
import MectovOS.Net.Tcp

namespace MectovOS.Net

open Transition Serial

/-! ### The run -/

/-- A segment that reaches the connection behind the checks of its size, its checksum, its reset
flag and its header. -/
def Segment.reaches (segment : Segment) : Bool :=
  decide (segment.length ≤ tcpLenMax) && segment.valid && !segment.flags.rst &&
    decide (tcpHeaderSize ≤ segment.headerLen) && decide (segment.headerLen ≤ segment.length)

/-- A data segment: its number and its bytes. -/
structure Chunk where
  seq : Seq
  bytes : Bytes
  deriving DecidableEq

/-- The number behind the last byte. -/
def Chunk.next (chunk : Chunk) : Seq := chunk.seq + BitVec.ofNat 32 chunk.bytes.length

/-- A connection with the connection before the last event, the event and what it sent, the number
of its first byte, the bytes that were taken, and the chunks that are not acknowledged. -/
structure SendState where
  before : TcpConn
  event : Option ConnEvent
  conn : TcpConn
  sent : List Sent
  start : Seq
  taken : Bytes
  outstanding : List Chunk

/-- The bytes that a call takes. -/
def takenBytes (conn : TcpConn) : ConnEvent → Bytes
  | .send payload =>
    if conn.state = .established ∧ conn.unackedLen = 0 then payload.take sendLimit else []
  | _ => []

/-- What an event leaves of the chunks that are not acknowledged. -/
def leftOutstanding (chunks : List Chunk) : ConnEvent → List Chunk
  | .segment segment =>
    if segment.reaches && segment.flags.ack then
      chunks.filter fun chunk => decide (¬ Reached segment.ack chunk.next)
    else chunks
  | _ => chunks

/-- The state behind an event. -/
def SendState.after (state : SendState) (env : Env) (event : ConnEvent) : SendState where
  before := state.conn
  event := some event
  conn := (state.conn.on env event).1
  sent := (state.conn.on env event).2
  start := state.start
  taken := state.taken ++ takenBytes state.conn event
  outstanding := leftOutstanding state.outstanding event ++
    if takenBytes state.conn event = [] then []
    else [⟨state.conn.seq, takenBytes state.conn event⟩]

/-- A connection whose handshake is done and that has sent nothing. -/
def SendState.Initial (state : SendState) : Prop :=
  state.conn.inUse = true ∧ state.conn.state = .established ∧ state.conn.unackedLen = 0 ∧
    state.event = none ∧ state.sent = [] ∧ state.start = state.conn.seq ∧ state.taken = [] ∧
    state.outstanding = []

/-- The events of a connection as long as its slot is in use. -/
def sendSystem : System SendState (Env × ConnEvent) where
  init := SendState.Initial
  step state label next := state.conn.inUse = true ∧ next = state.after label.1 label.2

/-! ### The law -/

/-- The FIN is sent and not covered yet. -/
def awaitsFin (state : TcpState) : Bool := decide (state = .finWait1) || decide (state = .lastAck)

/-- What the sender promises in every state of a run: the connection records exactly what is not
acknowledged, which is one chunk at most; each data segment of the last event is what is not
acknowledged, and its bytes are the bytes taken at its number; and the close has gone on behind a
segment only when it covers the FIN. -/
structure SendKept (state : SendState) : Prop where
  single : state.outstanding.length ≤ 1
  recorded : state.outstanding =
    if state.conn.unackedLen = 0 then [] else [⟨state.conn.unackedSeq, state.conn.txPending⟩]
  numbered : ∀ sent ∈ state.sent, sent.payload ≠ [] →
    ⟨sent.seq, sent.payload⟩ ∈ state.outstanding ∧
      ∃ front back, state.taken = front ++ sent.payload ++ back ∧
        sent.seq = state.start + BitVec.ofNat 32 front.length
  consecutive : state.conn.state = .established →
    state.conn.seq = state.start + BitVec.ofNat 32 state.taken.length
  covered : ∀ segment, state.event = some (.segment segment) → segment.reaches = true →
    awaitsFin state.before.state = true → state.conn.state ≠ state.before.state →
    segment.flags.ack = true ∧ Reached segment.ack state.before.seq

/-- The acknowledgment of a segment is not half the numbers away from what it is compared with:
the end of the chunk that is not acknowledged, and the number behind the FIN. -/
def Comparable (state : SendState) (label : Env × ConnEvent) : Prop :=
  ∀ segment, label.2 = .segment segment → segment.reaches = true → segment.flags.ack = true →
    (0 < state.conn.unackedLen →
      Near segment.ack (state.conn.unackedSeq + BitVec.ofNat 32 state.conn.unackedLen)) ∧
    (awaitsFin state.conn.state = true → Near segment.ack state.conn.seq)

/-! ### What a step keeps -/

variable {env : Env} {conn next : TcpConn} {segment : Segment}

/-- The send side of the connection is the same. -/
structure SameSend (conn next : TcpConn) : Prop where
  seq : next.seq = conn.seq
  unackedSeq : next.unackedSeq = conn.unackedSeq
  unackedLen : next.unackedLen = conn.unackedLen
  txPending : next.txPending = conn.txPending

theorem SameSend.refl (conn : TcpConn) : SameSend conn conn := ⟨rfl, rfl, rfl, rfl⟩

theorem SameSend.trans {middle : TcpConn} (first : SameSend conn middle)
    (second : SameSend middle next) : SameSend conn next :=
  ⟨second.seq.trans first.seq, second.unackedSeq.trans first.unackedSeq,
    second.unackedLen.trans first.unackedLen, second.txPending.trans first.txPending⟩

/-- A segment that is sent changes the timer of its connection only. -/
theorem sendSegment_conn (env : Env) (conn : TcpConn) (flags : Flags) (payload : Bytes) :
    ∃ tick, (sendSegment env conn flags payload).1 = { conn with lastTxTick := tick } := by
  unfold sendSegment
  split
  · exact ⟨conn.lastTxTick, rfl⟩
  · exact ⟨_, rfl⟩

theorem sendSegment_sent {flags : Flags} {payload : Bytes} {sent : Sent}
    (member : sent ∈ (sendSegment env conn flags payload).2) :
    sent.seq = conn.seq ∧ sent.ack = conn.ack ∧ sent.flags = flags ∧ sent.payload = payload := by
  unfold sendSegment at member
  split at member
  · exact absurd member List.not_mem_nil
  · obtain rfl := List.mem_singleton.mp member
    exact ⟨rfl, rfl, rfl, rfl⟩

theorem sendSegment_same (env : Env) (conn : TcpConn) (flags : Flags) (payload : Bytes) :
    SameSend conn (sendSegment env conn flags payload).1 ∧
      (sendSegment env conn flags payload).1.state = conn.state ∧
      (sendSegment env conn flags payload).1.inUse = conn.inUse := by
  obtain ⟨tick, is⟩ := sendSegment_conn env conn flags payload
  rw [is]
  exact ⟨⟨rfl, rfl, rfl, rfl⟩, rfl, rfl⟩

theorem appendData_same (env : Env) (conn : TcpConn) (segment : Segment) :
    SameSend conn (appendData env conn segment).1 ∧
      (appendData env conn segment).1.state = conn.state ∧
      (appendData env conn segment).1.inUse = conn.inUse := by
  unfold appendData
  split
  · split
    · obtain ⟨same, state, inUse⟩ := sendSegment_same env
        { conn with
          rx := conn.rx ++ segment.payload
          ack := segment.seq + BitVec.ofNat 32 segment.payload.length } .ackOnly []
      exact ⟨⟨same.seq, same.unackedSeq, same.unackedLen, same.txPending⟩, state, inUse⟩
    · exact sendSegment_same env conn .ackOnly []
  · exact ⟨.refl conn, rfl, rfl⟩

/-- A segment that is sent without data. -/
def Silent (sent : List Sent) : Prop := ∀ segment ∈ sent, segment.payload = []

theorem silent_nil : Silent [] := fun _ member => absurd member List.not_mem_nil

theorem sendSegment_silent (env : Env) (conn : TcpConn) (flags : Flags) :
    Silent (sendSegment env conn flags []).2 := fun _ member => (sendSegment_sent member).2.2.2

theorem Silent.append {first second : List Sent} (silent : Silent first)
    (silent' : Silent second) : Silent (first ++ second) := fun segment member =>
  (List.mem_append.mp member).elim (silent segment) (silent' segment)

theorem appendData_silent (env : Env) (conn : TcpConn) (segment : Segment) :
    Silent (appendData env conn segment).2 := by
  unfold appendData
  split
  · split
    · exact sendSegment_silent _ _ _
    · exact sendSegment_silent _ _ _
  · exact silent_nil

/-- A state behind the established one. -/
def isClosing : TcpState → Bool
  | .finWait1 | .finWait2 | .closeWait | .lastAck | .closed => true
  | _ => false

theorem peerFin_same (env : Env) (conn : TcpConn) (segment : Segment) :
    SameSend conn (peerFin env conn segment).1 ∧ Silent (peerFin env conn segment).2 ∧
      ((peerFin env conn segment).1.state = conn.state ∨
        awaitsFin conn.state = false ∧ isClosing (peerFin env conn segment).1.state = true) := by
  unfold peerFin
  split
  · exact ⟨.refl conn, silent_nil, Or.inl rfl⟩
  split
  · rename_i either
    obtain ⟨same, state, _⟩ := sendSegment_same env
      { conn with state := .closeWait, ack := finNumber segment, eof := true } .ackOnly []
    refine ⟨⟨same.seq, same.unackedSeq, same.unackedLen, same.txPending⟩,
      sendSegment_silent _ _ _, Or.inr ⟨?_, by rw [state]; rfl⟩⟩
    rcases either with is | is <;> rw [is] <;> rfl
  split
  · rename_i waits
    obtain ⟨same, _, _⟩ := sendSegment_same env { conn with ack := finNumber segment } .ackOnly []
    exact ⟨⟨same.seq, same.unackedSeq, same.unackedLen, same.txPending⟩,
      sendSegment_silent _ _ _, Or.inr ⟨by rw [waits]; rfl, rfl⟩⟩
  · exact ⟨.refl conn, silent_nil, Or.inl rfl⟩

/-- The close of a connection goes on only when the plain comparison covers the FIN. -/
theorem closeInput_same (env : Env) (conn : TcpConn) (segment : Segment) :
    SameSend conn (closeInput env conn segment).1 ∧ Silent (closeInput env conn segment).2 ∧
      ((closeInput env conn segment).1.state = conn.state ∨
        isClosing (closeInput env conn segment).1.state = true ∧
          (awaitsFin conn.state = true → segment.flags.ack = true ∧ conn.seq ≤ segment.ack)) := by
  unfold closeInput
  split
  · rename_i covers
    split
    · exact ⟨⟨rfl, rfl, rfl, rfl⟩, silent_nil,
        Or.inr ⟨rfl, fun _ => covers.2⟩⟩
    · obtain ⟨same, silent, kept | moved⟩ :=
        peerFin_same env { conn with state := .finWait2 } segment
      · exact ⟨⟨same.seq, same.unackedSeq, same.unackedLen, same.txPending⟩, silent,
          Or.inr ⟨by rw [kept]; rfl, fun _ => covers.2⟩⟩
      · exact ⟨⟨same.seq, same.unackedSeq, same.unackedLen, same.txPending⟩, silent,
          Or.inr ⟨moved.2, fun _ => covers.2⟩⟩
  split
  · rename_i covers
    exact ⟨⟨rfl, rfl, rfl, rfl⟩, silent_nil, Or.inr ⟨rfl, fun _ => covers.2⟩⟩
  · obtain ⟨same, silent, kept | moved⟩ := peerFin_same env conn segment
    · exact ⟨same, silent, Or.inl kept⟩
    · refine ⟨same, silent, Or.inr ⟨moved.2, fun awaits => ?_⟩⟩
      rw [moved.1] at awaits
      exact absurd awaits (by simp)

/-- The handshake of the connection is done. -/
def Opened (conn : TcpConn) : Prop := conn.state ≠ .synSent ∧ conn.state ≠ .synRcvd

theorem isClosing_opened (closing : isClosing conn.state = true) :
    Opened conn ∧ conn.state ≠ .established := by
  refine ⟨⟨?_, ?_⟩, ?_⟩ <;> intro is <;> rw [is] at closing <;> exact absurd closing (by decide)

theorem clearUnacked_state (conn : TcpConn) (segment : Segment) :
    (clearUnacked conn segment).state = conn.state ∧
      (clearUnacked conn segment).seq = conn.seq := by
  unfold clearUnacked
  split
  · exact ⟨rfl, rfl⟩
  · exact ⟨rfl, rfl⟩

/-- What a segment does to an open connection: it fails its checks and clears nothing, or it
clears what it acknowledges, and the close may go on. -/
theorem tcpInput_same (env : Env) (opened : Opened conn) (segment : Segment) :
    Silent (tcpInput env conn segment).2 ∧
      ((tcpInput env conn segment).1.state = conn.state ∨
        isClosing (tcpInput env conn segment).1.state = true) ∧
      (segment.reaches = false → SameSend conn (tcpInput env conn segment).1) ∧
      (segment.reaches = true → SameSend (clearUnacked conn segment) (tcpInput env conn segment).1 ∧
        ((tcpInput env conn segment).1.state = conn.state ∨
          (awaitsFin conn.state = true → segment.flags.ack = true ∧ conn.seq ≤ segment.ack))) := by
  unfold tcpInput Segment.reaches
  split
  · rename_i long
    refine ⟨silent_nil, Or.inl rfl, fun _ => .refl conn, fun reaches => ?_⟩
    simp [Nat.not_le.mpr long] at reaches
  rename_i short
  split
  · rename_i invalid
    refine ⟨silent_nil, Or.inl rfl, fun _ => .refl conn, fun reaches => ?_⟩
    simp [invalid] at reaches
  rename_i valid
  split
  · rename_i reset
    refine ⟨silent_nil, Or.inr rfl, fun _ => ⟨rfl, rfl, rfl, rfl⟩,
      fun reaches => ?_⟩
    simp [reset] at reaches
  rename_i alive
  rw [if_neg opened.1, if_neg opened.2]
  unfold dataInput
  split
  · rename_i broken
    refine ⟨silent_nil, Or.inl rfl, fun _ => .refl conn, fun reaches => ?_⟩
    simp only [Bool.and_eq_true, decide_eq_true_eq] at reaches
    omega
  rename_i sound
  obtain ⟨stored, storedState, _⟩ := appendData_same env (clearUnacked conn segment) segment
  obtain ⟨cleared, clearedSeq⟩ := clearUnacked_state conn segment
  obtain ⟨closed, silent, kept⟩ :=
    closeInput_same env (appendData env (clearUnacked conn segment) segment).1 segment
  rw [storedState, cleared, stored.seq, clearedSeq] at kept
  refine ⟨(appendData_silent _ _ _).append silent, kept.imp id And.left, fun reaches => ?_,
    fun _ => ⟨stored.trans closed, kept.imp id And.right⟩⟩
  rw [not_or, Nat.not_lt, Nat.not_lt] at sound
  simp only [Bool.not_eq_false, Bool.not_eq_true] at valid alive
  simp [Nat.not_lt.mp short, valid, alive, sound.1, sound.2] at reaches

theorem tcpRecv_same (env : Env) (conn : TcpConn) (maxLen : Nat) :
    SameSend conn (tcpRecv env conn maxLen).2.1 ∧ Silent (tcpRecv env conn maxLen).2.2 ∧
      (tcpRecv env conn maxLen).2.1.state = conn.state := by
  unfold tcpRecv
  split
  · exact ⟨.refl conn, silent_nil, rfl⟩
  split
  · exact ⟨.refl conn, silent_nil, rfl⟩
  simp only
  split
  · obtain ⟨same, state, _⟩ := sendSegment_same env { conn with rx := conn.rx.drop maxLen }
      .ackOnly []
    exact ⟨⟨same.seq, same.unackedSeq, same.unackedLen, same.txPending⟩,
      sendSegment_silent _ _ _, state⟩
  · exact ⟨⟨rfl, rfl, rfl, rfl⟩, silent_nil, rfl⟩

/-- A close sends no data and leaves what is not acknowledged. -/
theorem tcpClose_same (env : Env) (conn : TcpConn) :
    (tcpClose env conn).1.unackedSeq = conn.unackedSeq ∧
      (tcpClose env conn).1.unackedLen = conn.unackedLen ∧
      (tcpClose env conn).1.txPending = conn.txPending ∧ Silent (tcpClose env conn).2 ∧
      isClosing (tcpClose env conn).1.state = true := by
  obtain ⟨same, _, _⟩ := sendSegment_same env conn .finAck []
  unfold tcpClose
  split
  · exact ⟨same.unackedSeq, same.unackedLen, same.txPending, sendSegment_silent _ _ _, rfl⟩
  split
  · exact ⟨same.unackedSeq, same.unackedLen, same.txPending, sendSegment_silent _ _ _, rfl⟩
  · exact ⟨rfl, rfl, rfl, silent_nil, rfl⟩

/-- A sweep sends nothing but what is not acknowledged. -/
theorem tcpSweep_same (env : Env) (opened : Opened conn) :
    SameSend conn (tcpSweep env conn).1 ∧ (tcpSweep env conn).1.state = conn.state ∧
      ∀ sent ∈ (tcpSweep env conn).2, 0 < conn.unackedLen ∧ sent.seq = conn.unackedSeq ∧
        sent.payload = conn.txPending := by
  unfold tcpSweep
  rw [if_neg opened.1]
  split
  · rename_i due
    obtain ⟨same, state, _⟩ := sendSegment_same env
      { conn with retransCount := conn.retransCount + 1, seq := conn.unackedSeq } .data
      conn.txPending
    refine ⟨⟨rfl, same.unackedSeq, same.unackedLen, same.txPending⟩, state, fun sent member => ?_⟩
    obtain ⟨seq, _, _, payload⟩ := sendSegment_sent member
    exact ⟨due.1, seq, payload⟩
  · exact ⟨.refl conn, rfl, fun _ member => absurd member List.not_mem_nil⟩

/-- A call takes nothing and leaves the record, or it takes bytes when nothing waits and records
them. -/
theorem tcpSend_same (env : Env) (conn : TcpConn) (payload : Bytes) :
    (tcpSend env conn payload).2.1.state = conn.state ∧
      (tcpSend env conn payload).2.1.seq =
        conn.seq + BitVec.ofNat 32 (takenBytes conn (.send payload)).length ∧
      (takenBytes conn (.send payload) = [] →
        (tcpSend env conn payload).2.1.unackedLen = conn.unackedLen ∧
          (conn.unackedLen ≠ 0 →
            (tcpSend env conn payload).2.1.unackedSeq = conn.unackedSeq ∧
              (tcpSend env conn payload).2.1.txPending = conn.txPending) ∧
          Silent (tcpSend env conn payload).2.2) ∧
      (takenBytes conn (.send payload) ≠ [] →
        conn.unackedLen = 0 ∧ conn.state = .established ∧
          (tcpSend env conn payload).2.1.unackedLen =
            (takenBytes conn (.send payload)).length ∧
          (tcpSend env conn payload).2.1.unackedSeq = conn.seq ∧
          (tcpSend env conn payload).2.1.txPending = takenBytes conn (.send payload) ∧
          ∀ sent ∈ (tcpSend env conn payload).2.2,
            sent.seq = conn.seq ∧ sent.payload = takenBytes conn (.send payload)) := by
  have nothing : conn.seq = conn.seq + BitVec.ofNat 32 ([] : Bytes).length :=
    (BitVec.add_zero conn.seq).symm
  rw [show takenBytes conn (.send payload) =
    if conn.state = .established ∧ conn.unackedLen = 0 then payload.take sendLimit else [] from rfl]
  unfold tcpSend
  by_cases established : conn.state = .established
  swap
  · rw [if_pos established, if_neg fun both => established both.1]
    exact ⟨rfl, nothing, fun _ => ⟨rfl, fun _ => ⟨rfl, rfl⟩, silent_nil⟩,
      fun some' => absurd rfl some'⟩
  rw [if_neg (not_not.mpr established)]
  by_cases waits : 0 < conn.unackedLen
  · rw [if_pos waits, if_neg fun both => waits.ne' both.2]
    exact ⟨rfl, nothing, fun _ => ⟨rfl, fun _ => ⟨rfl, rfl⟩, silent_nil⟩,
      fun some' => absurd rfl some'⟩
  have none' : conn.unackedLen = 0 := Nat.eq_zero_of_not_pos waits
  rw [if_neg waits, if_pos ⟨established, none'⟩]
  generalize payload.take sendLimit = bytes
  obtain ⟨same, state, _⟩ := sendSegment_same env
    { conn with
      unackedSeq := conn.seq
      unackedLen := bytes.length
      retransCount := 0
      txPending := if bytes = [] then conn.txPending else bytes } .data bytes
  refine ⟨state, congrArg (· + BitVec.ofNat 32 bytes.length) same.seq, fun empty => ⟨?_, fun some' => absurd none' some', ?_⟩,
    fun some' => ⟨none', established, same.unackedLen, same.unackedSeq, ?_, fun sent member => ?_⟩⟩
  · rw [none']
    exact same.unackedLen.trans (List.length_eq_zero_iff.mpr empty)
  · exact fun sent member => ((sendSegment_sent member).2.2.2).trans empty
  · exact same.txPending.trans (if_neg some')
  · exact ⟨(sendSegment_sent member).1, (sendSegment_sent member).2.2.2⟩

end MectovOS.Net
