/-
This file proves that the handshake keeps its promises in every run of plain
handshakes, and shows a repeated SYN that makes the final acknowledgment fail.
-/

import MectovOS.Net.Handshake
import MectovOS.Net.Sending

namespace MectovOS.Net

open Transition

variable {state : NetState} {env : Env} {table : TcpTable} {conn : TcpConn} {event : NetEvent}
  {segment : Segment} {id : Nat}

/-! ### Slots -/

theorem freeSlot_some (free : table.freeSlot = some id) :
    id < tcpMaxConns ∧ (table.conns id).inUse = false := by
  have holds := @List.find?_some _ (fun id => !(table.conns id).inUse) _ _ free
  rw [Bool.not_eq_true'] at holds
  exact ⟨List.mem_range.mp (List.mem_of_find?_eq_some free), holds⟩

theorem spawns_some {child listener : Nat} (spawns : table.spawns segment = some (child, listener)) :
    segment.flags.syn = true ∧ table.findListener segment.dstPort = some listener ∧
      table.freeSlot = some child := by
  unfold TcpTable.spawns at spawns
  split at spawns
  · exact absurd spawns (by simp)
  rename_i syn
  split at spawns
  · exact absurd spawns (by simp)
  rename_i slot found
  obtain ⟨free, is, same⟩ := Option.map_eq_some_iff.mp spawns
  obtain ⟨rfl, rfl⟩ := Prod.mk.inj same
  exact ⟨Bool.not_eq_false _ ▸ syn, found, is⟩

/-- A connection that waits for the end of its handshake. -/
def waitsHandshake (state : TcpState) : Bool :=
  decide (state = .synSent) || decide (state = .synRcvd)

/-- A call leaves the state of a connection or closes it, and leaves the number of a handshake. -/
theorem call_handshake (env : Env) (conn : TcpConn) {connEvent : ConnEvent}
    (call : ∀ segment, connEvent ≠ .segment segment) :
    ((conn.on env connEvent).1.state = conn.state ∧
      (waitsHandshake conn.state = true → (conn.on env connEvent).1.seq = conn.seq)) ∨
      isClosing (conn.on env connEvent).1.state = true := by
  cases connEvent with
  | send payload =>
    refine Or.inl ⟨(tcpSend_same env conn payload).1, fun waits => ?_⟩
    have notEstablished : conn.state ≠ .established := by
      intro established
      rw [established] at waits
      cases waits
    have same : tcpSend env conn payload = (-1, conn, []) := if_pos notEstablished
    exact congrArg (fun done => done.2.1.seq) same
  | recv maxLen =>
    obtain ⟨same, _, kept⟩ := tcpRecv_same env conn maxLen
    exact Or.inl ⟨kept, fun _ => same.seq⟩
  | close => exact Or.inr (tcpClose_same env conn).2.2.2.2
  | sweep =>
    show ((tcpSweep env conn).1.state = conn.state ∧
        (waitsHandshake conn.state = true → (tcpSweep env conn).1.seq = conn.seq)) ∨
      isClosing (tcpSweep env conn).1.state = true
    unfold tcpSweep
    split
    · split
      · exact Or.inr rfl
      · exact Or.inl ⟨rfl, fun _ => rfl⟩
    split
    · obtain ⟨_, kept, _⟩ := sendSegment_same env
        { conn with retransCount := conn.retransCount + 1, seq := conn.unackedSeq } .data
        conn.txPending
      exact Or.inl ⟨kept, fun _ => rfl⟩
    · exact Or.inl ⟨rfl, fun _ => rfl⟩
  | segment segment => exact absurd rfl (call segment)

/-- The number behind the SYN of a connection that starts. -/
theorem startConn_seq (env : Env) (conn : TcpConn) (targetIp : Ip) (port : Port) :
    (startConn env conn targetIp port).1.seq = initialSeq env conn.localPort + 1 ∧
      (startConn env conn targetIp port).1.state = .synSent := by
  obtain ⟨same, kept, _⟩ := sendSegment_same env (connStarted env conn targetIp port) .synOnly []
  exact ⟨congrArg (· + 1) same.seq, kept⟩

theorem spawnChild_seq (env : Env) (listener : TcpConn) (listenerId : Nat) (segment : Segment) :
    (spawnChild env listener listenerId segment).1.seq =
        env.now * 54321 + segment.dstPort.setWidth 32 + 1 ∧
      (spawnChild env listener listenerId segment).1.state = .synRcvd := by
  obtain ⟨same, kept, _⟩ := sendSegment_same env (connChild env listener listenerId segment)
    .synAck []
  exact ⟨congrArg (· + 1) same.seq, kept⟩

/-! ### Segments in the handshake -/

theorem tcpInput_arrives (env : Env) (conn : TcpConn) (short : segment.length ≤ tcpLenMax)
    (valid : segment.valid = true) (alive : segment.flags.rst = false) :
    tcpInput env conn segment =
      if conn.state = .synSent then synSentInput env conn segment
      else if conn.state = .synRcvd then synRcvdInput env conn segment
      else dataInput env conn segment := by
  unfold tcpInput
  rw [if_neg (Nat.not_lt.mpr short), if_neg (by rw [valid]; decide),
    if_neg (by rw [alive]; decide)]

/-- A segment that does not arrive leaves the connection or resets it. -/
theorem tcpInput_refused (env : Env) (conn : TcpConn)
    (refused : ¬ (segment.length ≤ tcpLenMax ∧ segment.valid = true ∧
      segment.flags.rst = false)) :
    tcpInput env conn segment = (conn, []) ∨
      (segment.valid = true ∧ tcpInput env conn segment = (conn.freed, [])) := by
  unfold tcpInput
  split
  · exact Or.inl rfl
  rename_i short
  split
  · exact Or.inl rfl
  rename_i valid
  rw [Bool.not_eq_false] at valid
  split
  · exact Or.inr ⟨valid, rfl⟩
  · rename_i alive
    rw [Bool.not_eq_true] at alive
    exact absurd ⟨Nat.not_lt.mp short, valid, alive⟩ refused

theorem synSentInput_cases (env : Env) (conn : TcpConn) (segment : Segment) :
    (segment.flags.syn = true ∧ segment.flags.ack = true ∧
      (segment.ack = conn.seq ∨ segment.ack = conn.seq + 1) ∧
      (synSentInput env conn segment).1.state = .established) ∨
    synSentInput env conn segment = (conn, []) := by
  unfold synSentInput
  split
  · rename_i answers
    refine Or.inl ⟨answers.1, answers.2.1, answers.2.2, ?_⟩
    exact (sendSegment_same env _ .ackOnly []).2.1
  · exact Or.inr rfl

theorem synRcvdInput_cases (env : Env) (conn : TcpConn) (segment : Segment) :
    (segment.flags.ack = true ∧ segment.flags.syn = false ∧ segment.ack = conn.seq ∧
      (synRcvdInput env conn segment).1.state = .established) ∨
    (segment.flags.syn = true ∧ (synRcvdInput env conn segment).1.state = conn.state) ∨
    synRcvdInput env conn segment = (conn, []) := by
  unfold synRcvdInput
  split
  · rename_i answers
    exact Or.inl ⟨answers.1, answers.2.1, answers.2.2, rfl⟩
  split
  · rename_i syn
    exact Or.inr (Or.inl ⟨syn, (sendSegment_same env conn .synAck []).2.1⟩)
  · exact Or.inr (Or.inr rfl)

theorem clearUnacked_numbers (conn : TcpConn) (segment : Segment) :
    (clearUnacked conn segment).seq = conn.seq ∧ (clearUnacked conn segment).ack = conn.ack ∧
      (clearUnacked conn segment).state = conn.state := by
  unfold clearUnacked
  split
  · exact ⟨rfl, rfl, rfl⟩
  · exact ⟨rfl, rfl, rfl⟩

/-- Bytes that are not next in order are not stored. -/
theorem appendData_old (env : Env) (old : segment.payload = [] ∨ segment.seq ≠ conn.ack) :
    (appendData env conn segment).1.seq = conn.seq ∧
      (appendData env conn segment).1.ack = conn.ack ∧
      (appendData env conn segment).1.state = conn.state := by
  unfold appendData
  split
  · rename_i stores
    rw [if_neg fun fits => old.elim stores.1 fun late => late fits.1]
    obtain ⟨tick, is⟩ := sendSegment_conn env conn .ackOnly []
    rw [is]
    exact ⟨rfl, rfl, rfl⟩
  · exact ⟨rfl, rfl, rfl⟩

theorem closeInput_established (env : Env) (established : conn.state = .established)
    (noFin : segment.flags.fin = false) : closeInput env conn segment = (conn, []) := by
  have notWait : conn.state ≠ .finWait1 := by
    rw [established]
    decide
  have notLast : conn.state ≠ .lastAck := by
    rw [established]
    decide
  unfold closeInput
  rw [if_neg fun waits => notWait waits.1, if_neg fun waits => notLast waits.1]
  exact if_pos noFin

/-- A SYN that is no FIN and brings nothing new leaves the numbers as they are. -/
theorem dataInput_syn (env : Env) (conn : TcpConn) (established : conn.state = .established)
    (noFin : segment.flags.fin = false) (old : segment.payload = [] ∨ segment.seq ≠ conn.ack) :
    (dataInput env conn segment).1.seq = conn.seq ∧
      (dataInput env conn segment).1.ack = conn.ack := by
  unfold dataInput
  split
  · exact ⟨rfl, rfl⟩
  obtain ⟨cleared, ack, state⟩ := clearUnacked_numbers conn segment
  have stillOld : segment.payload = [] ∨ segment.seq ≠ (clearUnacked conn segment).ack :=
    old.imp id (ack ▸ ·)
  obtain ⟨stored, storedAck, storedState⟩ := appendData_old env stillOld
  have closed := closeInput_established env
    ((storedState.trans state).trans established) noFin
  show (closeInput env _ segment).1.seq = conn.seq ∧ (closeInput env _ segment).1.ack = conn.ack
  rw [closed]
  exact ⟨stored.trans cleared, storedAck.trans ack⟩

/-! ### Slots that start -/

theorem tcpConnect_ready (env : Env) (targetIp : Ip) (port : Port)
    (free : table.freeSlot = some id) (ready : table.netReady = true) :
    (table.on env (.connect targetIp port)).1.conns id =
      (startConn (table.env env) (connReserved table.portCounter) targetIp port).1 := by
  show (tcpConnect env table targetIp port).2.1.conns id = _
  unfold tcpConnect
  rw [free]
  simp only [ready]
  exact setConn_self _ id _

theorem arpReply_due (env : Env) (waits : table.pendingId = some id)
    (due : table.pendingPort ≠ 0) (bound : id < tcpMaxConns) :
    (table.on env .arpReply).1.conns id =
      (startConn { env with netReady := true } (table.conns id) table.pendingIp
        table.pendingPort).1 := by
  show (arpReply env table).1.conns id = _
  unfold arpReply
  simp only [waits]
  rw [if_neg (not_or.mpr ⟨due, Nat.not_le.mpr bound⟩)]
  exact setConn_self { table with netReady := true } id _

theorem handleTcp_spawns (env : Env) {listener : Nat} (unknown : table.findConn segment = none)
    (spawns : table.spawns segment = some (id, listener)) :
    (table.on env (.segment segment)).1.conns id =
      (spawnChild (table.env env) (table.conns listener) listener segment).1 := by
  show (handleTcp env table segment).1.conns id = _
  unfold handleTcp
  rw [unknown]
  simp only [spawns]
  exact setConn_self _ id _

/-- A slot whose connection starts is behind its SYN. -/
theorem on_started {isn : Seq} (starts : startedIsn env table id event = some isn) :
    ((table.on env event).1.conns id).seq = isn + 1 ∧
      (((table.on env event).1.conns id).state = .synSent ∨
        ((table.on env event).1.conns id).state = .synRcvd) := by
  cases event with
  | connect targetIp port =>
    obtain ⟨⟨ready, free⟩, same⟩ := Option.ite_none_right_eq_some.mp starts
    obtain rfl := Option.some.inj same
    obtain ⟨seq, sent⟩ := startConn_seq (table.env env) (connReserved table.portCounter) targetIp
      port
    rw [tcpConnect_ready env targetIp port free ready]
    exact ⟨seq, Or.inl sent⟩
  | arpReply =>
    obtain ⟨⟨waits, due, bound⟩, same⟩ := Option.ite_none_right_eq_some.mp starts
    obtain rfl := Option.some.inj same
    obtain ⟨seq, sent⟩ := startConn_seq { env with netReady := true } (table.conns id)
      table.pendingIp table.pendingPort
    rw [arpReply_due env waits due bound]
    exact ⟨seq, Or.inl sent⟩
  | segment segment =>
    obtain ⟨⟨unknown, spawns⟩, same⟩ := Option.ite_none_right_eq_some.mp starts
    obtain rfl := Option.some.inj same
    obtain ⟨⟨child, listener⟩, spawned, rfl⟩ := Option.map_eq_some_iff.mp spawns
    obtain ⟨seq, rcvd⟩ := spawnChild_seq (table.env env) (table.conns listener) listener segment
    rw [handleTcp_spawns env unknown spawned]
    exact ⟨seq, Or.inr rcvd⟩
  | listen port => cases starts
  | accept listenerId => cases starts
  | send slot payload => cases starts
  | recv slot maxLen => cases starts
  | close slot => cases starts
  | sweep => cases starts

/-! ### Connections that are established -/

/-- A connection in its handshake has the number behind its SYN. -/
def Handshaking (state : NetState) : Prop :=
  ∀ id, (state.table.conns id).inUse = true →
    waitsHandshake (state.table.conns id).state = true →
    (state.table.conns id).seq = state.isn id + 1

theorem matches_inUse (found : table.findConn segment = some id) :
    (table.conns id).inUse = true := by
  have holds := @List.find?_some _ (fun id => (table.conns id).matches segment) _ _ found
  unfold TcpConn.matches at holds
  rw [Bool.and_assoc, Bool.and_assoc, Bool.and_eq_true] at holds
  exact holds.1

/-- A connection that waits behind a segment has waited before it, unless it repeats its SYN. -/
theorem tcpInput_waits (env : Env) (conn : TcpConn) (segment : Segment)
    (plain : segment.length ≤ tcpLenMax → segment.valid = true → segment.flags.rst = false →
      segment.flags.syn = true → conn.state ≠ .synRcvd)
    (waits : waitsHandshake (tcpInput env conn segment).1.state = true) :
    conn.state = (tcpInput env conn segment).1.state ∧
      (tcpInput env conn segment).1.seq = conn.seq := by
  by_cases arrives : segment.length ≤ tcpLenMax ∧ segment.valid = true ∧
      segment.flags.rst = false
  · obtain ⟨short, valid, alive⟩ := arrives
    rcases eq_or_ne conn.state .synSent with sent | notSent
    · have is := (tcpInput_arrives env conn short valid alive).trans (if_pos sent)
      rw [is] at waits ⊢
      rcases synSentInput_cases env conn segment with ⟨_, _, _, established⟩ | same
      · rw [established] at waits
        cases waits
      · rw [same]
        exact ⟨rfl, rfl⟩
    rcases eq_or_ne conn.state .synRcvd with rcvd | notRcvd
    · have is := (tcpInput_arrives env conn short valid alive).trans
        ((if_neg notSent).trans (if_pos rcvd))
      rw [is] at waits ⊢
      rcases synRcvdInput_cases env conn segment with ⟨_, _, _, established⟩ | ⟨syn, _⟩ | same
      · rw [established] at waits
        cases waits
      · exact absurd rcvd (plain short valid alive syn)
      · rw [same]
        exact ⟨rfl, rfl⟩
    · rcases (tcpInput_same env ⟨notSent, notRcvd⟩ segment).2.1 with same | closing
      · rw [same] at waits
        rcases Bool.or_eq_true _ _ |>.mp waits with is | is
        · exact absurd (of_decide_eq_true is) notSent
        · exact absurd (of_decide_eq_true is) notRcvd
      · exact absurd waits (by revert closing; cases (tcpInput env conn segment).1.state <;> decide)
  · rcases tcpInput_refused env conn arrives with same | ⟨_, freed⟩
    · rw [same]
      exact ⟨rfl, rfl⟩
    · rw [freed] at waits
      cases waits

theorem isClosing_waits {state : TcpState} (closing : isClosing state = true) :
    waitsHandshake state = false ∧ state ≠ .established := by
  revert closing
  cases state <;> decide

/-- A slot that waits behind an event that starts nothing has waited before it. -/
theorem on_waits (plain : PlainHandshake state (env, event))
    (nothing : startedIsn env state.table id event = none)
    (used : ((state.table.on env event).1.conns id).inUse = true)
    (waits : waitsHandshake ((state.table.on env event).1.conns id).state = true) :
    (state.table.conns id).inUse = true ∧
      (state.table.conns id).state = ((state.table.on env event).1.conns id).state ∧
      ((state.table.on env event).1.conns id).seq = (state.table.conns id).seq := by
  have change := on_change env state.table event id
  generalize (state.table.on env event).1.conns id = conn at *
  cases change with
  | same => exact ⟨used, rfl, rfl⟩
  | call before closes call =>
    rcases call_handshake (state.table.env env) (state.table.conns id) call with ⟨same, seq⟩ | closing
    · exact ⟨before, same.symm, seq (same ▸ waits)⟩
    · exact absurd waits (Bool.eq_false_iff.mp (isClosing_waits closing).1)
  | input found =>
    rename_i segment
    obtain ⟨same, seq⟩ := tcpInput_waits (state.table.env env) (state.table.conns id) segment
      (fun short valid alive syn => ((plain segment rfl).2 id ⟨found, short, valid, alive⟩ syn).1)
      waits
    exact ⟨matches_inUse found, same, seq⟩
  | accept pending => exact ⟨used, rfl, rfl⟩
  | reserve free waits' => cases waits
  | connect free ready =>
    exact absurd nothing (by rw [startedIsn, if_pos ⟨ready, free⟩]; exact Option.some_ne_none _)
  | listen free => cases waits
  | spawn unknown spawns =>
    refine absurd nothing ?_
    rw [startedIsn, if_pos ⟨unknown, congrArg (Option.map Prod.fst) spawns⟩]
    exact Option.some_ne_none _
  | dispatch pending due bound =>
    refine absurd nothing ?_
    rw [startedIsn, if_pos ⟨pending, due, bound⟩]
    exact Option.some_ne_none _

/-- The number of a slot whose handshake goes on. -/
theorem Handshaking.step (handshaking : Handshaking state) (plain : PlainHandshake state (env, event)) :
    Handshaking (state.after env event) := by
  intro id used waits
  show ((state.table.on env event).1.conns id).seq =
    (startedIsn env state.table id event).getD (state.isn id) + 1
  cases starts : startedIsn env state.table id event with
  | some isn => exact (on_started starts).1
  | none =>
    obtain ⟨before, same, seq⟩ := on_waits plain starts used waits
    exact seq.trans (handshaking id before (same ▸ waits))

/-- Only a segment establishes a connection that waits. -/
theorem on_established (env : Env) (table : TcpTable) (event : NetEvent) (id : Nat)
    (waits : waitsHandshake (table.conns id).state = true)
    (established : ((table.on env event).1.conns id).state = .established) :
    ∃ segment, event = .segment segment ∧ Arrives table segment id ∧
      (table.on env event).1.conns id = (tcpInput (table.env env) (table.conns id) segment).1 := by
  have still : (table.conns id).state ≠ .established := by
    intro is
    rw [is] at waits
    cases waits
  have change := on_change env table event id
  generalize (table.on env event).1.conns id = conn at *
  cases change with
  | same => exact absurd established still
  | call before closes call =>
    rcases call_handshake (table.env env) (table.conns id) call with ⟨same, _⟩ | closing
    · exact absurd (same.symm.trans established) still
    · exact absurd established (isClosing_waits closing).2
  | input found =>
    rename_i segment
    by_cases arrives : segment.length ≤ tcpLenMax ∧ segment.valid = true ∧
        segment.flags.rst = false
    · exact ⟨segment, rfl, ⟨found, arrives.1, arrives.2.1, arrives.2.2⟩, rfl⟩
    · rcases tcpInput_refused (table.env env) (table.conns id) arrives with same | ⟨_, freed⟩
      · rw [same] at established
        exact absurd established still
      · rw [freed] at established
        cases established
  | accept pending => exact absurd established still
  | reserve free waits' => cases established
  | connect free ready =>
    exact absurd ((startConn_seq _ _ _ _).2.symm.trans established) (by decide)
  | listen free => cases established
  | spawn unknown spawns =>
    exact absurd ((spawnChild_seq _ _ _ _).2.symm.trans established) (by decide)
  | dispatch pending due bound =>
    exact absurd ((startConn_seq _ _ _ _).2.symm.trans established) (by decide)

/-! ### What an event keeps -/

theorem handleTcp_found (env : Env) (found : table.findConn segment = some id) :
    handleTcp env table segment =
      (table.setConn id (tcpInput (table.env env) (table.conns id) segment).1,
        (tcpInput (table.env env) (table.conns id) segment).2) := by
  unfold handleTcp
  rw [found]

theorem tcpInput_invalid (env : Env) (conn : TcpConn) (invalid : segment.valid = false) :
    (tcpInput env conn segment).1 = conn := by
  unfold tcpInput
  split
  · rfl
  · rfl

/-- A segment with a bad checksum changes nothing unless it spawns a child. -/
theorem handleTcp_invalid (env : Env) (table : TcpTable) (invalid : segment.valid = false)
    (spawnless : table.findConn segment = none → table.spawns segment = none) :
    (handleTcp env table segment).1.conns = table.conns := by
  cases found : table.findConn segment with
  | some id =>
    rw [handleTcp_found env found, tcpInput_invalid _ _ invalid]
    exact Function.update_eq_self id table.conns
  | none =>
    unfold handleTcp
    rw [found]
    simp only [spawnless found]

/-- A segment that has a connection starts none. -/
theorem startedIsn_found {slot : Nat} (env : Env) (found : table.findConn segment = some id) :
    startedIsn env table slot (.segment segment) = none := by
  refine if_neg fun starts => ?_
  rw [found] at starts
  exact Option.some_ne_none _ starts.1

/-- The segment that establishes a connection that waits, with the number it acknowledges. -/
theorem Handshaking.established (handshaking : Handshaking state) (env : Env) (event : NetEvent)
    (used : (state.table.conns id).inUse = true)
    (waits : waitsHandshake (state.table.conns id).state = true)
    (established : ((state.after env event).table.conns id).state = .established) :
    ∃ segment, event = .segment segment ∧ Arrives state.table segment id ∧
      ((state.after env event).table.conns id) =
        (tcpInput (state.table.env env) (state.table.conns id) segment).1 ∧
      (state.table.conns id).seq = (state.after env event).isn id + 1 := by
  obtain ⟨segment, rfl, arrives, is⟩ := on_established env state.table event id waits established
  refine ⟨segment, rfl, arrives, is, ?_⟩
  show _ = (startedIsn env state.table id (.segment segment)).getD (state.isn id) + 1
  rw [startedIsn_found env arrives.found]
  exact handshaking id used waits

/-- Each event of a plain handshake keeps the promises. -/
theorem Handshaking.kept (handshaking : Handshaking state)
    (plain : PlainHandshake state (env, event)) : HandshakeKept (state.after env event) := by
  refine ⟨fun id used sent established => ?_, fun id used rcvd established => ?_,
    fun segment id is arrives rcvd ack noSyn covers => ?_,
    fun segment id is arrives rcvd syn _ => ?_,
    fun segment id is arrives established syn noFin old => ?_, fun segment is invalid => ?_⟩
  · change (state.table.conns id).state = .synSent at sent
    obtain ⟨segment, rfl, arrives, is, seq⟩ := handshaking.established env event used
      (by rw [sent]; rfl) established
    refine ⟨segment, rfl, arrives.valid, ?_⟩
    rw [is, tcpInput_arrives _ _ arrives.short arrives.valid arrives.alive, if_pos sent]
      at established
    rcases synSentInput_cases (state.table.env env) (state.table.conns id) segment with
      ⟨syn, ack, covers, _⟩ | same
    · refine ⟨syn, ack, ?_⟩
      rcases covers with covers | past
      · exact covers.trans seq
      · exact absurd past (((plain segment rfl).2 id arrives syn).2 sent ack)
    · rw [same] at established
      exact absurd (sent.symm.trans established) (by decide)
  · change (state.table.conns id).state = .synRcvd at rcvd
    obtain ⟨segment, rfl, arrives, is, seq⟩ := handshaking.established env event used
      (by rw [rcvd]; rfl) established
    refine ⟨segment, rfl, arrives.valid, ?_⟩
    rw [is, tcpInput_arrives _ _ arrives.short arrives.valid arrives.alive,
      if_neg (by rw [rcvd]; decide), if_pos rcvd] at established
    rcases synRcvdInput_cases (state.table.env env) (state.table.conns id) segment with
      ⟨ack, _, covers, _⟩ | ⟨_, same⟩ | same
    · exact ⟨ack, covers.trans seq⟩
    · exact absurd (rcvd.symm.trans (same.symm.trans established)) (by decide)
    · rw [same] at established
      exact absurd (rcvd.symm.trans established) (by decide)
  · obtain rfl := Option.some.inj is
    change Arrives state.table segment id at arrives
    change (state.table.conns id).state = .synRcvd at rcvd
    have seq : (state.table.conns id).seq = state.isn id + 1 :=
      handshaking id (matches_inUse arrives.found) (by rw [rcvd]; rfl)
    have covers : segment.ack =
      (startedIsn env state.table id (.segment segment)).getD (state.isn id) + 1 := covers
    rw [startedIsn_found env arrives.found] at covers
    show ((handleTcp env state.table segment).1.conns id).state = .established
    rw [handleTcp_found env arrives.found, setConn_self,
      tcpInput_arrives _ _ arrives.short arrives.valid arrives.alive,
      if_neg (by rw [rcvd]; decide), if_pos rcvd]
    unfold synRcvdInput
    rw [if_pos ⟨ack, noSyn, covers.trans seq.symm⟩]
  · obtain rfl := Option.some.inj is
    exact absurd rcvd ((plain segment rfl).2 id arrives syn).1
  · obtain rfl := Option.some.inj is
    change Arrives state.table segment id at arrives
    change (state.table.conns id).state = .established at established
    show ((handleTcp env state.table segment).1.conns id).seq = (state.table.conns id).seq ∧
      ((handleTcp env state.table segment).1.conns id).ack = (state.table.conns id).ack
    rw [handleTcp_found env arrives.found, setConn_self,
      tcpInput_arrives _ _ arrives.short arrives.valid arrives.alive,
      if_neg (by rw [established]; decide), if_neg (by rw [established]; decide)]
    exact dataInput_syn _ _ established noFin old
  · obtain rfl := Option.some.inj is
    exact handleTcp_invalid env state.table invalid ((plain segment rfl).1 invalid)

/-- In every run of plain handshakes the table keeps its promises. -/
theorem handshake_kept (reachable : netSystem.Reachable PlainHandshake state) :
    HandshakeKept state := by
  refine And.right (reachable.invariant (fun state => Handshaking state ∧ HandshakeKept state) ?_ ?_)
  · rintro state ⟨unused, same, event, sent⟩
    have none' : ∀ {segment}, state.event ≠ some (.segment segment) := by
      intro segment is
      rw [event] at is
      exact Option.some_ne_none _ is.symm
    refine ⟨fun id used => ?_, fun id used => ?_, fun id used => ?_, fun _ _ is => absurd is none',
      fun _ _ is => absurd is none', fun _ _ is => absurd is none', fun _ is => absurd is none'⟩
    · exact absurd used (Bool.eq_false_iff.mp (unused id))
    · exact absurd used (Bool.eq_false_iff.mp (same ▸ unused id))
    · exact absurd used (Bool.eq_false_iff.mp (same ▸ unused id))
  · rintro state ⟨env, event⟩ next ⟨handshaking, _⟩ plain rfl
    exact ⟨handshaking.step plain, handshaking.kept plain⟩

/-! ### Two runs -/

/-- The gateway is resolved and every slot is free. -/
def readyTable : TcpTable := { TcpTable.boot with netReady := true }

def readyState : NetState := ⟨readyTable, none, readyTable, [], fun _ => 0⟩

theorem readyState_initial : readyState.Initial := ⟨fun _ => rfl, rfl, rfl, rfl⟩

def stillEnv : Env := ⟨true, 0, 7, 0⟩

/-- The segments of a peer that connects to port 80: its SYN, and the acknowledgment of the
number 80, with which the child of tick 0 answers. -/
def peerSyn : Segment := ⟨9, 5000, 80, 300, 0, .synOnly, 5, [], true⟩
def peerAck : Segment := ⟨9, 5000, 80, 301, 81, .ackOnly, 5, [], true⟩

/-- The table listens on port 80, and the peer sends its SYN. -/
def listens : NetState := readyState.after stillEnv (.listen 80)
def answered : NetState := listens.after stillEnv (.segment peerSyn)

/-- The final acknowledgment after one SYN, and after a repeated one. -/
def completed : NetState := answered.after stillEnv (.segment peerAck)
def repeated : NetState := answered.after stillEnv (.segment peerSyn)
def stuck : NetState := repeated.after stillEnv (.segment peerAck)

theorem listens_unknown : listens.table.findConn peerSyn = none := by decide +kernel

/-- A peer connects with one SYN and one acknowledgment. -/
theorem handshake_kept_completed : (completed.table.conns 1).state = .established ∧
    HandshakeKept completed := by
  have initial : netSystem.Reachable PlainHandshake readyState := .init readyState_initial
  have listening : netSystem.Reachable PlainHandshake listens := initial.step
    (show PlainHandshake readyState (stillEnv, .listen 80) from fun _ is => by cases is) rfl
  have answering : netSystem.Reachable PlainHandshake answered := listening.step
    (show PlainHandshake listens (stillEnv, .segment peerSyn) from fun segment is => by
      obtain rfl := NetEvent.segment.inj is
      refine ⟨(fun invalid => by cases invalid), fun id arrives => ?_⟩
      exact absurd (listens_unknown.symm.trans arrives.found) (Option.some_ne_none id).symm) rfl
  have complete : netSystem.Reachable PlainHandshake completed := answering.step
    (show PlainHandshake answered (stillEnv, .segment peerAck) from fun segment is => by
      obtain rfl := NetEvent.segment.inj is
      exact ⟨(fun invalid => by cases invalid), fun id _ syn => by cases syn⟩) rfl
  exact ⟨by decide +kernel, handshake_kept complete⟩

theorem repeated_arrives : Arrives repeated.table peerAck 1 :=
  ⟨by decide +kernel, by decide +kernel, rfl, rfl⟩

theorem repeated_waits : (repeated.table.conns 1).state = .synRcvd := by decide +kernel

theorem stuck_numbers : peerAck.ack = stuck.isn 1 + 1 ∧
    (stuck.table.conns 1).state ≠ .established := by decide +kernel

/-- A SYN that comes twice takes the number of the peer for the own one, and the final
acknowledgment no longer completes the handshake. -/
theorem repeatedSyn_sticks : ¬ ∀ state, netSystem.Reachable anyStep state → HandshakeKept state := by
  intro kept
  have initial : netSystem.Reachable anyStep readyState := .init readyState_initial
  have listening : netSystem.Reachable anyStep listens := initial.step
    (show anyStep readyState (stillEnv, .listen 80) from trivial) rfl
  have answering : netSystem.Reachable anyStep answered := listening.step
    (show anyStep listens (stillEnv, .segment peerSyn) from trivial) rfl
  have repeating : netSystem.Reachable anyStep repeated := answering.step
    (show anyStep answered (stillEnv, .segment peerSyn) from trivial) rfl
  have sticking : netSystem.Reachable anyStep stuck := repeating.step
    (show anyStep repeated (stillEnv, .segment peerAck) from trivial) rfl
  exact stuck_numbers.2 ((kept stuck sticking).completes peerAck 1 rfl repeated_arrives
    repeated_waits rfl rfl stuck_numbers.1)

end MectovOS.Net
