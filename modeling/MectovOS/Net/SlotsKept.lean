/-
This file proves that the table of connections keeps its promises about its
slots in every run that closes no slot to which something still refers, and
shows a connect that starts on a slot that was closed and taken again.
-/

import MectovOS.Net.HandshakeKept
import MectovOS.Net.Slots

namespace MectovOS.Net

open Transition

variable {state : SlotState} {env : Env} {table : TcpTable} {conn next : TcpConn}
  {event : NetEvent} {segment : Segment} {id : Nat}

/-! ### What the owner of a slot keeps -/

/-- A slot with the same owner; it may be given back. -/
structure SameOwner (conn next : TcpConn) : Prop where
  addresses : next.addresses = conn.addresses
  listenParent : next.listenParent = conn.listenParent
  accepted : conn.accepted = true → next.accepted = true
  used : next.inUse = true → conn.inUse = true
  listens : next.inUse = true → (next.state = .listen ↔ conn.state = .listen)

theorem SameOwner.refl (conn : TcpConn) : SameOwner conn conn := ⟨rfl, rfl, id, id, fun _ => .rfl⟩

theorem SameOwner.trans {middle : TcpConn} (first : SameOwner conn middle)
    (second : SameOwner middle next) : SameOwner conn next where
  addresses := second.addresses.trans first.addresses
  listenParent := second.listenParent.trans first.listenParent
  accepted := fun accepted => second.accepted (first.accepted accepted)
  used := fun used => first.used (second.used used)
  listens := fun used => (second.listens used).trans (first.listens (second.used used))

theorem sameOwner_freed (conn : TcpConn) : SameOwner conn conn.freed :=
  ⟨rfl, rfl, id, (fun used => by cases used), fun used => by cases used⟩

theorem sendSegment_owner (env : Env) (conn : TcpConn) (flags : Flags) (payload : Bytes) :
    SameOwner conn (sendSegment env conn flags payload).1 := by
  obtain ⟨tick, is⟩ := sendSegment_conn env conn flags payload
  rw [is]
  exact ⟨rfl, rfl, id, id, fun _ => .rfl⟩

/-- A segment that is sent by a connection with the same owner. -/
theorem SameOwner.sent (same : SameOwner conn next) (env : Env) (flags : Flags) (payload : Bytes) :
    SameOwner conn (sendSegment env next flags payload).1 :=
  same.trans (sendSegment_owner env next flags payload)

theorem tcpSend_owner (env : Env) (conn : TcpConn) (payload : Bytes) :
    SameOwner conn (tcpSend env conn payload).2.1 := by
  unfold tcpSend
  split
  · exact .refl conn
  split
  · exact .refl conn
  · have recorded : SameOwner conn { conn with
        unackedSeq := conn.seq
        unackedLen := (payload.take sendLimit).length
        retransCount := 0
        txPending := if payload.take sendLimit = [] then conn.txPending
          else payload.take sendLimit } := ⟨rfl, rfl, id, id, fun _ => .rfl⟩
    have sent := recorded.sent env .data (payload.take sendLimit)
    exact ⟨sent.addresses, sent.listenParent, sent.accepted, sent.used, sent.listens⟩

theorem tcpRecv_owner (env : Env) (conn : TcpConn) (maxLen : Nat) :
    SameOwner conn (tcpRecv env conn maxLen).2.1 := by
  have drained : SameOwner conn { conn with rx := conn.rx.drop maxLen } :=
    ⟨rfl, rfl, id, id, fun _ => .rfl⟩
  unfold tcpRecv
  split
  · exact .refl conn
  split
  · exact .refl conn
  simp only
  split
  · exact drained.sent env .ackOnly []
  · exact drained

theorem tcpClose_owner (env : Env) (conn : TcpConn) : SameOwner conn (tcpClose env conn).1 := by
  have sent := sendSegment_owner env conn .finAck []
  unfold tcpClose
  split
  · rename_i established
    exact ⟨sent.addresses, sent.listenParent, sent.accepted, sent.used, fun _ =>
      iff_of_false TcpState.noConfusion (by rw [established]; decide)⟩
  split
  · rename_i waits
    exact ⟨sent.addresses, sent.listenParent, sent.accepted, sent.used, fun _ =>
      iff_of_false TcpState.noConfusion (by rw [waits]; decide)⟩
  · exact sameOwner_freed conn

theorem tcpSweep_owner (env : Env) (conn : TcpConn) : SameOwner conn (tcpSweep env conn).1 := by
  unfold tcpSweep
  split
  · split
    · exact sameOwner_freed conn
    · exact .refl conn
  split
  · have again : SameOwner conn
        { conn with retransCount := conn.retransCount + 1, seq := conn.unackedSeq } :=
      ⟨rfl, rfl, id, id, fun _ => .rfl⟩
    have sent := again.sent env .data conn.txPending
    exact ⟨sent.addresses, sent.listenParent, sent.accepted, sent.used, sent.listens⟩
  · exact .refl conn

theorem synSentInput_owner (env : Env) (conn : TcpConn) (segment : Segment)
    (sent : conn.state = .synSent) : SameOwner conn (synSentInput env conn segment).1 := by
  unfold synSentInput
  split
  · refine SameOwner.sent ?_ env .ackOnly []
    exact ⟨rfl, rfl, id, id, fun _ =>
      iff_of_false TcpState.noConfusion (by rw [sent]; decide)⟩
  · exact .refl conn

theorem synRcvdInput_owner (env : Env) (conn : TcpConn) (segment : Segment)
    (rcvd : conn.state = .synRcvd) : SameOwner conn (synRcvdInput env conn segment).1 := by
  unfold synRcvdInput
  split
  · exact ⟨rfl, rfl, id, id, fun _ =>
      iff_of_false TcpState.noConfusion (by rw [rcvd]; decide)⟩
  split
  · have sent := sendSegment_owner env conn .synAck []
    exact ⟨sent.addresses, sent.listenParent, sent.accepted, sent.used, sent.listens⟩
  · exact .refl conn

theorem clearUnacked_owner (conn : TcpConn) (segment : Segment) :
    SameOwner conn (clearUnacked conn segment) := by
  unfold clearUnacked
  split
  · exact ⟨rfl, rfl, id, id, fun _ => .rfl⟩
  · exact .refl conn

theorem appendData_owner (env : Env) (conn : TcpConn) (segment : Segment) :
    SameOwner conn (appendData env conn segment).1 := by
  unfold appendData
  split
  · split
    · refine SameOwner.sent ?_ env .ackOnly []
      exact ⟨rfl, rfl, id, id, fun _ => .rfl⟩
    · exact sendSegment_owner env conn .ackOnly []
  · exact .refl conn

theorem peerFin_owner (env : Env) (conn : TcpConn) (segment : Segment) :
    SameOwner conn (peerFin env conn segment).1 := by
  unfold peerFin
  split
  · exact .refl conn
  split
  · rename_i opened
    have notListen : conn.state ≠ .listen := by
      rcases opened with is | is <;> rw [is] <;> decide
    refine SameOwner.sent ?_ env .ackOnly []
    exact ⟨rfl, rfl, id, id, fun _ => iff_of_false TcpState.noConfusion notListen⟩
  split
  · refine SameOwner.trans (SameOwner.sent ?_ env .ackOnly []) (sameOwner_freed _)
    exact ⟨rfl, rfl, id, id, fun _ => .rfl⟩
  · exact .refl conn

theorem closeInput_owner (env : Env) (conn : TcpConn) (segment : Segment) :
    SameOwner conn (closeInput env conn segment).1 := by
  unfold closeInput
  split
  · rename_i waits
    split
    · exact sameOwner_freed conn
    · refine SameOwner.trans ?_ (peerFin_owner env _ segment)
      exact ⟨rfl, rfl, id, id, fun _ =>
        iff_of_false TcpState.noConfusion (by rw [waits.1]; decide)⟩
  split
  · exact sameOwner_freed conn
  · exact peerFin_owner env conn segment

theorem tcpInput_owner (env : Env) (conn : TcpConn) (segment : Segment) :
    SameOwner conn (tcpInput env conn segment).1 := by
  unfold tcpInput
  split
  · exact .refl conn
  split
  · exact .refl conn
  split
  · exact sameOwner_freed conn
  split
  · rename_i sent
    exact synSentInput_owner env conn segment sent
  split
  · rename_i rcvd
    exact synRcvdInput_owner env conn segment rcvd
  unfold dataInput
  split
  · exact .refl conn
  · exact ((clearUnacked_owner conn segment).trans (appendData_owner env _ segment)).trans
      (closeInput_owner env _ segment)

/-- Every event of a connection leaves its owner. -/
theorem on_owner (env : Env) (conn : TcpConn) (connEvent : ConnEvent) :
    SameOwner conn (conn.on env connEvent).1 := by
  cases connEvent with
  | send payload => exact tcpSend_owner env conn payload
  | recv maxLen => exact tcpRecv_owner env conn maxLen
  | close => exact tcpClose_owner env conn
  | sweep => exact tcpSweep_owner env conn
  | segment segment => exact tcpInput_owner env conn segment

/-! ### Slots that wait or listen -/

/-- A slot that is reserved or listens: it has no connection yet. -/
def isPassive (state : TcpState) : Bool := decide (state = .listen) || decide (state = .closed)

theorem isPassive_not {passive : TcpState} (waits : isPassive passive = true) :
    passive ≠ .synSent ∧ passive ≠ .synRcvd ∧ passive ≠ .established ∧ passive ≠ .closeWait ∧
      passive ≠ .finWait1 ∧ passive ≠ .finWait2 ∧ passive ≠ .lastAck := by
  revert waits
  cases passive <;> decide

theorem clearUnacked_inUse (conn : TcpConn) (segment : Segment) :
    (clearUnacked conn segment).inUse = conn.inUse := by
  unfold clearUnacked
  split
  · rfl
  · rfl

/-- A passive slot takes in nothing. -/
theorem dataInput_passive (env : Env) (passive : isPassive conn.state = true)
    (segment : Segment) :
    (dataInput env conn segment).1.state = conn.state ∧
      (dataInput env conn segment).1.inUse = conn.inUse := by
  obtain ⟨_, _, notEstablished, notCloseWait, notFinWait1, notFinWait2, notLastAck⟩ :=
    isPassive_not passive
  have state := (clearUnacked_state conn segment).1
  unfold dataInput
  split
  · exact ⟨rfl, rfl⟩
  have stored : appendData env (clearUnacked conn segment) segment =
      (clearUnacked conn segment, []) := by
    refine if_neg fun stores => ?_
    rw [state] at stores
    exact stores.2.elim notEstablished notCloseWait
  have closed : closeInput env (clearUnacked conn segment) segment =
      (clearUnacked conn segment, []) := by
    unfold closeInput peerFin
    rw [state, if_neg fun waits => notFinWait1 waits.1, if_neg fun waits => notLastAck waits.1,
      if_neg (not_or.mpr ⟨notEstablished, notCloseWait⟩), if_neg notFinWait2, ite_self]
  rw [stored]
  simp only
  rw [closed]
  exact ⟨state, clearUnacked_inUse conn segment⟩

/-- Only a close or a reset changes a passive slot. -/
theorem on_passive (env : Env) (passive : isPassive conn.state = true) {connEvent : ConnEvent}
    (notClose : connEvent ≠ .close)
    (notReset : ∀ segment, connEvent = .segment segment →
      ¬ (segment.length ≤ tcpLenMax ∧ segment.valid = true ∧ segment.flags.rst = true)) :
    (conn.on env connEvent).1.state = conn.state ∧
      (conn.on env connEvent).1.inUse = conn.inUse := by
  obtain ⟨notSent, notRcvd, notEstablished, _⟩ := isPassive_not passive
  cases connEvent with
  | send payload =>
    have same : tcpSend env conn payload = (-1, conn, []) := if_pos notEstablished
    exact ⟨congrArg (fun done => done.2.1.state) same, congrArg (fun done => done.2.1.inUse) same⟩
  | recv maxLen =>
    show (tcpRecv env conn maxLen).2.1.state = conn.state ∧
      (tcpRecv env conn maxLen).2.1.inUse = conn.inUse
    unfold tcpRecv
    split
    · exact ⟨rfl, rfl⟩
    split
    · exact ⟨rfl, rfl⟩
    simp only
    split
    · exact (sendSegment_same env { conn with rx := conn.rx.drop maxLen } .ackOnly []).2
    · exact ⟨rfl, rfl⟩
  | close => exact absurd rfl notClose
  | sweep =>
    show (tcpSweep env conn).1.state = conn.state ∧ (tcpSweep env conn).1.inUse = conn.inUse
    unfold tcpSweep
    rw [if_neg notSent]
    split
    · exact (sendSegment_same env
        { conn with retransCount := conn.retransCount + 1, seq := conn.unackedSeq } .data
        conn.txPending).2
    · exact ⟨rfl, rfl⟩
  | segment segment =>
    show (tcpInput env conn segment).1.state = conn.state ∧
      (tcpInput env conn segment).1.inUse = conn.inUse
    unfold tcpInput
    split
    · exact ⟨rfl, rfl⟩
    rename_i short
    split
    · exact ⟨rfl, rfl⟩
    rename_i valid
    rw [Bool.not_eq_false] at valid
    split
    · rename_i reset
      exact absurd ⟨Nat.not_lt.mp short, valid, reset⟩ (notReset segment rfl)
    exact dataInput_passive env passive segment

/-! ### Slots that an event takes -/

/-- A slot that gets a new connection: an event takes it, or the connect that waits starts. -/
def IsNew (table : TcpTable) (event : NetEvent) (id : Nat) : Prop :=
  takesSlot table id event = true ∨ event = .arpReply ∧ table.waitsOn id

theorem takesSlot_segment : takesSlot table id (.segment segment) = true ↔
    table.findConn segment = none ∧ (table.spawns segment).map Prod.fst = some id := by
  unfold takesSlot
  rw [Bool.and_eq_true, decide_eq_true_eq, decide_eq_true_eq]

theorem takesSlot_free (takes : takesSlot table id event = true) : table.freeSlot = some id := by
  cases event with
  | connect targetIp port => exact of_decide_eq_true takes
  | listen port => exact of_decide_eq_true takes
  | segment segment =>
    obtain ⟨⟨child, listener⟩, spawned, rfl⟩ :=
      Option.map_eq_some_iff.mp (takesSlot_segment.mp takes).2
    exact (spawns_some spawned).2.2
  | accept listenerId => cases takes
  | send slot payload => cases takes
  | recv slot maxLen => cases takes
  | close slot => cases takes
  | arpReply => cases takes
  | sweep => cases takes

theorem takesSlot_used (event : NetEvent) (used : (table.conns id).inUse = true) :
    takesSlot table id event = false := by
  rw [← Bool.not_eq_true]
  intro takes
  have free := (freeSlot_some (takesSlot_free takes)).2
  rw [used] at free
  cases free

theorem IsNew.unique {other : Nat} (new : IsNew table event id) (new' : IsNew table event other) :
    id = other := by
  rcases new with takes | ⟨is, waits⟩
  · rcases new' with takes' | ⟨is', _⟩
    · exact Option.some.inj ((takesSlot_free takes).symm.trans (takesSlot_free takes'))
    · rw [is'] at takes
      cases takes
  · rcases new' with takes' | ⟨_, waits'⟩
    · rw [is] at takes'
      cases takes'
    · exact Option.some.inj (waits.1.symm.trans waits'.1)

theorem startConn_owner (env : Env) (conn : TcpConn) (targetIp : Ip) (port : Port) :
    (startConn env conn targetIp port).1.addresses =
        startedAddresses env conn.localPort targetIp port ∧
      (startConn env conn targetIp port).1.listenParent = conn.listenParent ∧
      (startConn env conn targetIp port).1.accepted = conn.accepted ∧
      (startConn env conn targetIp port).1.inUse = conn.inUse := by
  obtain ⟨tick, is⟩ := sendSegment_conn env (connStarted env conn targetIp port) .synOnly []
  have started : (startConn env conn targetIp port).1 = { connStarted env conn targetIp port with
      lastTxTick := tick
      seq := initialSeq env conn.localPort + 1 } :=
    congrArg (fun sent : TcpConn => { sent with seq := sent.seq + 1 }) is
  rw [started]
  exact ⟨rfl, rfl, rfl, rfl⟩

theorem spawnChild_owner (env : Env) (listener : TcpConn) (listenerId : Nat) (segment : Segment) :
    (spawnChild env listener listenerId segment).1.addresses =
        (listener.localPort, segment.srcIp, segment.srcPort) ∧
      (spawnChild env listener listenerId segment).1.listenParent = some listenerId ∧
      (spawnChild env listener listenerId segment).1.accepted = false ∧
      (spawnChild env listener listenerId segment).1.inUse = true := by
  obtain ⟨tick, is⟩ := sendSegment_conn env (connChild env listener listenerId segment) .synAck []
  have spawned : (spawnChild env listener listenerId segment).1 =
      { connChild env listener listenerId segment with
        lastTxTick := tick
        seq := env.now * 54321 + segment.dstPort.setWidth 32 + 1 } :=
    congrArg (fun sent : TcpConn => { sent with seq := sent.seq + 1 }) is
  rw [spawned]
  exact ⟨rfl, rfl, rfl, rfl⟩

/-- A slot that is taken belongs to a connect, to a listener, or to the child of a listener. -/
inductive Taken (env : Env) (table : TcpTable) (id : Nat) : NetEvent → TcpConn → Prop
  | connect {targetIp : Ip} {port : Port} {conn : TcpConn} : conn.listenParent = none →
      newAddresses env table id (.connect targetIp port) = some conn.addresses →
      (table.netReady = false → conn.inUse = true ∧ conn.state = .closed) →
      Taken env table id (.connect targetIp port) conn
  | listen {port : Port} {conn : TcpConn} : conn.listenParent = none → conn.state = .listen →
      Taken env table id (.listen port) conn
  | child {segment : Segment} {listener : Nat} {conn : TcpConn} :
      table.findConn segment = none → table.spawns segment = some (id, listener) →
      conn.listenParent = some listener →
      conn.addresses = ((table.conns listener).localPort, segment.srcIp, segment.srcPort) →
      Taken env table id (.segment segment) conn

theorem on_taken (env : Env) (takes : takesSlot table id event = true) :
    Taken env table id event ((table.on env event).1.conns id) := by
  have free := takesSlot_free takes
  cases event with
  | connect targetIp port =>
    cases ready : table.netReady with
    | true =>
      rw [tcpConnect_ready env targetIp port free ready]
      obtain ⟨addresses, listenParent, _, _⟩ := startConn_owner (table.env env)
        (connReserved table.portCounter) targetIp port
      refine .connect listenParent ?_ fun waits => ?_
      · rw [newAddresses, if_pos free, if_pos ready, addresses]
        rfl
      · rw [ready] at waits
        cases waits
    | false =>
      have is : (table.on env (.connect targetIp port)).1.conns id =
          connReserved table.portCounter := by
        show (tcpConnect env table targetIp port).2.1.conns id = _
        unfold tcpConnect
        rw [free]
        simp only [ready]
        exact setConn_self table id _
      rw [is]
      refine .connect rfl ?_ fun _ => ⟨rfl, rfl⟩
      rw [newAddresses, if_pos free, ready]
      rfl
  | listen port =>
    have is : (table.on env (.listen port)).1.conns id = connListening env port := by
      show (tcpListen env table port).2.conns id = _
      unfold tcpListen
      rw [free]
      exact setConn_self table id _
    rw [is]
    exact .listen rfl rfl
  | segment segment =>
    obtain ⟨unknown, spawns⟩ := takesSlot_segment.mp takes
    obtain ⟨⟨child, listener⟩, spawned, rfl⟩ := Option.map_eq_some_iff.mp spawns
    rw [handleTcp_spawns env unknown spawned]
    obtain ⟨addresses, listenParent, _, _⟩ := spawnChild_owner (table.env env)
      (table.conns listener) listener segment
    exact .child unknown spawned listenParent addresses
  | accept listenerId => cases takes
  | send slot payload => cases takes
  | recv slot maxLen => cases takes
  | close slot => cases takes
  | arpReply => cases takes
  | sweep => cases takes

/-- A slot that gets no new connection keeps its owner, and it stays passive until it is given
back. -/
theorem on_kept (env : Env) (old : ¬ IsNew table event id) :
    SameOwner (table.conns id) ((table.on env event).1.conns id) ∧
      (isPassive (table.conns id).state = true → ¬ GivesBack table id event →
        ((table.on env event).1.conns id).state = (table.conns id).state ∧
          ((table.on env event).1.conns id).inUse = (table.conns id).inUse) := by
  have change := on_change env table event id
  generalize (table.on env event).1.conns id = next at *
  cases change with
  | same => exact ⟨.refl _, fun _ _ => ⟨rfl, rfl⟩⟩
  | call used closes call =>
    refine ⟨on_owner (table.env env) (table.conns id) _, fun passive kept => ?_⟩
    refine on_passive (table.env env) passive (fun close => kept ?_) fun segment is => absurd is
      (call segment)
    rw [closes close]
    rfl
  | input found =>
    rename_i segment
    refine ⟨tcpInput_owner (table.env env) (table.conns id) segment, fun passive kept => ?_⟩
    refine @on_passive _ (table.env env) passive (.segment segment) ConnEvent.noConfusion ?_
    intro other is reset
    obtain rfl := ConnEvent.segment.inj is
    exact kept ⟨found, reset⟩
  | accept pending =>
    exact ⟨⟨rfl, rfl, fun _ => rfl, fun used => used, fun _ => .rfl⟩, fun _ _ => ⟨rfl, rfl⟩⟩
  | reserve free waits => exact absurd (Or.inl (decide_eq_true free)) old
  | connect free ready => exact absurd (Or.inl (decide_eq_true free)) old
  | listen free => exact absurd (Or.inl (decide_eq_true free)) old
  | spawn unknown spawns =>
    refine absurd (Or.inl (takesSlot_segment.mpr ⟨unknown, ?_⟩)) old
    rw [spawns]
    rfl
  | dispatch pending due bound => exact absurd (Or.inr ⟨rfl, pending, due, bound⟩) old

/-! ### The invariant -/

/-- What carries the promises from step to step. -/
structure SlotInv (state : SlotState) : Prop where
  bounded : ∀ id, (state.table.conns id).inUse = true → id < tcpMaxConns
  distinct : ∀ id other, (state.table.conns id).connects → (state.table.conns other).connects →
    (state.table.conns id).addresses = (state.table.conns other).addresses → id = other
  waits : ∀ id, state.table.waitsOn id →
    (state.table.conns id).inUse = true ∧ (state.table.conns id).state = .closed ∧
      state.takes id = state.pendingTake
  children : ∀ child listener, (state.table.conns child).inUse = true →
    (state.table.conns child).accepted = false →
    (state.table.conns child).listenParent = some listener →
    (state.table.conns listener).inUse = true ∧ (state.table.conns listener).state = .listen ∧
      state.parentTake child = state.takes listener
  handed : ∀ id take, (id, take) ∈ state.handed → take < state.takes id ∨
    take = state.takes id ∧ (state.table.conns id).accepted = true
  once : state.handed.Nodup

theorem dispatch_is (env : Env) (waits : table.waitsOn id) :
    (table.on env .arpReply).1.conns id =
      (startConn { env with netReady := true } (table.conns id) table.pendingIp
        table.pendingPort).1 :=
  arpReply_due env waits.1 waits.2.1 waits.2.2

/-- A slot that gets a new connection keeps the bound of the table. -/
theorem SlotInv.bounded_after (inv : SlotInv state) (env : Env) (event : NetEvent)
    (used : ((state.table.on env event).1.conns id).inUse = true) : id < tcpMaxConns := by
  by_cases new : IsNew state.table event id
  · rcases new with takes | ⟨_, waits⟩
    · exact (freeSlot_some (takesSlot_free takes)).1
    · exact waits.2.2
  · exact inv.bounded id ((on_kept env new).1.used used)

theorem findConn_none (unknown : table.findConn segment = none) (bound : id < tcpMaxConns)
    (used : (table.conns id).inUse = true) :
    (table.conns id).addresses ≠ (segment.dstPort, segment.srcIp, segment.srcPort) := by
  intro same
  have none' := List.find?_eq_none.mp unknown id (List.mem_range.mpr bound)
  obtain ⟨localPort, addresses⟩ := Prod.mk.inj same
  obtain ⟨remoteIp, remotePort⟩ := Prod.mk.inj addresses
  apply none'
  unfold TcpConn.matches
  rw [used, localPort, remoteIp, remotePort]
  simp

theorem findListener_some {port : Port} (found : table.findListener port = some id) :
    (table.conns id).inUse = true ∧ (table.conns id).state = .listen ∧
      (table.conns id).localPort = port := by
  have holds := @List.find?_some _ (fun id => (table.conns id).inUse &&
    decide ((table.conns id).state = .listen) && decide ((table.conns id).localPort = port)) _ _
    found
  simp only [Bool.and_eq_true, decide_eq_true_eq] at holds
  exact ⟨holds.1.1, holds.1.2, holds.2⟩

/-- A new connection has addresses that no other connection has. -/
theorem SlotInv.fresh (inv : SlotInv state) (keeps : KeepsSlots state (env, event))
    (new : IsNew state.table event id)
    (connects : ((state.table.on env event).1.conns id).connects) {other : Nat}
    (different : other ≠ id) (connects' : (state.table.conns other).connects) :
    (state.table.conns other).addresses ≠ ((state.table.on env event).1.conns id).addresses := by
  rcases new with takes | ⟨rfl, waits⟩
  · have taken := on_taken env takes
    generalize (state.table.on env event).1.conns id = conn at *
    cases taken with
    | connect _ addresses _ => exact keeps.1 id conn.addresses addresses other different connects'
    | listen _ listens => exact absurd listens connects.2
    | child unknown spawns _ addresses =>
      rw [addresses, (findListener_some (spawns_some spawns).2.1).2.2]
      exact findConn_none unknown (inv.bounded other connects'.1) connects'.1
  · refine keeps.1 id _ ?_ other different connects'
    rw [newAddresses, if_pos ⟨waits.1, waits.2.1⟩, dispatch_is env waits]
    exact congrArg some (startConn_owner { env with netReady := true } (state.table.conns id)
      state.table.pendingIp state.table.pendingPort).1.symm

theorem SlotInv.distinct_after (inv : SlotInv state) (keeps : KeepsSlots state (env, event))
    {other : Nat} (connects : ((state.table.on env event).1.conns id).connects)
    (connects' : ((state.table.on env event).1.conns other).connects)
    (same : ((state.table.on env event).1.conns id).addresses =
      ((state.table.on env event).1.conns other).addresses) : id = other := by
  have before : ∀ {slot : Nat}, ¬ IsNew state.table event slot →
      ((state.table.on env event).1.conns slot).connects → (state.table.conns slot).connects ∧
        (state.table.conns slot).addresses =
          ((state.table.on env event).1.conns slot).addresses := by
    intro slot old connects
    have owner := (on_kept env old).1
    exact ⟨⟨owner.used connects.1, fun listens =>
      connects.2 ((owner.listens connects.1).mpr listens)⟩, owner.addresses.symm⟩
  by_contra different
  by_cases new : IsNew state.table event id
  · by_cases new' : IsNew state.table event other
    · exact different (new.unique new')
    · obtain ⟨connected, kept⟩ := before new' connects'
      exact inv.fresh keeps new connects (Ne.symm different) connected (kept.trans same.symm)
  · obtain ⟨connected, kept⟩ := before new connects
    by_cases new' : IsNew state.table event other
    · exact inv.fresh keeps new' connects' different connected (kept.trans same)
    · obtain ⟨connected', kept'⟩ := before new' connects'
      exact different (inv.distinct id other connected connected'
        (kept.trans (same.trans kept'.symm)))

theorem onConn_waits (env : Env) (slot : Nat) (connEvent : ConnEvent)
    (waits : (table.onConn env slot connEvent).1.waitsOn id) : table.waitsOn id := by
  unfold TcpTable.onConn at waits
  split at waits
  · exact waits
  · exact waits

/-- What waits behind an event waited before it, or a connect has just reserved its slot. -/
theorem waitsOn_after (env : Env) (waits : (table.on env event).1.waitsOn id) :
    reservedSlot table event = some id ∨
      table.waitsOn id ∧ reservedSlot table event = none ∧ event ≠ .arpReply := by
  cases event with
  | connect targetIp port =>
    change ((tcpConnect env table targetIp port).2.1).waitsOn id at waits
    unfold tcpConnect at waits
    cases free : table.freeSlot with
    | none =>
      rw [free] at waits
      refine Or.inr ⟨waits, ?_, NetEvent.noConfusion⟩
      rw [reservedSlot, free, ite_self]
    | some slot =>
      rw [free] at waits
      cases ready : table.netReady with
      | true =>
        simp only [ready] at waits
        refine Or.inr ⟨waits, ?_, NetEvent.noConfusion⟩
        rw [reservedSlot, if_pos ready]
      | false =>
        simp only [ready] at waits
        obtain rfl := Option.some.inj waits.1
        refine Or.inl ?_
        rw [reservedSlot, ready, free]
        rfl
  | arpReply =>
    change (arpReply env table).1.waitsOn id at waits
    unfold arpReply at waits
    cases pending : table.pendingId with
    | none =>
      rw [pending] at waits
      exact absurd waits.1 (Option.some_ne_none id).symm
    | some slot =>
      rw [pending] at waits
      simp only at waits
      split at waits
      · rename_i idle
        obtain rfl := Option.some.inj waits.1
        exact absurd idle (not_or.mpr ⟨waits.2.1, Nat.not_le.mpr waits.2.2⟩)
      · exact absurd waits.1 (Option.some_ne_none id).symm
  | listen port =>
    refine Or.inr ⟨?_, rfl, NetEvent.noConfusion⟩
    change (tcpListen env table port).2.waitsOn id at waits
    unfold tcpListen at waits
    split at waits
    · exact waits
    · exact waits
  | accept listenerId =>
    refine Or.inr ⟨?_, rfl, NetEvent.noConfusion⟩
    change (tcpAccept table listenerId).2.waitsOn id at waits
    unfold tcpAccept at waits
    split at waits
    · exact waits
    split at waits
    · exact waits
    · exact waits
  | segment segment =>
    refine Or.inr ⟨?_, rfl, NetEvent.noConfusion⟩
    change (handleTcp env table segment).1.waitsOn id at waits
    unfold handleTcp at waits
    split at waits
    · exact waits
    split at waits
    · exact waits
    · exact waits
  | send slot payload =>
    exact Or.inr ⟨onConn_waits env slot (.send payload) waits, rfl, NetEvent.noConfusion⟩
  | recv slot maxLen =>
    exact Or.inr ⟨onConn_waits env slot (.recv maxLen) waits, rfl, NetEvent.noConfusion⟩
  | close slot => exact Or.inr ⟨onConn_waits env slot .close waits, rfl, NetEvent.noConfusion⟩
  | sweep => exact Or.inr ⟨waits, rfl, NetEvent.noConfusion⟩

theorem after_takes (env : Env) (untaken : takesSlot state.table id event = false) :
    (state.after env event).takes id = state.takes id :=
  if_neg (Bool.eq_false_iff.mp untaken)

theorem after_pendingTake (env : Env) (none' : reservedSlot state.table event = none) :
    (state.after env event).pendingTake = state.pendingTake := by
  unfold SlotState.after
  dsimp only
  rw [none']

theorem SlotInv.waits_after (inv : SlotInv state) (keeps : KeepsSlots state (env, event))
    (waits : (state.after env event).table.waitsOn id) :
    ((state.after env event).table.conns id).inUse = true ∧
      ((state.after env event).table.conns id).state = .closed ∧
      (state.after env event).takes id = (state.after env event).pendingTake := by
  rcases waitsOn_after env waits with reserves | ⟨before, none', notReply⟩
  · cases event with
    | connect targetIp port =>
      obtain ⟨notReady, free⟩ := Option.ite_none_left_eq_some.mp reserves
      rw [Bool.not_eq_true] at notReady
      have takes : takesSlot state.table id (.connect targetIp port) = true :=
        decide_eq_true free
      have taken := on_taken env takes
      refine ⟨?_, ?_, ?_⟩
      · cases taken with
        | connect _ _ closed => exact (closed notReady).1
      · cases taken with
        | connect _ _ closed => exact (closed notReady).2
      · unfold SlotState.after
        dsimp only
        rw [if_pos takes, reserves]
    | listen port => cases reserves
    | accept listenerId => cases reserves
    | send slot payload => cases reserves
    | recv slot maxLen => cases reserves
    | close slot => cases reserves
    | segment segment => cases reserves
    | arpReply => cases reserves
    | sweep => cases reserves
  · obtain ⟨used, closed, take⟩ := inv.waits id before
    have untaken := takesSlot_used event used
    have old : ¬ IsNew state.table event id := by
      rintro (takes | ⟨reply, _⟩)
      · rw [untaken] at takes
        cases takes
      · exact notReply reply
    obtain ⟨same, sameUse⟩ := (on_kept env old).2 (by rw [closed]; rfl) (keeps.2.1 id before)
    rw [after_takes env untaken, after_pendingTake env none']
    exact ⟨sameUse.trans used, same.trans closed, take⟩

/-- A listener that is not given back keeps on listening. -/
theorem SlotInv.listener_after (inv : SlotInv state) (env : Env) (event : NetEvent)
    {listener : Nat}
    (used : (state.table.conns listener).inUse = true)
    (listens : (state.table.conns listener).state = .listen)
    (kept : ¬ GivesBack state.table listener event) :
    ((state.after env event).table.conns listener).inUse = true ∧
      ((state.after env event).table.conns listener).state = .listen ∧
      (state.after env event).takes listener = state.takes listener := by
  have untaken := takesSlot_used event used
  have old : ¬ IsNew state.table event listener := by
    rintro (takes | ⟨_, waits⟩)
    · rw [untaken] at takes
      cases takes
    · exact absurd (listens.symm.trans (inv.waits listener waits).2.1) (by decide)
  obtain ⟨same, sameUse⟩ := (on_kept env old).2 (by rw [listens]; rfl) kept
  exact ⟨sameUse.trans used, same.trans listens, after_takes env untaken⟩

/-- Only an event that takes a slot spawns a child in it. -/
theorem spawnedBy_untaken (untaken : takesSlot table id event = false) :
    spawnedBy table id event = none := by
  cases event with
  | segment segment =>
    by_cases unknown : table.findConn segment = none
    · rw [spawnedBy, if_pos unknown]
      cases spawned : table.spawns segment with
      | none => rfl
      | some slots =>
        refine if_neg fun same => ?_
        rw [takesSlot_segment.mpr ⟨unknown, by rw [spawned, ← same]; rfl⟩] at untaken
        cases untaken
    · rw [spawnedBy, if_neg unknown]
  | connect targetIp port => rfl
  | listen port => rfl
  | accept listenerId => rfl
  | send slot payload => rfl
  | recv slot maxLen => rfl
  | close slot => rfl
  | arpReply => rfl
  | sweep => rfl

theorem after_parentTake (env : Env) (untaken : takesSlot state.table id event = false) :
    (state.after env event).parentTake id = state.parentTake id := by
  unfold SlotState.after
  dsimp only
  rw [spawnedBy_untaken untaken]

theorem after_spawned (env : Env) {listener : Nat} (unknown : state.table.findConn segment = none)
    (spawns : state.table.spawns segment = some (id, listener)) :
    (state.after env (.segment segment)).parentTake id = state.takes listener := by
  have spawned : spawnedBy state.table id (.segment segment) = some listener := by
    rw [spawnedBy, if_pos unknown, spawns]
    exact if_pos rfl
  unfold SlotState.after
  dsimp only
  rw [spawned]

theorem SlotInv.children_after (inv : SlotInv state) (keeps : KeepsSlots state (env, event))
    {child listener : Nat} (used : ((state.after env event).table.conns child).inUse = true)
    (waiting : ((state.after env event).table.conns child).accepted = false)
    (parent : ((state.after env event).table.conns child).listenParent = some listener) :
    ((state.after env event).table.conns listener).inUse = true ∧
      ((state.after env event).table.conns listener).state = .listen ∧
      (state.after env event).parentTake child = (state.after env event).takes listener := by
  by_cases new : IsNew state.table event child
  · rcases new with takes | ⟨rfl, waits⟩
    · have taken := on_taken env takes
      change ((state.table.on env event).1.conns child).listenParent = some listener at parent
      generalize (state.table.on env event).1.conns child = conn at taken parent
      cases taken with
      | connect orphan _ _ => exact absurd (orphan.symm.trans parent) (Option.some_ne_none _).symm
      | listen orphan _ => exact absurd (orphan.symm.trans parent) (Option.some_ne_none _).symm
      | child unknown spawns parent' _ =>
        obtain rfl := Option.some.inj (parent'.symm.trans parent)
        obtain ⟨used', listens, _⟩ := findListener_some (spawns_some spawns).2.1
        obtain ⟨used'', listens', take⟩ := inv.listener_after env (.segment _) used' listens
          fun gives => absurd (unknown.symm.trans gives.1) (Option.some_ne_none _).symm
        exact ⟨used'', listens', (after_spawned env unknown spawns).trans take.symm⟩
    · have is : (state.after env .arpReply).table.conns child = _ := dispatch_is env waits
      obtain ⟨_, sameParent, sameAccepted, sameUse⟩ := startConn_owner { env with netReady := true }
        (state.table.conns child) state.table.pendingIp state.table.pendingPort
      rw [is, sameUse] at used
      rw [is, sameAccepted] at waiting
      rw [is, sameParent] at parent
      obtain ⟨used', listens, take⟩ := inv.children child listener used waiting parent
      obtain ⟨used'', listens', take'⟩ := inv.listener_after env .arpReply used'
        listens id
      exact ⟨used'', listens', take.trans take'.symm⟩
  · have owner := (on_kept env new).1
    have before := owner.used used
    have waiting' : (state.table.conns child).accepted = false := by
      rw [← Bool.not_eq_true]
      intro accepted
      rw [show ((state.after env event).table.conns child).accepted = true from
        owner.accepted accepted] at waiting
      cases waiting
    have parent' := owner.listenParent.symm.trans parent
    obtain ⟨used', listens, take⟩ := inv.children child listener before waiting' parent'
    obtain ⟨used'', listens', take'⟩ := inv.listener_after env event used' listens
      fun gives => keeps.2.2 listener child gives before waiting' parent'
    refine ⟨used'', listens', ?_⟩
    rw [after_parentTake env (takesSlot_used event before), take, take']

/-- The child that is handed out. -/
theorem handsOut_some {listener child : Nat}
    (hands : handsOut table (.accept listener) = some child) :
    (table.conns child).pendingChild listener = true ∧
      ((tcpAccept table listener).2.conns child).accepted = true := by
  change (tcpAccept table listener).1 = some child at hands
  unfold tcpAccept at hands ⊢
  split at hands
  · cases hands
  rename_i bound
  rw [if_neg bound]
  split at hands
  · cases hands
  · rename_i found
    obtain rfl := Option.some.inj hands
    refine ⟨@List.find?_some _ (fun id => (table.conns id).pendingChild listener) _ _ found, ?_⟩
    exact congrArg TcpConn.accepted (setConn_self table _ _)

theorem pendingChild_some {listener : Nat} (pending : conn.pendingChild listener = true) :
    conn.inUse = true ∧ conn.accepted = false ∧ conn.listenParent = some listener := by
  unfold TcpConn.pendingChild at pending
  simp only [Bool.and_eq_true, Bool.not_eq_true', decide_eq_true_eq] at pending
  exact ⟨pending.1.1.1, pending.1.1.2, pending.1.2⟩

/-- Only an accept hands out a child. -/
theorem handsOut_accept {child : Nat} (hands : handsOut table event = some child) :
    ∃ listener, event = .accept listener := by
  cases event with
  | accept listener => exact ⟨listener, rfl⟩
  | connect targetIp port => cases hands
  | listen port => cases hands
  | send slot payload => cases hands
  | recv slot maxLen => cases hands
  | close slot => cases hands
  | segment segment => cases hands
  | arpReply => cases hands
  | sweep => cases hands

theorem after_handed (env : Env) : (state.after env event).handed =
    (handsOut state.table event).toList.map (fun id => (id, state.takes id)) ++ state.handed := rfl

theorem SlotInv.handed_after (inv : SlotInv state) (env : Env) (event : NetEvent) {take : Nat}
    (member : (id, take) ∈ (state.after env event).handed) :
    take < (state.after env event).takes id ∨ take = (state.after env event).takes id ∧
      ((state.after env event).table.conns id).accepted = true := by
  rw [after_handed] at member
  rcases List.mem_append.mp member with new | old
  · obtain ⟨child, hands, is⟩ := List.mem_map.mp new
    obtain ⟨rfl, rfl⟩ := Prod.mk.inj is
    have hands := Option.mem_toList.mp hands
    obtain ⟨listener, rfl⟩ := handsOut_accept hands
    exact Or.inr ⟨rfl, (handsOut_some hands).2⟩
  · cases takes : takesSlot state.table id event with
    | true =>
      have more : (state.after env event).takes id = state.takes id + 1 := if_pos takes
      rw [more]
      rcases inv.handed id take old with before | ⟨is, _⟩
      · exact Or.inl (Nat.lt_succ_of_lt before)
      · exact Or.inl (Nat.lt_succ_of_le (Nat.le_of_eq is))
    | false =>
      rw [after_takes env takes]
      refine (inv.handed id take old).imp_right fun is => ⟨is.1, ?_⟩
      by_cases new : IsNew state.table event id
      · rcases new with taken | ⟨rfl, waits⟩
        · rw [takes] at taken
          cases taken
        · rw [show (state.after env .arpReply).table.conns id = _ from dispatch_is env waits]
          exact (startConn_owner _ _ _ _).2.2.1.trans is.2
      · exact (on_kept env new).1.accepted is.2

theorem SlotInv.once_after (inv : SlotInv state) (env : Env) (event : NetEvent) :
    (state.after env event).handed.Nodup := by
  rw [after_handed]
  cases hands : handsOut state.table event with
  | none => exact inv.once
  | some child =>
    obtain ⟨listener, rfl⟩ := handsOut_accept hands
    refine List.nodup_cons.mpr ⟨fun member => ?_, inv.once⟩
    obtain ⟨_, waiting, _⟩ := pendingChild_some (handsOut_some hands).1
    rcases inv.handed child _ member with before | ⟨_, accepted⟩
    · exact absurd before (Nat.lt_irrefl _)
    · rw [waiting] at accepted
      cases accepted

/-- Each event that closes no slot in use by others keeps the invariant. -/
theorem SlotInv.step (inv : SlotInv state) (keeps : KeepsSlots state (env, event)) :
    SlotInv (state.after env event) where
  bounded := fun _ used => inv.bounded_after env event used
  distinct := fun _ _ connects connects' same => inv.distinct_after keeps connects connects' same
  waits := fun _ waits => inv.waits_after keeps waits
  children := fun _ _ used waiting parent => inv.children_after keeps used waiting parent
  handed := fun _ _ member => inv.handed_after env event member
  once := inv.once_after env event

/-- The promises of an event that starts from the invariant. -/
theorem SlotInv.kept (inv : SlotInv state) (keeps : KeepsSlots state (env, event)) :
    SlotsKept (state.after env event) := by
  refine ⟨(inv.step keeps).distinct, fun is id waits => ?_, fun listener child is last => ?_,
    (inv.step keeps).once⟩
  · obtain rfl := Option.some.inj is
    exact inv.waits id waits
  · obtain rfl := Option.some.inj is
    obtain ⟨used, waiting, parent⟩ := pendingChild_some (handsOut_some last).1
    obtain ⟨used', listens, take⟩ := inv.children child listener used waiting parent
    exact ⟨used', listens, parent, take⟩

/-- In every run that closes no slot to which something refers, the table keeps its promises. -/
theorem slots_kept (reachable : slotSystem.Reachable KeepsSlots state) : SlotsKept state := by
  refine And.right (reachable.invariant (fun state => SlotInv state ∧ SlotsKept state) ?_ ?_)
  · rintro state ⟨unused, idle, event, last, handed⟩
    have free : ∀ {id}, (state.table.conns id).inUse ≠ true := fun {id} =>
      Bool.eq_false_iff.mp (unused id)
    have nothing : state.handed.Nodup := by
      rw [handed]
      exact List.nodup_nil
    refine ⟨⟨fun _ used => absurd used free, fun _ _ connects => absurd connects.1 free,
      fun id waits => ?_, fun _ _ used => absurd used free, fun id take member => ?_, nothing⟩,
      fun _ _ connects => absurd connects.1 free, fun is => ?_, fun _ _ is => ?_, nothing⟩
    · exact absurd (idle.symm.trans waits.1) (Option.some_ne_none id).symm
    · rw [handed] at member
      exact absurd member List.not_mem_nil
    · exact absurd (event.symm.trans is) (Option.some_ne_none _).symm
    · exact absurd (event.symm.trans is) (Option.some_ne_none _).symm
  · rintro state ⟨env, event⟩ next ⟨inv, _⟩ keeps rfl
    exact ⟨inv.step keeps, inv.kept keeps⟩

/-! ### Two runs -/

def slotStart (table : TcpTable) : SlotState :=
  ⟨table, none, table, fun _ => 0, 0, fun _ => 0, none, []⟩

/-- The table listens on port 80 and hands out the child of the peer. -/
def childWaits : SlotState := (((slotStart readyTable).after stillEnv (.listen 80)).after stillEnv
  (.segment peerSyn)).after stillEnv (.segment peerAck)
def childTaken : SlotState := childWaits.after stillEnv (.accept 0)

/-- An event that gives nothing back and takes no addresses. -/
theorem keepsSlots_plain (state : SlotState) (env : Env) {event : NetEvent}
    (addresses : ∀ id, newAddresses env state.table id event = none)
    (gives : ∀ id, ¬ GivesBack state.table id event) : KeepsSlots state (env, event) :=
  ⟨fun id _ is => absurd (is.symm.trans (addresses id)) (Option.some_ne_none _),
    fun id _ => gives id, fun listener _ given => absurd given (gives listener)⟩

theorem slots_kept_taken : childTaken.last = some 1 ∧ SlotsKept childTaken := by
  have initial : slotSystem.Reachable KeepsSlots (slotStart readyTable) :=
    .init ⟨fun _ => rfl, rfl, rfl, rfl, rfl⟩
  have listening := initial.step
    (keepsSlots_plain (slotStart readyTable) stillEnv (fun _ => rfl) fun _ given => given :
      KeepsSlots _ (stillEnv, .listen 80)) rfl
  have answering := listening.step
    (keepsSlots_plain _ stillEnv (fun _ => rfl) (fun _ given => by cases given.2.2.2) :
      KeepsSlots _ (stillEnv, .segment peerSyn)) rfl
  have complete : slotSystem.Reachable KeepsSlots childWaits := answering.step
    (keepsSlots_plain _ stillEnv (fun _ => rfl) (fun _ given => by cases given.2.2.2) :
      KeepsSlots _ (stillEnv, .segment peerAck)) rfl
  have taken : slotSystem.Reachable KeepsSlots childTaken := complete.step
    (keepsSlots_plain _ stillEnv (fun _ => rfl) fun _ given => given :
      KeepsSlots _ (stillEnv, .accept 0)) rfl
  exact ⟨by decide +kernel, slots_kept taken⟩

/-- A connect waits for the gateway, its slot is closed, and a listener takes it. -/
def slotReused : SlotState := (((slotStart .boot).after stillEnv (.connect 9 7)).after stillEnv
  (.close 0)).after stillEnv (.listen 80)
def listenerStarted : SlotState := slotReused.after stillEnv .arpReply

theorem slotReused_waits : slotReused.table.pendingId = some 0 ∧ slotReused.table.pendingPort ≠ 0 ∧
    (slotReused.table.conns 0).state ≠ .closed := by decide +kernel

/-- The reply of the gateway starts the connect on the slot of the listener. -/
theorem arpReply_starts_listener :
    ¬ ∀ state, slotSystem.Reachable anyStep state → SlotsKept state := by
  intro kept
  have initial : slotSystem.Reachable anyStep (slotStart .boot) :=
    .init ⟨fun _ => rfl, rfl, rfl, rfl, rfl⟩
  have queued := initial.step
    (show anyStep (slotStart .boot) (stillEnv, .connect 9 7) from trivial) rfl
  have closed := queued.step
    (show anyStep ((slotStart .boot).after stillEnv (.connect 9 7)) (stillEnv, .close 0)
      from trivial) rfl
  have reused : slotSystem.Reachable anyStep slotReused := closed.step
    (show anyStep (((slotStart .boot).after stillEnv (.connect 9 7)).after stillEnv (.close 0))
      (stillEnv, .listen 80) from trivial) rfl
  have started : slotSystem.Reachable anyStep listenerStarted := reused.step
    (show anyStep slotReused (stillEnv, .arpReply) from trivial) rfl
  obtain ⟨pending, due, notClosed⟩ := slotReused_waits
  exact notClosed ((kept listenerStarted started).reserved rfl 0
    ⟨pending, due, by decide⟩).2.1

end MectovOS.Net
