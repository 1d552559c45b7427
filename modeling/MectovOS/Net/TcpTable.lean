/-
This file models the table of TCP connections of src/drivers/net.c: the calls
that take and give back slots, the segments that are matched to a slot or spawn
one, the connect that waits for the gateway, and the sweep over all slots.
-/

import Mathlib.Logic.Function.Basic
import MectovOS.Net.Tcp

namespace MectovOS.Net

open Function

/-! ### The table -/

/-- `tcp_conns`, `tcp_port_counter`, `net_ready`, and the connect that waits: `pending_tcp_ip`,
`pending_tcp_port` and `pending_tcp_id`, where -1 is `none`. -/
structure TcpTable where
  conns : Nat → TcpConn
  portCounter : Port
  netReady : Bool
  pendingIp : Ip
  pendingPort : Port
  pendingId : Option Nat

/-- The table at boot. -/
def TcpTable.boot : TcpTable := ⟨fun _ => .zero, 49152, false, 0, 0, none⟩

def TcpTable.setConn (table : TcpTable) (id : Nat) (conn : TcpConn) : TcpTable :=
  { table with conns := update table.conns id conn }

/-- The surroundings of a step on the table. -/
def TcpTable.env (table : TcpTable) (env : Env) : Env := { env with netReady := table.netReady }

/-- The first slot that is not in use. -/
def TcpTable.freeSlot (table : TcpTable) : Option Nat :=
  (List.range tcpMaxConns).find? fun id => !(table.conns id).inUse

/-- Is the segment one of the connection? -/
def TcpConn.matches (conn : TcpConn) (segment : Segment) : Bool :=
  conn.inUse && decide (conn.localPort = segment.dstPort) &&
    decide (conn.remotePort = segment.srcPort) && decide (conn.remoteIp = segment.srcIp)

/-- The slot of a segment. -/
def TcpTable.findConn (table : TcpTable) (segment : Segment) : Option Nat :=
  (List.range tcpMaxConns).find? fun id => (table.conns id).matches segment

/-- The slot that listens on a port. -/
def TcpTable.findListener (table : TcpTable) (port : Port) : Option Nat :=
  (List.range tcpMaxConns).find? fun id => (table.conns id).inUse &&
    decide ((table.conns id).state = .listen) && decide ((table.conns id).localPort = port)

/-! ### The calls -/

/-- The next port of the dynamic range. -/
def nextPort (port : Port) : Port := if 60000 < port + 1 then 49152 else port + 1

/-- A slot that is reserved for a connect. -/
def connReserved (localPort : Port) : TcpConn :=
  { TcpConn.zero with
    inUse := true
    localPort := localPort
    listenParent := none }

/-- `net_tcp_connect`: the connection starts, or it waits for the gateway. -/
def tcpConnect (env : Env) (table : TcpTable) (targetIp : Ip) (port : Port) :
    Option Nat × TcpTable × List Sent :=
  match table.freeSlot with
  | none => (none, table, [])
  | some id =>
    let reserved := { table.setConn id (connReserved table.portCounter) with
      portCounter := nextPort table.portCounter }
    if table.netReady = false then
      (some id, { reserved with pendingIp := targetIp, pendingPort := port, pendingId := some id },
        [])
    else
      let started := startConn (table.env env) (connReserved table.portCounter) targetIp port
      (some id, reserved.setConn id started.1, started.2)

/-- A slot that listens. -/
def connListening (env : Env) (port : Port) : TcpConn :=
  { TcpConn.zero with
    inUse := true
    state := .listen
    localPort := port
    seq := if env.random = 0 then env.now * 54321 + port.setWidth 32 else env.random
    listenParent := none }

/-- `net_tcp_listen`. -/
def tcpListen (env : Env) (table : TcpTable) (port : Port) : Option Nat × TcpTable :=
  match table.freeSlot with
  | none => (none, table)
  | some id => (some id, table.setConn id (connListening env port))

/-- Is the connection one that the listener has to hand out? -/
def TcpConn.pendingChild (conn : TcpConn) (listenerId : Nat) : Bool :=
  conn.inUse && !conn.accepted && decide (conn.listenParent = some listenerId) &&
    decide (conn.state = .established)

/-- `net_tcp_accept`. -/
def tcpAccept (table : TcpTable) (listenerId : Nat) : Option Nat × TcpTable :=
  if tcpMaxConns ≤ listenerId then (none, table)
  else
    match (List.range tcpMaxConns).find? fun id => (table.conns id).pendingChild listenerId with
    | none => (none, table)
    | some id => (some id, table.setConn id { table.conns id with accepted := true })

/-- A call on a slot in use. -/
def TcpTable.onConn (env : Env) (table : TcpTable) (id : Nat) (event : ConnEvent) :
    TcpTable × List Sent :=
  if tcpMaxConns ≤ id ∨ (table.conns id).inUse = false then (table, [])
  else
    let step := (table.conns id).on (table.env env) event
    (table.setConn id step.1, step.2)

/-! ### Packets -/

/-- A child that a SYN spawns, before it answers. -/
def connChild (env : Env) (listener : TcpConn) (listenerId : Nat) (segment : Segment) : TcpConn :=
  { TcpConn.zero with
    inUse := true
    state := .synRcvd
    localPort := listener.localPort
    remoteIp := segment.srcIp
    remotePort := segment.srcPort
    seq := env.now * 54321 + segment.dstPort.setWidth 32
    ack := segment.seq + 1
    listenParent := some listenerId
    connStartTick := env.now }

/-- The child answers the SYN. -/
def spawnChild (env : Env) (listener : TcpConn) (listenerId : Nat) (segment : Segment) : Step :=
  let sent := sendSegment env (connChild env listener listenerId segment) .synAck []
  ({ sent.1 with seq := sent.1.seq + 1 }, sent.2)

/-- The slot that a segment without a connection spawns, and its listener. -/
def TcpTable.spawns (table : TcpTable) (segment : Segment) : Option (Nat × Nat) :=
  if segment.flags.syn = false then none
  else
    match table.findListener segment.dstPort with
    | none => none
    | some listener => table.freeSlot.map fun child => (child, listener)

/-- `net_handle_tcp`. -/
def handleTcp (env : Env) (table : TcpTable) (segment : Segment) : TcpTable × List Sent :=
  match table.findConn segment with
  | some id =>
    let step := tcpInput (table.env env) (table.conns id) segment
    (table.setConn id step.1, step.2)
  | none =>
    match table.spawns segment with
    | none => (table, [])
    | some (child, listener) =>
      let spawned := spawnChild (table.env env) (table.conns listener) listener segment
      (table.setConn child spawned.1, spawned.2)

/-- The reply of the gateway in `net_handle_arp`: the connect that waits is started on its slot. -/
def arpReply (env : Env) (table : TcpTable) : TcpTable × List Sent :=
  let ready := { table with netReady := true }
  match table.pendingId with
  | none => (ready, [])
  | some id =>
    if table.pendingPort = 0 ∨ tcpMaxConns ≤ id then (ready, [])
    else
      let started := startConn (ready.env env) (table.conns id) table.pendingIp table.pendingPort
      ({ ready.setConn id started.1 with pendingPort := 0, pendingId := none }, started.2)

/-- The sweep of `net_poll` over one slot. -/
def sweepSlot (env : Env) (conn : TcpConn) : Step :=
  if conn.inUse then tcpSweep env conn else (conn, [])

/-- The sweep of `net_poll`. -/
def tcpSweepAll (env : Env) (table : TcpTable) : TcpTable × List Sent :=
  ({ table with
      conns := fun id => if id < tcpMaxConns then (sweepSlot (table.env env) (table.conns id)).1
        else table.conns id },
    (List.range tcpMaxConns).flatMap fun id => (sweepSlot (table.env env) (table.conns id)).2)

/-! ### Events -/

/-- What can happen to the table. -/
inductive NetEvent where
  | connect (targetIp : Ip) (port : Port)
  | listen (port : Port)
  | accept (listenerId : Nat)
  | send (id : Nat) (payload : Bytes)
  | recv (id : Nat) (maxLen : Nat)
  | close (id : Nat)
  | segment (segment : Segment)
  | arpReply
  | sweep

/-- The table behind an event, and what it sends. -/
def TcpTable.on (env : Env) (table : TcpTable) : NetEvent → TcpTable × List Sent
  | .connect targetIp port => (tcpConnect env table targetIp port).2
  | .listen port => ((tcpListen env table port).2, [])
  | .accept listenerId => ((tcpAccept table listenerId).2, [])
  | .send id payload => table.onConn env id (.send payload)
  | .recv id maxLen => table.onConn env id (.recv maxLen)
  | .close id => table.onConn env id .close
  | .segment segment => handleTcp env table segment
  | .arpReply => Net.arpReply env table
  | .sweep => tcpSweepAll env table

/-! ### What an event does to a slot -/

/-- The ways in which a slot changes. -/
inductive SlotChange (table : TcpTable) (env : Env) (id : Nat) : NetEvent → TcpConn → Prop
  | same {event : NetEvent} : SlotChange table env id event (table.conns id)
  | call {event : NetEvent} {connEvent : ConnEvent} : (table.conns id).inUse = true →
      (connEvent = .close → event = .close id) → (∀ segment, connEvent ≠ .segment segment) →
      SlotChange table env id event ((table.conns id).on (table.env env) connEvent).1
  | input {segment : Segment} : table.findConn segment = some id →
      SlotChange table env id (.segment segment)
        (tcpInput (table.env env) (table.conns id) segment).1
  | accept {listenerId : Nat} : (table.conns id).pendingChild listenerId = true →
      SlotChange table env id (.accept listenerId) { table.conns id with accepted := true }
  | reserve {targetIp : Ip} {port : Port} : table.freeSlot = some id → table.netReady = false →
      SlotChange table env id (.connect targetIp port) (connReserved table.portCounter)
  | connect {targetIp : Ip} {port : Port} : table.freeSlot = some id → table.netReady = true →
      SlotChange table env id (.connect targetIp port)
        (startConn (table.env env) (connReserved table.portCounter) targetIp port).1
  | listen {port : Port} : table.freeSlot = some id →
      SlotChange table env id (.listen port) (connListening env port)
  | spawn {segment : Segment} {listener : Nat} : table.findConn segment = none →
      table.spawns segment = some (id, listener) →
      SlotChange table env id (.segment segment)
        (spawnChild (table.env env) (table.conns listener) listener segment).1
  | dispatch : table.pendingId = some id → table.pendingPort ≠ 0 → id < tcpMaxConns →
      SlotChange table env id .arpReply
        (startConn { env with netReady := true } (table.conns id) table.pendingIp
          table.pendingPort).1

theorem setConn_self (table : TcpTable) (id : Nat) (conn : TcpConn) :
    (table.setConn id conn).conns id = conn :=
  update_self _ _ _

theorem setConn_other (table : TcpTable) {id other : Nat} (conn : TcpConn) (different : other ≠ id) :
    (table.setConn id conn).conns other = table.conns other :=
  update_of_ne different _ _

theorem onConn_change (env : Env) (table : TcpTable) (id other : Nat) {event : NetEvent}
    {connEvent : ConnEvent} (closes : connEvent = .close → event = .close id)
    (call : ∀ segment, connEvent ≠ .segment segment) :
    SlotChange table env other event ((table.onConn env id connEvent).1.conns other) := by
  unfold TcpTable.onConn
  split
  · exact .same
  rename_i used
  rw [not_or, Bool.not_eq_false] at used
  rcases eq_or_ne other id with rfl | different
  · rw [setConn_self]
    exact .call used.2 closes call
  · rw [setConn_other _ _ different]
    exact .same

/-- Each event changes each slot in one of these ways. -/
theorem on_change (env : Env) (table : TcpTable) (event : NetEvent) (id : Nat) :
    SlotChange table env id event ((table.on env event).1.conns id) := by
  cases event with
  | connect targetIp port =>
    show SlotChange table env id _ ((tcpConnect env table targetIp port).2.1.conns id)
    unfold tcpConnect
    split
    · exact .same
    rename_i slot free
    simp only
    split
    · rename_i waits
      rcases eq_or_ne id slot with rfl | different
      · show SlotChange table env id _ ((table.setConn id _).conns id)
        rw [setConn_self]
        exact .reserve free waits
      · show SlotChange table env id _ ((table.setConn slot _).conns id)
        rw [setConn_other _ _ different]
        exact .same
    · rename_i ready
      rw [Bool.not_eq_false] at ready
      rcases eq_or_ne id slot with rfl | different
      · rw [setConn_self]
        exact .connect free ready
      · rw [setConn_other _ _ different]
        show SlotChange table env id _ ((table.setConn slot _).conns id)
        rw [setConn_other _ _ different]
        exact .same
  | listen port =>
    show SlotChange table env id _ ((tcpListen env table port).2.conns id)
    unfold tcpListen
    split
    · exact .same
    rename_i slot free
    rcases eq_or_ne id slot with rfl | different
    · rw [setConn_self]
      exact .listen free
    · rw [setConn_other _ _ different]
      exact .same
  | accept listenerId =>
    show SlotChange table env id _ ((tcpAccept table listenerId).2.conns id)
    unfold tcpAccept
    split
    · exact .same
    split
    · exact .same
    rename_i child found
    rcases eq_or_ne id child with rfl | different
    · rw [setConn_self]
      exact .accept (@List.find?_some _ (fun id => (table.conns id).pendingChild listenerId) _ _
        found)
    · rw [setConn_other _ _ different]
      exact .same
  | send slot payload =>
    exact onConn_change env table slot id (fun is => by cases is) fun _ is => by cases is
  | recv slot maxLen =>
    exact onConn_change env table slot id (fun is => by cases is) fun _ is => by cases is
  | close slot => exact onConn_change env table slot id (fun _ => rfl) fun _ is => by cases is
  | segment segment =>
    show SlotChange table env id _ ((handleTcp env table segment).1.conns id)
    unfold handleTcp
    split
    · rename_i slot found
      rcases eq_or_ne id slot with rfl | different
      · rw [setConn_self]
        exact .input found
      · rw [setConn_other _ _ different]
        exact .same
    · rename_i unknown
      split
      · exact .same
      rename_i child listener spawns
      rcases eq_or_ne id child with rfl | different
      · rw [setConn_self]
        exact .spawn unknown spawns
      · rw [setConn_other _ _ different]
        exact .same
  | arpReply =>
    show SlotChange table env id _ ((Net.arpReply env table).1.conns id)
    unfold Net.arpReply
    simp only
    split
    · exact .same
    rename_i slot waits
    split
    · exact .same
    rename_i due
    rw [not_or] at due
    rcases eq_or_ne id slot with rfl | different
    · show SlotChange table env id _ (({ table with netReady := true } : TcpTable).setConn id _
        |>.conns id)
      rw [setConn_self]
      exact .dispatch waits due.1 (Nat.lt_of_not_le due.2)
    · show SlotChange table env id _ (({ table with netReady := true } : TcpTable).setConn slot _
        |>.conns id)
      rw [setConn_other _ _ different]
      exact .same
  | sweep =>
    show SlotChange table env id _ (if id < tcpMaxConns then
      (sweepSlot (table.env env) (table.conns id)).1 else table.conns id)
    split
    · unfold sweepSlot
      split
      · rename_i used
        exact @SlotChange.call table env id .sweep .sweep used (fun is => by cases is)
          fun _ is => by cases is
      · exact .same
    · exact .same

end MectovOS.Net
