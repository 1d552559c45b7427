/-
This file states what the table of connections of src/drivers/net.c promises
about its slots: no two connections have the same addresses, a connect that
waits starts on the slot that was reserved for it, and a listener hands out its
own children. Slots are bare indices; beside them stands how often each slot was
taken.
-/

import MectovOS.Lib.Transition
import MectovOS.Net.TcpTable

namespace MectovOS.Net

open Transition

/-! ### The run -/

/-- Does an event take a slot for a new connection? -/
def takesSlot (table : TcpTable) (id : Nat) : NetEvent → Bool
  | .connect _ _ => decide (table.freeSlot = some id)
  | .listen _ => decide (table.freeSlot = some id)
  | .segment segment =>
    decide (table.findConn segment = none) &&
      decide ((table.spawns segment).map Prod.fst = some id)
  | _ => false

/-- The slot that a connect reserves while the gateway is unknown. -/
def reservedSlot (table : TcpTable) : NetEvent → Option Nat
  | .connect _ _ => if table.netReady then none else table.freeSlot
  | _ => none

/-- The listener for which an event spawns a child in a slot. -/
def spawnedBy (table : TcpTable) (id : Nat) : NetEvent → Option Nat
  | .segment segment =>
    if table.findConn segment = none then
      (table.spawns segment).bind fun slots => if slots.1 = id then some slots.2 else none
    else none
  | _ => none

/-- The child that an event hands out. -/
def handsOut (table : TcpTable) : NetEvent → Option Nat
  | .accept listenerId => (tcpAccept table listenerId).1
  | _ => none

/-- The table before and behind the last event, how often each slot was taken, which of these
times the connect that waits and the listener of each child refer to, and the children that were
handed out by the last event and by all. -/
structure SlotState where
  before : TcpTable
  event : Option NetEvent
  table : TcpTable
  takes : Nat → Nat
  pendingTake : Nat
  parentTake : Nat → Nat
  last : Option Nat
  handed : List (Nat × Nat)

/-- The state behind an event. -/
def SlotState.after (state : SlotState) (env : Env) (event : NetEvent) : SlotState where
  before := state.table
  event := some event
  table := (state.table.on env event).1
  takes := fun id => if takesSlot state.table id event then state.takes id + 1 else state.takes id
  pendingTake := match reservedSlot state.table event with
    | none => state.pendingTake
    | some id => state.takes id + 1
  parentTake := fun id => match spawnedBy state.table id event with
    | none => state.parentTake id
    | some listener => state.takes listener
  last := handsOut state.table event
  handed := (handsOut state.table event).toList.map (fun id => (id, state.takes id)) ++ state.handed

/-- No slot is in use and nothing waits. -/
def SlotState.Initial (state : SlotState) : Prop :=
  (∀ id, (state.table.conns id).inUse = false) ∧ state.table.pendingId = none ∧
    state.event = none ∧ state.last = none ∧ state.handed = []

/-- The table under any events. -/
def slotSystem : System SlotState (Env × NetEvent) where
  init := SlotState.Initial
  step state label next := next = state.after label.1 label.2

/-! ### The law -/

/-- The addresses of a connection. -/
def TcpConn.addresses (conn : TcpConn) : Port × Ip × Port :=
  (conn.localPort, conn.remoteIp, conn.remotePort)

/-- A slot in use that does not listen. -/
def TcpConn.connects (conn : TcpConn) : Prop := conn.inUse = true ∧ conn.state ≠ .listen

/-- The connect that waits for the gateway, and its slot. -/
def TcpTable.waitsOn (table : TcpTable) (id : Nat) : Prop :=
  table.pendingId = some id ∧ table.pendingPort ≠ 0 ∧ id < tcpMaxConns

/-- What the table promises of its slots. -/
structure SlotsKept (state : SlotState) : Prop where
  distinct : ∀ id other, (state.table.conns id).connects → (state.table.conns other).connects →
    (state.table.conns id).addresses = (state.table.conns other).addresses → id = other
  reserved : state.event = some .arpReply → ∀ id, state.before.waitsOn id →
    (state.before.conns id).inUse = true ∧ (state.before.conns id).state = .closed ∧
      state.takes id = state.pendingTake
  spawned : ∀ listener child, state.event = some (.accept listener) → state.last = some child →
    (state.before.conns listener).inUse = true ∧ (state.before.conns listener).state = .listen ∧
      (state.before.conns child).listenParent = some listener ∧
      state.parentTake child = state.takes listener
  once : state.handed.Nodup

/-- The addresses of a connection that starts. -/
def startedAddresses (env : Env) (localPort : Port) (targetIp : Ip) (port : Port) :
    Port × Ip × Port :=
  (localPort, if port = 80 then env.gatewayIp else targetIp, if port = 80 then 8888 else port)

/-- The addresses that an event gives to the slot `id`. -/
def newAddresses (env : Env) (table : TcpTable) (id : Nat) : NetEvent → Option (Port × Ip × Port)
  | .connect targetIp port =>
    if table.freeSlot = some id then
      some (if table.netReady then startedAddresses env table.portCounter targetIp port
        else (table.portCounter, 0, 0))
    else none
  | .arpReply =>
    if table.pendingId = some id ∧ table.pendingPort ≠ 0 then
      some (startedAddresses env (table.conns id).localPort table.pendingIp table.pendingPort)
    else none
  | _ => none

/-- Does an event close the connection of a slot at once, when it waits or listens? -/
def GivesBack (table : TcpTable) (id : Nat) : NetEvent → Prop
  | .close slot => slot = id
  | .segment segment => table.findConn segment = some id ∧ segment.length ≤ tcpLenMax ∧
      segment.valid = true ∧ segment.flags.rst = true
  | _ => False

/-- A connect takes addresses that no other connection has, the slot of a connect that waits is
not closed, and no listener is closed that has children to hand out. -/
def KeepsSlots (state : SlotState) (label : Env × NetEvent) : Prop :=
  (∀ id addresses, newAddresses label.1 state.table id label.2 = some addresses →
    ∀ other, other ≠ id → (state.table.conns other).connects →
      (state.table.conns other).addresses ≠ addresses) ∧
  (∀ id, state.table.waitsOn id → ¬ GivesBack state.table id label.2) ∧
  ∀ listener child, GivesBack state.table listener label.2 →
    (state.table.conns child).inUse = true → (state.table.conns child).accepted = false →
    (state.table.conns child).listenParent ≠ some listener

end MectovOS.Net
