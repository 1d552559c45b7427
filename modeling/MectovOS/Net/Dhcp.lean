/-
This file models the DHCP client of src/drivers/net.c: the replies that it
parses, its retries, and the configuration that it applies, and it states what
the client promises when several servers answer. It runs under `net_lock`.
-/

import MectovOS.Lib.Transition
import MectovOS.Net.Tcp

namespace MectovOS.Net

open Transition

/-! ### Packets -/

/-- The size of `dhcp_packet_t`, and the bound of the walk over the options. -/
def dhcpHeaderSize : Nat := 240
def dhcpOptionsEnd : Nat := 1500

/-- Four bytes of a packet in network order. -/
def quadAt (data : Bytes) (offset : Nat) : BitVec 32 :=
  (data.getD offset 0).toBitVec ++ (data.getD (offset + 1) 0).toBitVec ++
    (data.getD (offset + 2) 0).toBitVec ++ (data.getD (offset + 3) 0).toBitVec

/-- The fields of the header that are looked at. -/
def dhcpOp (data : Bytes) : UInt8 := data.getD 0 0
def dhcpXidOf (data : Bytes) : BitVec 32 := quadAt data 4
def yiaddr (data : Bytes) : Ip := quadAt data 16
def chaddr (data : Bytes) : Bytes := (data.drop 28).take 6
def dhcpMagic (data : Bytes) : BitVec 32 := quadAt data 236

/-- An option: its type, and where its `length` bytes start. -/
structure DhcpOption where
  type : UInt8
  start : Nat
  length : Nat

/-- The walk over the options: padding is skipped, and it stops at the end marker and at an option
that does not fit. -/
def walkOptions (data : Bytes) : Nat → Nat → List DhcpOption
  | 0, _ => []
  | fuel + 1, offset =>
    if data.length ≤ offset ∨ dhcpOptionsEnd ≤ offset then []
    else if data.getD offset 0 = 255 then []
    else if data.getD offset 0 = 0 then walkOptions data fuel (offset + 1)
    else if data.length ≤ offset + 1 then []
    else if data.length < offset + 2 + (data.getD (offset + 1) 0).toNat then []
    else
      ⟨data.getD offset 0, offset + 2, (data.getD (offset + 1) 0).toNat⟩ ::
        walkOptions data fuel (offset + 2 + (data.getD (offset + 1) 0).toNat)

/-- The options of a packet. -/
def dhcpOptions (data : Bytes) : List DhcpOption := walkOptions data dhcpOptionsEnd dhcpHeaderSize

/-- The message type: the last option 53, or 0. -/
def msgType (data : Bytes) : UInt8 :=
  (dhcpOptions data).foldl (fun type option =>
    if option.type = 53 ∧ 1 ≤ option.length then data.getD option.start 0 else type) 0

/-- `DHCP_OFFER`, `DHCP_ACK` and `DHCP_NAK`. -/
def dhcpOffer : UInt8 := 2
def dhcpAck : UInt8 := 5
def dhcpNak : UInt8 := 6

/-! ### The client -/

/-- `dhcp_state`. -/
inductive DhcpState where
  | idle
  | discover
  | request
  | bound
  deriving DecidableEq

/-- `dhcp_offered_ip`, `dhcp_server_id`, `dhcp_router`, `dhcp_dns` and `dhcp_mask`. -/
structure DhcpVars where
  offeredIp : Ip
  serverId : Ip
  router : Ip
  dns : Ip
  mask : Ip
  deriving DecidableEq

/-- `my_ip`, `gateway_ip`, `dns_server_ip` and `netmask_ip`. -/
structure NetConfig where
  myIp : Ip
  gatewayIp : Ip
  dnsServerIp : Ip
  netmaskIp : Ip
  deriving DecidableEq

/-- The client, with the hardware address of the backend. -/
structure Dhcp where
  state : DhcpState
  xid : BitVec 32
  mac : Bytes
  lastSendTick : Tick
  retries : Nat
  vars : DhcpVars
  config : NetConfig
  isBound : Bool
  deriving DecidableEq

/-- What the client sends: the request names an address and a server, the ARP request the
gateway. -/
inductive DhcpSent where
  | discover (xid : BitVec 32)
  | request (xid : BitVec 32) (requestedIp : Ip) (serverId : Ip)
  | arpRequest (gatewayIp : Ip)
  deriving DecidableEq

/-- `DHCP_RETRY_MS` and `DHCP_MAX_RETRIES`. -/
def dhcpRetryMs : Tick := 1000
def dhcpMaxRetries : Nat := 3

def Dhcp.sendDiscover (dhcp : Dhcp) : List DhcpSent := [.discover dhcp.xid]

def Dhcp.sendRequest (dhcp : Dhcp) : List DhcpSent :=
  [.request dhcp.xid dhcp.vars.offeredIp dhcp.vars.serverId]

/-- An option is copied to its variable. -/
def DhcpVars.write (data : Bytes) (vars : DhcpVars) (option : DhcpOption) : DhcpVars :=
  if option.type = 53 ∧ 1 ≤ option.length then vars
  else if option.type = 1 ∧ 4 ≤ option.length then { vars with mask := quadAt data option.start }
  else if option.type = 3 ∧ 4 ≤ option.length then { vars with router := quadAt data option.start }
  else if option.type = 6 ∧ 4 ≤ option.length then { vars with dns := quadAt data option.start }
  else if option.type = 54 ∧ 4 ≤ option.length then
    { vars with serverId := quadAt data option.start }
  else vars

/-- The variables behind the walk over the options. -/
def DhcpVars.parse (vars : DhcpVars) (data : Bytes) : DhcpVars :=
  (dhcpOptions data).foldl (DhcpVars.write data) vars

/-- A value that is not zero overrides the configuration. -/
def overriding (value old : Ip) : Ip := if value = 0 then old else value

/-- `dhcp_apply_config`. -/
def Dhcp.applyConfig (dhcp : Dhcp) (address : Ip) : Dhcp :=
  { dhcp with
    config :=
      { myIp := address
        gatewayIp := overriding dhcp.vars.router dhcp.config.gatewayIp
        dnsServerIp := overriding dhcp.vars.dns dhcp.config.dnsServerIp
        netmaskIp := overriding dhcp.vars.mask dhcp.config.netmaskIp }
    isBound := true
    state := .bound }

/-- A reply of this transaction to this client. -/
def Dhcp.expects (dhcp : Dhcp) (data : Bytes) : Bool :=
  decide (dhcpHeaderSize ≤ data.length) && decide (dhcpOp data = 2) &&
    decide (dhcpMagic data = 0x63825363) && decide (dhcpXidOf data = dhcp.xid) &&
    decide (chaddr data = dhcp.mac)

/-- `dhcp_handle`. -/
def dhcpHandle (now : Tick) (dhcp : Dhcp) (data : Bytes) : Dhcp × List DhcpSent :=
  if dhcp.expects data = false then (dhcp, [])
  else
    let parsed := { dhcp with vars := dhcp.vars.parse data }
    if msgType data = dhcpOffer ∧ parsed.state = .discover then
      let offered := { parsed with
        vars := { parsed.vars with offeredIp := yiaddr data }
        state := .request
        retries := 0
        lastSendTick := now }
      (offered, offered.sendRequest)
    else if msgType data = dhcpAck ∧ parsed.state = .request then
      let applied := parsed.applyConfig (yiaddr data)
      (applied, [.arpRequest applied.config.gatewayIp])
    else if msgType data = dhcpNak ∧ parsed.state = .request then
      ({ parsed with state := .idle, retries := 0 }, [])
    else (parsed, [])

/-- `net_handle_udp` on the port of the client: nothing is parsed once it is bound. -/
def dhcpInput (now : Tick) (dhcp : Dhcp) (data : Bytes) : Dhcp × List DhcpSent :=
  if dhcp.state = .bound then (dhcp, []) else dhcpHandle now dhcp data

/-- `dhcp_fallback_static`. -/
def dhcpFallbackStatic (dhcp : Dhcp) : Dhcp × List DhcpSent :=
  ({ dhcp with state := .bound }, [.arpRequest dhcp.config.gatewayIp])

/-- `dhcp_tick`. -/
def dhcpTick (present : Bool) (now : Tick) (dhcp : Dhcp) : Dhcp × List DhcpSent :=
  if present = false then (dhcp, [])
  else if dhcp.state = .idle then
    let discovering := { dhcp with state := .discover, retries := 0, lastSendTick := now }
    (discovering, discovering.sendDiscover)
  else if dhcp.state = .bound then (dhcp, [])
  else if dhcpRetryMs ≤ now - dhcp.lastSendTick then
    if dhcpMaxRetries < dhcp.retries + 1 then
      dhcpFallbackStatic { dhcp with retries := dhcp.retries + 1 }
    else
      let again := { dhcp with retries := dhcp.retries + 1, lastSendTick := now }
      (again, if dhcp.state = .discover then again.sendDiscover else again.sendRequest)
  else (dhcp, [])

/-! ### The run -/

/-- What can happen to the client. -/
inductive DhcpEvent where
  | packet (data : Bytes)
  | tick (present : Bool)

/-- The client behind an event, and what it sends. -/
def Dhcp.on (now : Tick) (dhcp : Dhcp) : DhcpEvent → Dhcp × List DhcpSent
  | .packet data => dhcpInput now dhcp data
  | .tick present => dhcpTick present now dhcp

/-- Does a packet answer what the client has sent? -/
def Dhcp.answeredBy (dhcp : Dhcp) (data : Bytes) : Bool :=
  dhcp.expects data &&
    (decide (dhcp.state = .discover) && decide (msgType data = dhcpOffer) ||
      decide (dhcp.state = .request) &&
        (decide (msgType data = dhcpAck) || decide (msgType data = dhcpNak)))

/-- The client before and behind the last event, the event and what it sent, and the offer that the
client has taken. -/
structure DhcpRun where
  before : Dhcp
  event : Option DhcpEvent
  dhcp : Dhcp
  sent : List DhcpSent
  offer : Option Bytes

/-- The offer that the client takes with an event. -/
def takenOffer (dhcp : Dhcp) : DhcpEvent → Option Bytes
  | .packet data =>
    if dhcp.expects data = true ∧ dhcp.state = .discover ∧ msgType data = dhcpOffer then some data
    else none
  | .tick _ => none

/-- The state behind an event. -/
def DhcpRun.after (run : DhcpRun) (now : Tick) (event : DhcpEvent) : DhcpRun where
  before := run.dhcp
  event := some event
  dhcp := (run.dhcp.on now event).1
  sent := (run.dhcp.on now event).2
  offer := (takenOffer run.dhcp event).or run.offer

/-- The client at boot, with any transaction and hardware address. -/
def DhcpRun.Initial (run : DhcpRun) : Prop :=
  run.dhcp.state = .idle ∧ run.dhcp.isBound = false ∧ run.dhcp.vars = ⟨0, 0, 0, 0, 0⟩ ∧
    run.before = run.dhcp ∧ run.event = none ∧ run.sent = [] ∧ run.offer = none

/-- The client under packets from any servers and ticks at any time. -/
def dhcpSystem : System DhcpRun (Tick × DhcpEvent) where
  init := DhcpRun.Initial
  step run label next := next = run.after label.1 label.2

/-! ### The law -/

/-- The address that a packet carries in an option. -/
def carriedIp (type : UInt8) (data : Bytes) : Option Ip :=
  (dhcpOptions data).foldl (fun carried option =>
    if option.type = type ∧ 4 ≤ option.length then some (quadAt data option.start)
    else carried) none

/-- The server that a packet names. -/
def namedServer (data : Bytes) : Option Ip := carriedIp 54 data

/-- The value that an offer and its acknowledgment give to a part of the configuration. -/
def exchangeValue (type : UInt8) (offer ack : Bytes) (old : Ip) : Ip :=
  overriding (((carriedIp type ack).or (carriedIp type offer)).getD 0) old

/-- The configuration that an exchange gives. -/
def exchangeConfig (offer ack : Bytes) (old : NetConfig) : NetConfig where
  myIp := yiaddr ack
  gatewayIp := exchangeValue 3 offer ack old.gatewayIp
  dnsServerIp := exchangeValue 6 offer ack old.dnsServerIp
  netmaskIp := exchangeValue 1 offer ack old.netmaskIp

/-- What the client promises of each event. -/
structure DhcpKept (run : DhcpRun) : Prop where
  requests : ∀ xid requestedIp serverId, .request xid requestedIp serverId ∈ run.sent →
    ∃ offer, run.offer = some offer ∧ requestedIp = yiaddr offer ∧
      namedServer offer = some serverId
  applies : (run.dhcp.config = run.before.config ∧ run.dhcp.isBound = run.before.isBound) ∨
    ∃ offer ack server, run.offer = some offer ∧ run.event = some (.packet ack) ∧
      namedServer offer = some server ∧ namedServer ack = some server ∧
      run.dhcp.config = exchangeConfig offer ack run.before.config
  ignores : ∀ data, run.event = some (.packet data) → run.before.answeredBy data = false →
    run.dhcp = run.before ∧ run.sent = []

/-- An acknowledgment comes from the server of the offer, and no value is left over from packets
before the offer that neither of the two carries. -/
def AcksOffer (run : DhcpRun) (data : Bytes) : Prop :=
  namedServer data = some run.dhcp.vars.serverId ∧
    ∀ offer, run.offer = some offer →
      (carriedIp 3 data = none → carriedIp 3 offer = none → run.dhcp.vars.router = 0) ∧
      (carriedIp 6 data = none → carriedIp 6 offer = none → run.dhcp.vars.dns = 0) ∧
      (carriedIp 1 data = none → carriedIp 1 offer = none → run.dhcp.vars.mask = 0)

/-- An offer that is taken names its server, an acknowledgment that is taken comes from that
server, and the options of every other reply are those that the client has already. -/
def OneServer (run : DhcpRun) (label : Tick × DhcpEvent) : Prop :=
  ∀ data, label.2 = .packet data → run.dhcp.state ≠ .bound → run.dhcp.expects data = true →
    (run.dhcp.state = .discover → msgType data = dhcpOffer → (namedServer data).isSome) ∧
    (run.dhcp.state = .request → msgType data = dhcpAck → AcksOffer run data) ∧
    (run.dhcp.answeredBy data = false → run.dhcp.vars.parse data = run.dhcp.vars)

end MectovOS.Net
