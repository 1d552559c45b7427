/-
This file proves that the DHCP client keeps its promises in every run in which
one server answers at a time, and shows a second offer that the client mixes
into its request.
-/

import MectovOS.Net.Dhcp

namespace MectovOS.Net

open Transition

variable {run : DhcpRun} {dhcp : Dhcp} {data : Bytes} {now : Tick} {event : DhcpEvent}

/-! ### The variables behind a packet -/

/-- A variable behind the options is what the last of them carries, or what it was. -/
theorem write_carried (data : Bytes) (options : List DhcpOption) (type : UInt8)
    (value : DhcpVars → Ip)
    (step : ∀ vars option, value (DhcpVars.write data vars option) =
      if option.type = type ∧ 4 ≤ option.length then quadAt data option.start else value vars)
    (vars : DhcpVars) :
    value (options.foldl (DhcpVars.write data) vars) =
      (options.foldl (fun carried option =>
        if option.type = type ∧ 4 ≤ option.length then some (quadAt data option.start)
        else carried) none).getD (value vars) := by
  induction options using List.reverseRecOn with
  | nil => rfl
  | append_singleton options option inductionHypothesis =>
    rw [List.foldl_append, List.foldl_append, List.foldl_cons, List.foldl_nil, List.foldl_cons,
      List.foldl_nil, step]
    split
    · rfl
    · exact inductionHypothesis

theorem parse_serverId (vars : DhcpVars) (data : Bytes) :
    (vars.parse data).serverId = (namedServer data).getD vars.serverId := by
  refine write_carried data (dhcpOptions data) 54 DhcpVars.serverId (fun vars option => ?_) vars
  unfold DhcpVars.write
  grind

theorem parse_router (vars : DhcpVars) (data : Bytes) :
    (vars.parse data).router = (carriedIp 3 data).getD vars.router := by
  refine write_carried data (dhcpOptions data) 3 DhcpVars.router (fun vars option => ?_) vars
  unfold DhcpVars.write
  grind

theorem parse_dns (vars : DhcpVars) (data : Bytes) :
    (vars.parse data).dns = (carriedIp 6 data).getD vars.dns := by
  refine write_carried data (dhcpOptions data) 6 DhcpVars.dns (fun vars option => ?_) vars
  unfold DhcpVars.write
  grind

theorem parse_mask (vars : DhcpVars) (data : Bytes) :
    (vars.parse data).mask = (carriedIp 1 data).getD vars.mask := by
  refine write_carried data (dhcpOptions data) 1 DhcpVars.mask (fun vars option => ?_) vars
  unfold DhcpVars.write
  grind

/-- The variables hold what an offer carries. -/
structure FromOffer (vars : DhcpVars) (offer : Bytes) : Prop where
  server : namedServer offer = some vars.serverId
  address : vars.offeredIp = yiaddr offer
  router : ∀ ip, carriedIp 3 offer = some ip → vars.router = ip
  dns : ∀ ip, carriedIp 6 offer = some ip → vars.dns = ip
  mask : ∀ ip, carriedIp 1 offer = some ip → vars.mask = ip

/-- An offer that names its server fills the variables. -/
theorem fromOffer_parse (vars : DhcpVars) (named : (namedServer data).isSome) :
    FromOffer { vars.parse data with offeredIp := yiaddr data } data := by
  obtain ⟨server, named⟩ := Option.isSome_iff_exists.mp named
  refine ⟨?_, rfl, fun ip carried => ?_, fun ip carried => ?_, fun ip carried => ?_⟩
  · show namedServer data = some (vars.parse data).serverId
    rw [parse_serverId, named]
    rfl
  · show (vars.parse data).router = ip
    rw [parse_router, carried]
    rfl
  · show (vars.parse data).dns = ip
    rw [parse_dns, carried]
    rfl
  · show (vars.parse data).mask = ip
    rw [parse_mask, carried]
    rfl

/-- A value behind the acknowledgment comes from it, from its offer, or is nothing. -/
theorem value_exchange {type : UInt8} {offer ack : Bytes} {value : Ip} (old : Ip)
    (fromOffer : ∀ ip, carriedIp type offer = some ip → value = ip)
    (leftOver : carriedIp type ack = none → carriedIp type offer = none → value = 0) :
    overriding ((carriedIp type ack).getD value) old = exchangeValue type offer ack old := by
  unfold exchangeValue
  cases carried : carriedIp type ack with
  | some ip => rfl
  | none =>
    cases offered : carriedIp type offer with
    | some ip =>
      rw [fromOffer ip offered]
      rfl
    | none =>
      rw [leftOver carried offered]
      rfl

/-! ### What a packet does -/

/-- The client behind an offer that it takes. -/
def Dhcp.offered (dhcp : Dhcp) (now : Tick) (data : Bytes) : Dhcp :=
  { dhcp with
    vars := { dhcp.vars.parse data with offeredIp := yiaddr data }
    state := .request
    retries := 0
    lastSendTick := now }

/-- The client behind the options of a packet. -/
def Dhcp.parsed (dhcp : Dhcp) (data : Bytes) : Dhcp :=
  { dhcp with vars := dhcp.vars.parse data }

/-- The ways in which a packet changes the client. -/
inductive PacketChange (now : Tick) (dhcp : Dhcp) (data : Bytes) : Dhcp × List DhcpSent → Prop
  | ignored : dhcp.answeredBy data = false → takenOffer dhcp (.packet data) = none →
      PacketChange now dhcp data (dhcp, [])
  | parsed : dhcp.state ≠ .bound → dhcp.expects data = true → dhcp.answeredBy data = false →
      takenOffer dhcp (.packet data) = none → PacketChange now dhcp data (dhcp.parsed data, [])
  | offered : dhcp.expects data = true → dhcp.state = .discover → msgType data = dhcpOffer →
      PacketChange now dhcp data (dhcp.offered now data, (dhcp.offered now data).sendRequest)
  | acked {sent : List DhcpSent} : dhcp.expects data = true → dhcp.state = .request →
      msgType data = dhcpAck → (∀ xid ip server, .request xid ip server ∉ sent) →
      PacketChange now dhcp data ((dhcp.parsed data).applyConfig (yiaddr data), sent)
  | refused : dhcp.answeredBy data = true → dhcp.state = .request → msgType data = dhcpNak →
      PacketChange now dhcp data ({ dhcp.parsed data with state := .idle, retries := 0 }, [])

theorem dhcpInput_change (now : Tick) (dhcp : Dhcp) (data : Bytes) :
    PacketChange now dhcp data (dhcpInput now dhcp data) := by
  unfold dhcpInput
  split
  · rename_i bound
    refine .ignored ?_ (if_neg fun taken => ?_)
    · unfold Dhcp.answeredBy
      rw [bound, Bool.and_eq_false_iff]
      exact Or.inr rfl
    · exact absurd (bound.symm.trans taken.2.1) (by decide)
  rename_i notBound
  unfold dhcpHandle
  split
  · rename_i strange
    refine .ignored ?_ (if_neg fun taken => ?_)
    · unfold Dhcp.answeredBy
      rw [strange, Bool.false_and]
    · rw [strange] at taken
      cases taken.1
  rename_i expects
  rw [Bool.not_eq_false] at expects
  simp only
  split
  · rename_i offers
    exact .offered expects offers.2 offers.1
  rename_i notOffer
  split
  · rename_i acks
    refine .acked expects acks.2 acks.1 fun xid ip server member => ?_
    exact DhcpSent.noConfusion (List.mem_singleton.mp member)
  rename_i notAck
  split
  · rename_i refuses
    refine .refused ?_ refuses.2 refuses.1
    unfold Dhcp.answeredBy
    rw [expects, refuses.1, show dhcp.state = .request from refuses.2]
    rfl
  · rename_i notNak
    refine .parsed notBound expects ?_ (if_neg fun taken => notOffer ⟨taken.2.2, taken.2.1⟩)
    unfold Dhcp.answeredBy
    rw [expects, Bool.true_and, Bool.or_eq_false_iff]
    refine ⟨?_, ?_⟩
    · rw [Bool.and_eq_false_iff, decide_eq_false_iff_not, decide_eq_false_iff_not]
      by_cases discovers : dhcp.state = .discover
      · exact Or.inr fun offers => notOffer ⟨offers, discovers⟩
      · exact Or.inl discovers
    · rw [Bool.and_eq_false_iff, decide_eq_false_iff_not, Bool.or_eq_false_iff,
        decide_eq_false_iff_not, decide_eq_false_iff_not]
      by_cases requests : dhcp.state = .request
      · exact Or.inr ⟨fun acks => notAck ⟨acks, requests⟩, fun naks => notNak ⟨naks, requests⟩⟩
      · exact Or.inl requests

/-- The ways in which a tick changes the client. -/
theorem dhcpTick_change (present : Bool) (now : Tick) (dhcp : Dhcp) :
    (dhcpTick present now dhcp).1.vars = dhcp.vars ∧
      (dhcpTick present now dhcp).1.config = dhcp.config ∧
      (dhcpTick present now dhcp).1.isBound = dhcp.isBound ∧
      ((dhcpTick present now dhcp).1.state = .request → dhcp.state = .request) ∧
      ∀ xid ip server, .request xid ip server ∈ (dhcpTick present now dhcp).2 →
        dhcp.state = .request ∧ ip = dhcp.vars.offeredIp ∧ server = dhcp.vars.serverId := by
  unfold dhcpTick
  split
  · exact ⟨rfl, rfl, rfl, id, fun _ _ _ member => absurd member List.not_mem_nil⟩
  split
  · refine ⟨rfl, rfl, rfl, DhcpState.noConfusion, fun _ _ _ member => ?_⟩
    exact DhcpSent.noConfusion (List.mem_singleton.mp member)
  rename_i notIdle
  split
  · exact ⟨rfl, rfl, rfl, id, fun _ _ _ member => absurd member List.not_mem_nil⟩
  rename_i notBound
  split
  · split
    · refine ⟨rfl, rfl, rfl, DhcpState.noConfusion, fun _ _ _ member => ?_⟩
      exact DhcpSent.noConfusion (List.mem_singleton.mp member)
    · refine ⟨rfl, rfl, rfl, id, fun xid ip server member => ?_⟩
      simp only at member
      split at member
      · exact DhcpSent.noConfusion (List.mem_singleton.mp member)
      · rename_i notDiscover
        obtain ⟨_, rfl, rfl⟩ := DhcpSent.request.inj (List.mem_singleton.mp member)
        refine ⟨?_, rfl, rfl⟩
        cases state : dhcp.state with
        | idle => exact absurd state notIdle
        | discover => exact absurd state notDiscover
        | request => rfl
        | bound => exact absurd state notBound
  · exact ⟨rfl, rfl, rfl, id, fun _ _ _ member => absurd member List.not_mem_nil⟩

/-! ### The invariant -/

/-- In the request the variables hold what the offer carries. -/
def DhcpInv (run : DhcpRun) : Prop :=
  run.dhcp.state = .request → ∃ offer, run.offer = some offer ∧ FromOffer run.dhcp.vars offer

theorem after_offer (run : DhcpRun) (now : Tick) (none' : takenOffer run.dhcp event = none) :
    (run.after now event).offer = run.offer := by
  show (takenOffer run.dhcp event).or run.offer = run.offer
  rw [none']
  rfl

/-- A step that leaves the variables keeps the invariant. -/
theorem DhcpInv.same (inv : DhcpInv run) (now : Tick) (none' : takenOffer run.dhcp event = none)
    (vars : (run.dhcp.on now event).1.vars = run.dhcp.vars)
    (requests : (run.dhcp.on now event).1.state = .request → run.dhcp.state = .request) :
    DhcpInv (run.after now event) := by
  intro request
  obtain ⟨offer, offered, holds⟩ := inv (requests request)
  refine ⟨offer, (after_offer run now none').trans offered, ?_⟩
  rw [show (run.after now event).dhcp.vars = run.dhcp.vars from vars]
  exact holds

theorem DhcpInv.tick (inv : DhcpInv run) (now : Tick) (present : Bool) :
    DhcpInv (run.after now (.tick present)) ∧ DhcpKept (run.after now (.tick present)) := by
  obtain ⟨vars, config, isBound, requests, sent⟩ := dhcpTick_change present now run.dhcp
  refine ⟨inv.same now rfl vars requests, fun xid ip server member => ?_,
    Or.inl ⟨config, isBound⟩, fun data is => ?_⟩
  · obtain ⟨requesting, rfl, rfl⟩ := sent xid ip server member
    obtain ⟨offer, offered, holds⟩ := inv requesting
    exact ⟨offer, (after_offer run now rfl).trans offered, holds.address, holds.server⟩
  · cases is

/-- The state behind a packet, by what the packet leaves of the client. -/
def DhcpRun.behind (run : DhcpRun) (data : Bytes) (done : Dhcp × List DhcpSent) : DhcpRun :=
  ⟨run.dhcp, some (.packet data), done.1, done.2, (takenOffer run.dhcp (.packet data)).or run.offer⟩

/-- A packet that leaves the client as it is. -/
theorem DhcpInv.ignored (inv : DhcpInv run) (none' : takenOffer run.dhcp (.packet data) = none) :
    DhcpInv (run.behind data (run.dhcp, [])) ∧ DhcpKept (run.behind data (run.dhcp, [])) := by
  refine ⟨fun requests => ?_, fun _ _ _ member => absurd member List.not_mem_nil,
    Or.inl ⟨rfl, rfl⟩, fun _ _ _ => ⟨rfl, rfl⟩⟩
  obtain ⟨offer, offered, holds⟩ := inv requests
  refine ⟨offer, ?_, holds⟩
  show (takenOffer run.dhcp (.packet data)).or run.offer = some offer
  rw [none']
  exact offered

/-- The offer that is taken, and the request that names it. -/
theorem offered_kept (run : DhcpRun) (now : Tick) (expects : run.dhcp.expects data = true)
    (discovers : run.dhcp.state = .discover) (offers : msgType data = dhcpOffer)
    (named : (namedServer data).isSome) :
    DhcpInv (run.behind data (run.dhcp.offered now data, (run.dhcp.offered now data).sendRequest)) ∧
      DhcpKept
        (run.behind data (run.dhcp.offered now data, (run.dhcp.offered now data).sendRequest)) := by
  have offered : (takenOffer run.dhcp (.packet data)).or run.offer = some data := by
    rw [takenOffer, if_pos ⟨expects, discovers, offers⟩]
    rfl
  have holds := fromOffer_parse run.dhcp.vars named
  refine ⟨fun _ => ⟨data, offered, holds⟩, fun xid ip server member => ?_, Or.inl ⟨rfl, rfl⟩,
    fun other is unanswered => ?_⟩
  · obtain ⟨_, rfl, rfl⟩ := DhcpSent.request.inj (List.mem_singleton.mp member)
    exact ⟨data, offered, holds.address, holds.server⟩
  · obtain rfl := DhcpEvent.packet.inj (Option.some.inj is)
    change run.dhcp.answeredBy data = false at unanswered
    unfold Dhcp.answeredBy at unanswered
    rw [expects, discovers, offers] at unanswered
    cases unanswered

/-- The acknowledgment of the offer, and the configuration that the two give. -/
theorem DhcpInv.acked (inv : DhcpInv run) {sent : List DhcpSent}
    (expects : run.dhcp.expects data = true) (requests : run.dhcp.state = .request)
    (acks : msgType data = dhcpAck) (acksOffer : AcksOffer run data)
    (quiet : ∀ xid ip server, DhcpSent.request xid ip server ∉ sent) :
    DhcpInv (run.behind data ((run.dhcp.parsed data).applyConfig (yiaddr data), sent)) ∧
      DhcpKept (run.behind data ((run.dhcp.parsed data).applyConfig (yiaddr data), sent)) := by
  obtain ⟨offer, offered, holds⟩ := inv requests
  obtain ⟨named, leftOver⟩ := acksOffer
  obtain ⟨router, dns, mask⟩ := leftOver offer offered
  have none' : (takenOffer run.dhcp (.packet data)).or run.offer = run.offer := by
    rw [takenOffer, if_neg fun taken => absurd (requests.symm.trans taken.2.1) (by decide)]
    rfl
  refine ⟨DhcpState.noConfusion, fun xid ip server member => absurd member (quiet xid ip server),
    Or.inr ⟨offer, data, run.dhcp.vars.serverId, none'.trans offered, rfl, holds.server, named, ?_⟩,
    fun other is unanswered => ?_⟩
  · show NetConfig.mk (yiaddr data) (overriding (run.dhcp.vars.parse data).router _)
      (overriding (run.dhcp.vars.parse data).dns _) (overriding (run.dhcp.vars.parse data).mask _) =
      NetConfig.mk (yiaddr data) (exchangeValue 3 offer data _) (exchangeValue 6 offer data _)
        (exchangeValue 1 offer data _)
    rw [parse_router, parse_dns, parse_mask, value_exchange _ holds.router router,
      value_exchange _ holds.dns dns, value_exchange _ holds.mask mask]
    rfl
  · obtain rfl := DhcpEvent.packet.inj (Option.some.inj is)
    change run.dhcp.answeredBy data = false at unanswered
    unfold Dhcp.answeredBy at unanswered
    rw [expects, requests, acks] at unanswered
    cases unanswered

theorem DhcpInv.packet (inv : DhcpInv run) (now : Tick)
    (oneServer : OneServer run (now, .packet data)) :
    DhcpInv (run.after now (.packet data)) ∧ DhcpKept (run.after now (.packet data)) := by
  have change := dhcpInput_change now run.dhcp data
  show DhcpInv (run.behind data (dhcpInput now run.dhcp data)) ∧
    DhcpKept (run.behind data (dhcpInput now run.dhcp data))
  generalize dhcpInput now run.dhcp data = done at change
  cases change with
  | ignored unanswered none' => exact inv.ignored none'
  | parsed notBound expects unanswered none' =>
    have same : run.dhcp.parsed data = run.dhcp := by
      unfold Dhcp.parsed
      rw [(oneServer data rfl notBound expects).2.2 unanswered]
    rw [same]
    exact inv.ignored none'
  | offered expects discovers offers =>
    have notBound : run.dhcp.state ≠ .bound := by
      rw [discovers]
      decide
    exact offered_kept run now expects discovers offers
      ((oneServer data rfl notBound expects).1 discovers offers)
  | acked expects requests acks quiet =>
    have notBound : run.dhcp.state ≠ .bound := by
      rw [requests]
      decide
    exact inv.acked expects requests acks ((oneServer data rfl notBound expects).2.1 requests acks)
      quiet
  | refused answered requests naks =>
    refine ⟨DhcpState.noConfusion, fun _ _ _ member => absurd member List.not_mem_nil,
      Or.inl ⟨rfl, rfl⟩, fun other is unanswered => ?_⟩
    obtain rfl := DhcpEvent.packet.inj (Option.some.inj is)
    exact absurd (answered.symm.trans unanswered) (by decide)

/-- In every run in which one server answers at a time, the client keeps its promises. -/
theorem dhcp_kept (reachable : dhcpSystem.Reachable OneServer run) : DhcpKept run := by
  refine And.right (reachable.invariant (fun run => DhcpInv run ∧ DhcpKept run) ?_ ?_)
  · rintro run ⟨idle, _, _, same, event, sent, _⟩
    refine ⟨fun requests => absurd (idle.symm.trans requests) (by decide),
      fun _ _ _ member => ?_, Or.inl ⟨by rw [same], by rw [same]⟩, fun data is => ?_⟩
    · rw [sent] at member
      exact absurd member List.not_mem_nil
    · exact absurd (event.symm.trans is) (Option.some_ne_none _).symm
  · rintro run ⟨now, event⟩ next ⟨inv, _⟩ oneServer rfl
    cases event with
    | packet data => exact inv.packet now oneServer
    | tick present => exact inv.tick now present

/-! ### Two runs -/

/-- A reply of transaction 0 with message type `type`, the address `last` and options. -/
def dhcpReply (type last : UInt8) (options : Bytes) : Bytes :=
  2 :: List.replicate 15 0 ++ [10, 0, 0, last] ++ List.replicate 216 0 ++ [0x63, 0x82, 0x53, 0x63] ++
    [53, 1, type] ++ options ++ [255]

/-- The client of transaction 0 whose hardware address is zero. -/
def dhcpStart : Dhcp :=
  ⟨.idle, 0, [0, 0, 0, 0, 0, 0], 0, 0, ⟨0, 0, 0, 0, 0⟩, ⟨0, 0, 0, 0⟩, false⟩

def dhcpBoot : DhcpRun := ⟨dhcpStart, none, dhcpStart, [], none⟩

theorem dhcpBoot_initial : dhcpBoot.Initial := ⟨rfl, rfl, rfl, rfl, rfl, rfl, rfl⟩

/-- The server 1 offers an address and a router and acknowledges them, and the server 2 offers
another address. -/
def firstOffer : Bytes := dhcpReply 2 5 [54, 4, 10, 0, 0, 1, 3, 4, 10, 0, 0, 1]
def firstAck : Bytes := dhcpReply 5 5 [54, 4, 10, 0, 0, 1]
def secondOffer : Bytes := dhcpReply 2 9 [54, 4, 10, 0, 0, 2]

def discovering : DhcpRun := dhcpBoot.after 0 (.tick true)
def requesting : DhcpRun := discovering.after 0 (.packet firstOffer)
def bound : DhcpRun := requesting.after 0 (.packet firstAck)

theorem firstOffer_taken : (namedServer firstOffer).isSome = true ∧
    discovering.dhcp.state = .discover ∧ discovering.dhcp.answeredBy firstOffer = true := by
  decide +kernel

theorem firstAck_taken : namedServer firstAck = some requesting.dhcp.vars.serverId ∧
    requesting.dhcp.state = .request ∧ requesting.dhcp.answeredBy firstAck = true ∧
    carriedIp 3 firstOffer ≠ none ∧ requesting.dhcp.vars.dns = 0 ∧
    requesting.dhcp.vars.mask = 0 := by decide +kernel

theorem requesting_offer : requesting.offer = some firstOffer := by decide +kernel

/-- One server offers a lease and acknowledges it. -/
theorem dhcp_kept_bound : bound.dhcp.config = ⟨0x0A000005, 0x0A000001, 0, 0⟩ ∧ DhcpKept bound := by
  obtain ⟨named, discovers, offered⟩ := firstOffer_taken
  obtain ⟨sameServer, requests, acked, router, dns, mask⟩ := firstAck_taken
  have initial : dhcpSystem.Reachable OneServer dhcpBoot := .init dhcpBoot_initial
  have start : dhcpSystem.Reachable OneServer discovering := initial.step
    (show OneServer dhcpBoot (0, .tick true) from fun _ is => DhcpEvent.noConfusion is) rfl
  have request : dhcpSystem.Reachable OneServer requesting := start.step
    (show OneServer discovering (0, .packet firstOffer) from fun data is _ _ => by
      obtain rfl := DhcpEvent.packet.inj is
      exact ⟨fun _ _ => named, fun requests => absurd (discovers.symm.trans requests) (by decide),
        fun unanswered => absurd (offered.symm.trans unanswered) (by decide)⟩) rfl
  have leased : dhcpSystem.Reachable OneServer bound := request.step
    (show OneServer requesting (0, .packet firstAck) from fun data is _ _ => by
      obtain rfl := DhcpEvent.packet.inj is
      refine ⟨fun discovers => absurd (requests.symm.trans discovers) (by decide),
        fun _ _ => ⟨sameServer, fun offer taken => ?_⟩,
        fun unanswered => absurd (acked.symm.trans unanswered) (by decide)⟩
      obtain rfl := Option.some.inj (requesting_offer.symm.trans taken)
      exact ⟨fun _ missing => absurd missing router, fun _ _ => dns, fun _ _ => mask⟩) rfl
  exact ⟨by decide +kernel, dhcp_kept leased⟩

/-- The offer of the second server comes late, and the request is sent again. -/
def mixed : DhcpRun := requesting.after 0 (.packet secondOffer)
def resent : DhcpRun := mixed.after 1000 (.tick true)

theorem resent_mixes : resent.sent = [.request 0 0x0A000005 0x0A000002] ∧
    resent.offer = some firstOffer ∧ namedServer firstOffer = some 0x0A000001 := by decide +kernel

/-- The request names the address of the first offer and the server of the second. -/
theorem lateOffer_mixes : ¬ ∀ run, dhcpSystem.Reachable anyStep run → DhcpKept run := by
  intro kept
  have initial : dhcpSystem.Reachable anyStep dhcpBoot := .init dhcpBoot_initial
  have start : dhcpSystem.Reachable anyStep discovering := initial.step
    (show anyStep dhcpBoot (0, .tick true) from trivial) rfl
  have request : dhcpSystem.Reachable anyStep requesting := start.step
    (show anyStep discovering (0, .packet firstOffer) from trivial) rfl
  have late : dhcpSystem.Reachable anyStep mixed := request.step
    (show anyStep requesting (0, .packet secondOffer) from trivial) rfl
  have again : dhcpSystem.Reachable anyStep resent := late.step
    (show anyStep mixed (1000, .tick true) from trivial) rfl
  obtain ⟨sent, offered, named⟩ := resent_mixes
  have member : DhcpSent.request 0 0x0A000005 0x0A000002 ∈ resent.sent := by
    rw [sent]
    exact List.mem_singleton_self _
  obtain ⟨offer, taken, _, server⟩ := (kept resent again).requests _ _ _ member
  obtain rfl := Option.some.inj (offered.symm.trans taken)
  exact absurd (named.symm.trans server) (by decide)

end MectovOS.Net
