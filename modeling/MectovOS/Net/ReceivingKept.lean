/-
This file proves that the receiver keeps its promises in every run whose FINs
come in order, and shows a FIN ahead of data that ends the stream early.
-/

import MectovOS.Net.Receiving

namespace MectovOS.Net

open Transition

variable {env : Env} {conn next : TcpConn} {segment : Segment} {peer : Peer} {state : RecvState}

/-! ### The close -/

/-- What the end of a segment does to the receive side: nothing, or the FIN is taken in. -/
theorem closeInput_recv (env : Env) (conn : TcpConn) (segment : Segment) (live : Live conn) :
    (SameRecv conn (closeInput env conn segment).1 ∧ Live (closeInput env conn segment).1) ∨
    (segment.flags.fin = true ∧ (conn.state = .established ∨ conn.state = .closeWait) ∧
      (closeInput env conn segment).1.rx = conn.rx ∧
      (closeInput env conn segment).1.ack = finNumber segment ∧
      (closeInput env conn segment).1.eof = true ∧ Live (closeInput env conn segment).1) ∨
    (segment.flags.fin = true ∧ conn.state = .finWait2 ∧
      (closeInput env conn segment).1.rx = conn.rx ∧
      (closeInput env conn segment).1.ack = finNumber segment ∧
      (closeInput env conn segment).1.eof = conn.eof ∧
      (closeInput env conn segment).1.inUse = false) := by
  have free : ∀ {other : TcpConn}, other.inUse = false → Live other := by
    intro other free used
    rw [free] at used
    exact absurd used (by simp)
  unfold closeInput
  split
  · split
    · exact Or.inl ⟨⟨rfl, rfl, rfl⟩, free rfl⟩
    · rename_i fin
      rcases peerFin_recv env { conn with state := .finWait2 } segment with
        ⟨same, state, inUse⟩ | ⟨fin', _⟩ | ⟨fin', _⟩
      · refine Or.inl ⟨⟨same.rx, same.ack, same.eof⟩, fun _ => ?_⟩
        rw [state]
        exact ⟨TcpState.noConfusion, TcpState.noConfusion, TcpState.noConfusion⟩
      · exact absurd fin' fin
      · exact absurd fin' fin
  split
  · exact Or.inl ⟨⟨rfl, rfl, rfl⟩, free rfl⟩
  · rcases peerFin_recv env conn segment with ⟨same, state, inUse⟩ |
      ⟨fin, open', rx, ack, eof, state, inUse⟩ | ⟨fin, waits, rx, ack, eof, freed⟩
    · exact Or.inl ⟨same, live.of_same inUse state⟩
    · refine Or.inr (Or.inl ⟨fin, open', rx, ack, eof, fun _ => ?_⟩)
      rw [state]
      exact ⟨TcpState.noConfusion, TcpState.noConfusion, TcpState.noConfusion⟩
    · exact Or.inr (Or.inr ⟨fin, waits, rx, ack, eof, freed⟩)

theorem clearUnacked_recv (conn : TcpConn) (segment : Segment) :
    SameRecv conn (clearUnacked conn segment) ∧ (clearUnacked conn segment).state = conn.state ∧
      (clearUnacked conn segment).inUse = conn.inUse := by
  unfold clearUnacked
  split
  · exact ⟨⟨rfl, rfl, rfl⟩, rfl, rfl⟩
  · exact ⟨.refl conn, rfl, rfl⟩

/-! ### The stream -/

theorem Peer.slice_append (peer : Peer) (first second : Nat) :
    peer.slice 0 (first + second) = peer.slice 0 first ++ peer.slice first second := by
  unfold Peer.slice
  rw [List.range_add, List.map_append, List.map_map]
  congr 1
  refine List.map_congr_left fun index _ => ?_
  simp only [Function.comp_apply, Nat.zero_add]

theorem Peer.slice_length (peer : Peer) (offset count : Nat) :
    (peer.slice offset count).length = count := by
  unfold Peer.slice
  rw [List.length_map, List.length_range]

theorem Peer.slice_take (peer : Peer) {front back : Bytes} {count : Nat}
    (is : front ++ back = peer.slice 0 count) : front = peer.slice 0 front.length := by
  have length := congrArg List.length is
  rw [List.length_append, peer.slice_length] at length
  rw [← length, peer.slice_append] at is
  exact (List.append_inj is (peer.slice_length 0 front.length).symm).1

theorem Peer.number_add (peer : Peer) (offset count : Nat) :
    peer.number offset + BitVec.ofNat 32 count = peer.number (offset + count) := by
  unfold Peer.number
  rw [BitVec.ofNat_add, BitVec.add_assoc]

/-! ### The invariant -/

structure RecvInv (peer : Peer) (state : RecvState) : Prop where
  live : Live state.conn
  stream : state.taken ++ state.conn.rx = peer.slice 0 state.stored
  within : ∀ last, peer.last = some last → state.stored ≤ last
  ended : state.conn.eof = true → peer.last = some state.stored
  acknowledged : state.conn.ack = peer.number state.stored + (if state.conn.eof then 1 else 0) ∨
    (state.conn.inUse = false ∧ peer.last = some state.stored ∧
      state.conn.ack = peer.number state.stored + 1)

theorem RecvInv.kept (inv : RecvInv peer state)
    (ended : state.answer = some (.code (-1)) → peer.last = some state.taken.length) :
    StreamKept peer state := by
  refine ⟨peer.slice_take inv.stream, fun last is => ?_, ended, ?_⟩
  · exact Nat.le_trans (Nat.le_add_right _ _) (inv.within last is)
  · rcases inv.acknowledged with is | ⟨_, last, is⟩
    · cases eof : state.conn.eof with
      | true =>
        rw [eof, if_pos rfl] at is
        exact Or.inr ⟨inv.ended eof, is⟩
      | false =>
        rw [eof, if_neg (by decide)] at is
        exact Or.inl (is.trans (BitVec.add_zero _))
    · exact Or.inr ⟨last, is⟩

/-- An event that neither stores nor reads. -/
theorem RecvInv.quiet (inv : RecvInv peer state) (used : state.conn.inUse = true)
    {other : RecvState} (same : SameRecv state.conn other.conn) (live : Live other.conn)
    (taken : other.taken = state.taken) : RecvInv peer other := by
  have stored : other.stored = state.stored := by
    unfold RecvState.stored
    rw [taken, same.rx]
  have acknowledged := inv.acknowledged.resolve_right fun freed => by
    rw [used] at freed
    exact absurd freed.1 (by simp)
  refine ⟨live, by rw [taken, same.rx, stored]; exact inv.stream, by rw [stored]; exact inv.within,
    by rw [stored, same.eof]; exact inv.ended, Or.inl ?_⟩
  rw [stored, same.ack, same.eof]
  exact acknowledged

/-! ### Steps -/

theorem tcpSend_recv (env : Env) (conn : TcpConn) (payload : Bytes) :
    SameRecv conn (tcpSend env conn payload).2.1 ∧
      (tcpSend env conn payload).2.1.state = conn.state ∧
      (tcpSend env conn payload).2.1.inUse = conn.inUse := by
  unfold tcpSend
  split
  · exact ⟨.refl conn, rfl, rfl⟩
  split
  · exact ⟨.refl conn, rfl, rfl⟩
  · obtain ⟨same, state, inUse⟩ := sendSegment_recv env
      { conn with
        unackedSeq := conn.seq
        unackedLen := (payload.take sendLimit).length
        retransCount := 0
        txPending := if payload.take sendLimit = [] then conn.txPending
          else payload.take sendLimit } .data (payload.take sendLimit)
    exact ⟨⟨same.rx, same.ack, same.eof⟩, state, inUse⟩

theorem tcpClose_recv (env : Env) (conn : TcpConn) :
    SameRecv conn (tcpClose env conn).1 ∧ Live (tcpClose env conn).1 := by
  obtain ⟨same, _, _⟩ := sendSegment_recv env conn .finAck []
  unfold tcpClose
  split
  · exact ⟨⟨same.rx, same.ack, same.eof⟩,
      fun _ => ⟨TcpState.noConfusion, TcpState.noConfusion, TcpState.noConfusion⟩⟩
  split
  · exact ⟨⟨same.rx, same.ack, same.eof⟩,
      fun _ => ⟨TcpState.noConfusion, TcpState.noConfusion, TcpState.noConfusion⟩⟩
  · exact ⟨⟨rfl, rfl, rfl⟩, fun used => absurd used (by simp [TcpConn.freed])⟩

theorem tcpSweep_recv (env : Env) (conn : TcpConn) (live : Live conn) :
    SameRecv conn (tcpSweep env conn).1 ∧ Live (tcpSweep env conn).1 := by
  unfold tcpSweep
  split
  · split
    · exact ⟨⟨rfl, rfl, rfl⟩, fun used => absurd used (by simp [TcpConn.freed])⟩
    · exact ⟨.refl conn, live⟩
  split
  · obtain ⟨same, state, inUse⟩ := sendSegment_recv env
      { conn with retransCount := conn.retransCount + 1, seq := conn.unackedSeq } .data
      conn.txPending
    exact ⟨⟨same.rx, same.ack, same.eof⟩, live.of_same inUse state⟩
  · exact ⟨.refl conn, live⟩

/-- A read takes bytes off the buffer, or it tells the end when the buffer is empty. -/
theorem tcpRecv_recv (env : Env) (conn : TcpConn) (maxLen : Nat) :
    conn.rx = (tcpRecv env conn maxLen).1.content ++ (tcpRecv env conn maxLen).2.1.rx ∧
      (tcpRecv env conn maxLen).2.1.ack = conn.ack ∧
      (tcpRecv env conn maxLen).2.1.eof = conn.eof ∧
      (tcpRecv env conn maxLen).2.1.state = conn.state ∧
      (tcpRecv env conn maxLen).2.1.inUse = conn.inUse ∧
      ((tcpRecv env conn maxLen).1 = .code (-1) →
        conn.state = .closed ∨ (conn.rx = [] ∧ conn.eof = true)) := by
  unfold tcpRecv
  split
  · rename_i closed
    exact ⟨rfl, rfl, rfl, rfl, rfl, fun _ => Or.inl closed⟩
  split
  · rename_i empty
    refine ⟨rfl, rfl, rfl, rfl, rfl, fun is => Or.inr ⟨empty, ?_⟩⟩
    by_contra more
    rw [if_neg more] at is
    exact absurd (Received.code.inj is) (by decide)
  simp only
  split
  · obtain ⟨same, state, inUse⟩ := sendSegment_recv env { conn with rx := conn.rx.drop maxLen }
      .ackOnly []
    refine ⟨?_, same.ack, same.eof, state, inUse, fun is => by cases is⟩
    rw [same.rx]
    exact (List.take_append_drop maxLen conn.rx).symm
  · exact ⟨(List.take_append_drop maxLen conn.rx).symm, rfl, rfl, rfl, rfl,
      fun is => by cases is⟩

theorem number_ne_succ (number : Seq) : number ≠ number + 1 := by
  bv_omega

/-- The state with another connection. -/
def RecvState.withConn (state : RecvState) (conn : TcpConn) : RecvState :=
  { state with conn := conn, answer := none }

/-- Data is stored when it is the next of the stream. -/
theorem RecvInv.append (inv : RecvInv peer state) (used : state.conn.inUse = true) {offset : Nat}
    (sends : peer.Sends segment offset)
    (next' : segment.payload ≠ [] → segment.seq = state.conn.ack → offset = state.stored)
    (fits : segment.flags.fin = true → state.conn.state = .established ∨
      state.conn.state = .closeWait → offset + segment.payload.length = state.stored ∨
        (offset = state.stored ∧
          state.conn.rx.length + segment.payload.length ≤ tcpConnBuf))
    (waits : segment.flags.fin = true → state.conn.state = .finWait2 →
      offset + segment.payload.length = state.stored) :
    RecvInv peer (state.withConn (appendData env state.conn segment).1) ∧
      (appendData env state.conn segment).1.state = state.conn.state ∧
      (appendData env state.conn segment).1.inUse = true ∧
      (segment.flags.fin = true → (state.conn.state = .established ∨
          state.conn.state = .closeWait) ∨ state.conn.state = .finWait2 →
        offset + segment.payload.length =
          (state.withConn (appendData env state.conn segment).1).stored) := by
  obtain ⟨sameState, inUse, eof, effect⟩ := appendData_recv env state.conn segment
  have live := inv.live.of_same inUse sameState
  have acknowledged := inv.acknowledged.resolve_right fun freed => by
    rw [used] at freed
    exact absurd freed.1 (by simp)
  by_cases stores : segment.payload ≠ [] ∧
      (state.conn.state = .established ∨ state.conn.state = .closeWait) ∧
      segment.seq = state.conn.ack ∧
      state.conn.rx.length + segment.payload.length ≤ tcpConnBuf
  · rw [if_pos stores] at effect
    obtain ⟨data, open', expected, room⟩ := stores
    obtain ⟨rx, ack⟩ := effect
    have here := next' data expected
    have number := sends.number (Or.inl data)
    have notEnded : state.conn.eof = false := by
      by_contra ended
      rw [Bool.not_eq_false] at ended
      rw [ended, if_pos rfl, ← expected, number, here] at acknowledged
      exact number_ne_succ _ acknowledged
    have stored : (state.withConn (appendData env state.conn segment).1).stored =
        state.stored + segment.payload.length := by
      show state.taken.length + (appendData env state.conn segment).1.rx.length = _
      rw [rx, List.length_append, ← Nat.add_assoc]
      rfl
    refine ⟨⟨live, ?_, fun last is => ?_, fun ended => ?_, Or.inl ?_⟩, sameState,
      inUse.trans used, fun _ _ => by rw [stored, here]⟩
    · rw [stored, peer.slice_append, ← inv.stream]
      show state.taken ++ (appendData env state.conn segment).1.rx = _
      rw [rx, ← List.append_assoc, sends.payload data, here, peer.slice_length]
    · rw [stored, ← here]
      exact sends.within last is data
    · rw [show (appendData env state.conn segment).1.eof = true from ended] at eof
      rw [notEnded] at eof
      exact absurd eof (by simp)
    · show (appendData env state.conn segment).1.ack = _ +
        (if (appendData env state.conn segment).1.eof then 1 else 0)
      rw [ack, eof, notEnded, if_neg (by decide), stored, number, here, peer.number_add]
      exact (BitVec.add_zero _).symm
  · rw [if_neg stores] at effect
    have stored : (state.withConn (appendData env state.conn segment).1).stored =
        state.stored := by
      show state.taken.length + (appendData env state.conn segment).1.rx.length = _
      rw [effect.1]
      rfl
    refine ⟨inv.quiet used ⟨effect.1, effect.2, eof⟩ live rfl, sameState, inUse.trans used,
      fun fin which => ?_⟩
    rw [stored]
    rcases which with open' | waiting
    · rcases fits fin open' with is | ⟨here, room⟩
      · exact is
      · by_cases data : segment.payload = []
        · rw [data, here]
          rfl
        · refine absurd ⟨data, open', ?_, room⟩ stores
          have number := sends.number (Or.inl data)
          have last := sends.fin fin
          have notEnded : state.conn.eof = false := by
            by_contra ended
            rw [Bool.not_eq_false] at ended
            have length := Option.some.inj (last.symm.trans (inv.ended ended))
            have positive := List.length_pos_iff.mpr data
            omega
          rw [notEnded, if_neg (by decide)] at acknowledged
          rw [number, acknowledged, here]
          exact (BitVec.add_zero _).symm
    · exact waits fin waiting

/-- The FIN is taken in behind the last byte that is stored. -/
theorem RecvInv.close (inv : RecvInv peer state) (used : state.conn.inUse = true) {offset : Nat}
    (sends : peer.Sends segment offset)
    (ends : segment.flags.fin = true → (state.conn.state = .established ∨
        state.conn.state = .closeWait) ∨ state.conn.state = .finWait2 →
      offset + segment.payload.length = state.stored) :
    RecvInv peer (state.withConn (closeInput env state.conn segment).1) := by
  have behind : segment.flags.fin = true → offset + segment.payload.length = state.stored →
      finNumber segment = peer.number state.stored + 1 ∧ peer.last = some state.stored := by
    intro fin here
    unfold finNumber
    rw [sends.number (Or.inr fin), peer.number_add, here]
    exact ⟨rfl, by rw [sends.fin fin, here]⟩
  rcases closeInput_recv env state.conn segment inv.live with ⟨same, live⟩ |
    ⟨fin, open', rx, ack, eof, live⟩ | ⟨fin, waits, rx, ack, eof, freed⟩
  · exact inv.quiet used same live rfl
  · obtain ⟨number, last⟩ := behind fin (ends fin (Or.inl open'))
    have stored : (state.withConn (closeInput env state.conn segment).1).stored =
        state.stored := by
      show state.taken.length + (closeInput env state.conn segment).1.rx.length = _
      rw [rx]
      rfl
    refine ⟨live, ?_, by rw [stored]; exact inv.within, fun _ => by rw [stored]; exact last,
      Or.inl ?_⟩
    · rw [stored, ← inv.stream]
      show state.taken ++ (closeInput env state.conn segment).1.rx = _
      rw [rx]
    · show (closeInput env state.conn segment).1.ack = _ +
        (if (closeInput env state.conn segment).1.eof then 1 else 0)
      rw [ack, eof, if_pos rfl, stored, number]
  · obtain ⟨number, last⟩ := behind fin (ends fin (Or.inr waits))
    have stored : (state.withConn (closeInput env state.conn segment).1).stored =
        state.stored := by
      show state.taken.length + (closeInput env state.conn segment).1.rx.length = _
      rw [rx]
      rfl
    refine ⟨fun again => ?_, ?_, by rw [stored]; exact inv.within,
      fun _ => by rw [stored]; exact last, Or.inr ⟨freed, by rw [stored]; exact last, ?_⟩⟩
    · exact absurd (freed.symm.trans again) (by simp)
    · rw [stored, ← inv.stream]
      show state.taken ++ (closeInput env state.conn segment).1.rx = _
      rw [rx]
    · rw [stored]
      exact ack.trans number

/-- A segment in order keeps the invariant. -/
theorem RecvInv.input (inv : RecvInv peer state) (used : state.conn.inUse = true)
    {offset : Nat} (sends : segment.valid = true → peer.Sends segment offset)
    (inOrder : FinInOrder state ⟨env, .segment segment, offset⟩) :
    RecvInv peer (state.after env (.segment segment)) := by
  have taken : (state.after env (.segment segment)).taken = state.taken := List.append_nil _
  have still : tcpInput env state.conn segment = (state.conn, []) →
      RecvInv peer (state.after env (.segment segment)) := by
    intro same
    have conn : (state.after env (.segment segment)).conn = state.conn := congrArg Prod.fst same
    refine inv.quiet used ?_ ?_ taken
    · rw [conn]
      exact .refl state.conn
    · rw [conn]
      exact inv.live
  obtain ⟨notSent, notRcvd, _⟩ := inv.live used
  by_cases long : tcpLenMax < segment.length
  · exact still (if_pos long)
  by_cases invalid : segment.valid = false
  · exact still (by unfold tcpInput; rw [if_neg long, if_pos invalid])
  have valid := Bool.not_eq_false _ ▸ invalid
  have sent := sends valid
  have here : tcpInput env state.conn segment = dataInput env state.conn segment := by
    unfold tcpInput
    rw [if_neg long, if_neg invalid, if_neg (by rw [sent.reset]; decide), if_neg notSent,
      if_neg notRcvd]
  by_cases broken : segment.headerLen < tcpHeaderSize ∨ segment.length < segment.headerLen
  · exact still (here.trans (if_pos broken))
  obtain ⟨next', fin⟩ := inOrder segment rfl valid
  obtain ⟨same, sameState, inUse⟩ := clearUnacked_recv state.conn segment
  have cleared : RecvInv peer (state.withConn (clearUnacked state.conn segment)) :=
    inv.quiet used same (inv.live.of_same inUse sameState) rfl
  have stored : (state.withConn (clearUnacked state.conn segment)).stored = state.stored := by
    show state.taken.length + (clearUnacked state.conn segment).rx.length = _
    rw [same.rx]
    rfl
  obtain ⟨appended, kept, used', ends⟩ := @RecvInv.append env _ _ _ cleared
    (inUse.trans used) _ sent
    (fun data expected => by rw [stored]; exact next' data (expected.trans same.ack))
    (fun final open' => by
      rw [stored]
      rw [show (state.withConn (clearUnacked state.conn segment)).conn.state =
        state.conn.state from sameState] at open'
      rw [show (state.withConn (clearUnacked state.conn segment)).conn.rx =
        state.conn.rx from same.rx]
      exact (fin final).1 open')
    (fun final waits => by
      rw [stored]
      exact (fin final).2 (sameState.symm.trans waits))
  have closed := @RecvInv.close env _ _ _ appended used' _ sent fun final which => by
    refine ends final ?_
    rw [show ((state.withConn (clearUnacked state.conn segment)).withConn
      (appendData env (state.withConn (clearUnacked state.conn segment)).conn segment).1).conn.state =
      (state.withConn (clearUnacked state.conn segment)).conn.state from kept] at which
    exact which
  have is : (state.after env (.segment segment)).conn =
      (closeInput env (appendData env (clearUnacked state.conn segment) segment).1 segment).1 := by
    show (tcpInput env state.conn segment).1 = _
    rw [here]
    unfold dataInput
    rw [if_neg broken]
  have whole : state.after env (.segment segment) =
      state.withConn
        (closeInput env (appendData env (clearUnacked state.conn segment) segment).1 segment).1 :=
    RecvState.ext is taken rfl
  rw [whole]
  exact closed

/-- A read moves bytes from the buffer to the owner. -/
theorem RecvInv.read (inv : RecvInv peer state) (used : state.conn.inUse = true) (maxLen : Nat) :
    RecvInv peer (state.after env (.recv maxLen)) ∧
      ((state.after env (.recv maxLen)).answer = some (.code (-1)) →
        peer.last = some (state.after env (.recv maxLen)).taken.length) := by
  obtain ⟨split', ack, eof, sameState, inUse, ends⟩ := tcpRecv_recv env state.conn maxLen
  have moved : (state.after env (.recv maxLen)).taken ++
      (state.after env (.recv maxLen)).conn.rx = state.taken ++ state.conn.rx := by
    show (state.taken ++ (tcpRecv env state.conn maxLen).1.content) ++
      (tcpRecv env state.conn maxLen).2.1.rx = _
    rw [List.append_assoc, ← split']
  have stored : (state.after env (.recv maxLen)).stored = state.stored := by
    have length := congrArg List.length moved
    rwa [List.length_append, List.length_append] at length
  have acknowledged := inv.acknowledged.resolve_right fun freed => by
    rw [used] at freed
    exact absurd freed.1 (by simp)
  have inv' : RecvInv peer (state.after env (.recv maxLen)) := by
    refine ⟨inv.live.of_same inUse sameState, by rw [moved, stored]; exact inv.stream,
      by rw [stored]; exact inv.within, fun ended => ?_, Or.inl ?_⟩
    · rw [stored]
      exact inv.ended (eof.symm.trans ended)
    · show (tcpRecv env state.conn maxLen).2.1.ack = _ +
        (if (tcpRecv env state.conn maxLen).2.1.eof then 1 else 0)
      rw [ack, eof, stored]
      exact acknowledged
  refine ⟨inv', fun is => ?_⟩
  have code : (tcpRecv env state.conn maxLen).1 = .code (-1) := Option.some.inj is
  obtain ⟨empty, ended⟩ := (ends code).resolve_left fun closed => (inv.live used).2.2 closed
  have last := inv.ended ended
  rw [last, ← stored]
  refine congrArg some ?_
  show _ + (tcpRecv env state.conn maxLen).2.1.rx.length = _
  rw [empty] at split'
  rw [(List.append_eq_nil_iff.mp split'.symm).2]
  rfl

/-- In every run whose FINs come in order, the receiver keeps its promises. -/
theorem stream_kept (reachable : (recvSystem peer).Reachable FinInOrder state) :
    StreamKept peer state := by
  refine And.right (reachable.invariant
    (fun state => RecvInv peer state ∧ StreamKept peer state) ?_ ?_)
  · rintro state ⟨_, established, rx, eof, ack, taken, answer⟩
    have stored : state.stored = 0 := by
      unfold RecvState.stored
      rw [rx, taken]
      rfl
    have inv : RecvInv peer state := by
      refine ⟨fun _ => ?_, ?_, fun last _ => ?_, fun ended => ?_, Or.inl ?_⟩
      · rw [established]
        exact ⟨TcpState.noConfusion, TcpState.noConfusion, TcpState.noConfusion⟩
      · rw [stored, rx, taken]
        rfl
      · rw [stored]
        exact Nat.zero_le last
      · rw [eof] at ended
        exact absurd ended (by simp)
      · rw [stored, eof, ack]
        exact (BitVec.add_zero _).symm
    refine ⟨inv, inv.kept fun is => ?_⟩
    rw [answer] at is
    exact absurd is (by simp)
  · rintro state ⟨env, event, offset⟩ next ⟨inv, _⟩ inOrder ⟨used, sends, rfl⟩
    have silent : ∀ {other : RecvState}, RecvInv peer other → other.answer = none →
        RecvInv peer other ∧ StreamKept peer other := by
      intro other inv' none'
      refine ⟨inv', inv'.kept fun is => ?_⟩
      rw [none'] at is
      exact absurd is (by simp)
    cases event with
    | send payload =>
      obtain ⟨same, sameState, inUse⟩ := tcpSend_recv env state.conn payload
      exact silent (inv.quiet used same (inv.live.of_same inUse sameState) (List.append_nil _)) rfl
    | recv maxLen =>
      obtain ⟨inv', ended⟩ := @RecvInv.read env _ _ inv used maxLen
      exact ⟨inv', inv'.kept ended⟩
    | close =>
      obtain ⟨same, live⟩ := tcpClose_recv env state.conn
      exact silent (inv.quiet used same live (List.append_nil _)) rfl
    | sweep =>
      obtain ⟨same, live⟩ := tcpSweep_recv env state.conn inv.live
      exact silent (inv.quiet used same live (List.append_nil _)) rfl
    | segment segment => exact silent (inv.input used (sends segment rfl) inOrder) rfl

/-! ### Two runs -/

/-- A peer that sends the bytes 7 and 8 and ends. -/
def twoBytes : Peer := ⟨9, fun index => if index = 0 then 7 else 8, some 2⟩

/-- The connection to it. -/
def twoBytesOpen : RecvState :=
  ⟨{ TcpConn.zero with inUse := true, state := .established, ack := 10, listenParent := none }, [],
    none⟩

theorem twoBytesOpen_initial : twoBytesOpen.Initial twoBytes := ⟨rfl, rfl, rfl, rfl, rfl, rfl, rfl⟩

def readyNet : Env := ⟨true, 0, 1, 0⟩

/-- Both bytes with the FIN. -/
def bothBytes : Segment := ⟨0, 0, 0, 10, 0, .finAck, 5, [7, 8], true⟩

/-- The FIN without the bytes before it. -/
def bareFin : Segment := ⟨0, 0, 0, 12, 0, .finAck, 5, [], true⟩

theorem twoBytes_sends : twoBytes.Sends bothBytes 0 ∧ twoBytes.Sends bareFin 2 := by
  refine ⟨⟨rfl, fun _ => rfl, fun _ => rfl, fun last is _ => ?_, fun _ => rfl⟩,
    ⟨rfl, fun _ => rfl, fun data => absurd rfl data, fun _ _ data => absurd rfl data, fun _ => rfl⟩⟩
  obtain rfl := Option.some.inj is
  decide

/-- Both bytes come with the FIN, and are read to the end. -/
theorem stream_kept_read : ∃ state : RecvState, state.taken = [7, 8] ∧
    state.answer = some (.code (-1)) ∧ StreamKept twoBytes state := by
  have initial : (recvSystem twoBytes).Reachable FinInOrder twoBytesOpen :=
    .init twoBytesOpen_initial
  have stored := initial.step (show FinInOrder twoBytesOpen ⟨readyNet, .segment bothBytes, 0⟩ from
    fun segment is _ => by
      obtain rfl := ConnEvent.segment.inj is
      exact ⟨fun _ _ => rfl, fun _ => ⟨fun _ => Or.inr ⟨rfl, by decide⟩,
        fun waits => absurd waits (by decide)⟩⟩)
    ⟨rfl, fun segment is _ => by obtain rfl := ConnEvent.segment.inj is; exact twoBytes_sends.1, rfl⟩
  have read := stored.step (show FinInOrder _ ⟨readyNet, .recv 5, 0⟩ from
    fun segment is => by cases is) ⟨rfl, (fun segment is => by cases is), rfl⟩
  have ended := read.step (show FinInOrder _ ⟨readyNet, .recv 5, 0⟩ from
    fun segment is => by cases is) ⟨rfl, (fun segment is => by cases is), rfl⟩
  exact ⟨_, by decide, by decide, stream_kept ended⟩

/-- The FIN comes first, and the owner is told that the stream has ended. -/
def finFirst : RecvState :=
  (twoBytesOpen.after readyNet (.segment bareFin)).after readyNet (.recv 5)

/-- A FIN ahead of the data ends the stream early. -/
theorem fin_ends_early : ¬ ∀ peer state,
    (recvSystem peer).Reachable anyStep state → StreamKept peer state := by
  intro kept
  have initial : (recvSystem twoBytes).Reachable anyStep twoBytesOpen := .init twoBytesOpen_initial
  have closed := initial.step
    (show anyStep twoBytesOpen ⟨readyNet, .segment bareFin, 2⟩ from trivial)
    ⟨rfl, fun segment is _ => by obtain rfl := ConnEvent.segment.inj is; exact twoBytes_sends.2, rfl⟩
  have read : (recvSystem twoBytes).Reachable anyStep finFirst := closed.step
    (show anyStep _ ⟨readyNet, .recv 5, 0⟩ from trivial) ⟨rfl, (fun segment is => by cases is), rfl⟩
  have ended := (kept twoBytes finFirst read).ended (by decide)
  exact absurd ended (by decide)

end MectovOS.Net
