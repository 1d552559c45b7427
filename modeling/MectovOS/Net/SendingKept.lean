/-
This file proves that the sender keeps its promises in every run whose
acknowledgments compare as plain numbers, and shows an acknowledgment across the
end of the numbers that clears a segment the peer has not got.
-/

import MectovOS.Net.Sending

namespace MectovOS.Net

open Transition Serial

variable {state : SendState} {env : Env}

/-! ### The invariant -/

/-- The record of the connection is the chunk that is not acknowledged, the last of the bytes that
were taken. -/
def Recorded (state : SendState) : Prop :=
  (state.conn.unackedLen = 0 ∧ state.outstanding = []) ∨
    (state.conn.unackedLen = state.conn.txPending.length ∧ state.conn.txPending ≠ [] ∧
      state.outstanding = [⟨state.conn.unackedSeq, state.conn.txPending⟩] ∧
      ∃ front, state.taken = front ++ state.conn.txPending ∧
        state.conn.unackedSeq = state.start + BitVec.ofNat 32 front.length)

structure SendInv (state : SendState) : Prop where
  opened : Opened state.conn
  recorded : Recorded state
  consecutive : state.conn.state = .established →
    state.conn.seq = state.start + BitVec.ofNat 32 state.taken.length

/-- The same record in another state. -/
theorem Recorded.congr {other : SendState} (recorded : Recorded state)
    (unackedSeq : other.conn.unackedSeq = state.conn.unackedSeq)
    (unackedLen : other.conn.unackedLen = state.conn.unackedLen)
    (txPending : other.conn.txPending = state.conn.txPending)
    (outstanding : other.outstanding = state.outstanding) (taken : other.taken = state.taken)
    (start : other.start = state.start) : Recorded other := by
  unfold Recorded
  rw [unackedSeq, unackedLen, txPending, outstanding, taken, start]
  exact recorded

theorem Recorded.positive (recorded : Recorded state) (waits : 0 < state.conn.unackedLen) :
    state.conn.unackedLen = state.conn.txPending.length ∧ state.conn.txPending ≠ [] ∧
      state.outstanding = [⟨state.conn.unackedSeq, state.conn.txPending⟩] ∧
      ∃ front, state.taken = front ++ state.conn.txPending ∧
        state.conn.unackedSeq = state.start + BitVec.ofNat 32 front.length :=
  recorded.resolve_left fun none' => absurd none'.1 waits.ne'

/-- What the law says of a state follows from the invariant, but for the last event. -/
theorem SendInv.kept (inv : SendInv state)
    (numbered : ∀ sent ∈ state.sent, sent.payload ≠ [] → 0 < state.conn.unackedLen ∧
      sent.seq = state.conn.unackedSeq ∧ sent.payload = state.conn.txPending)
    (covered : ∀ segment, state.event = some (.segment segment) → segment.reaches = true →
      awaitsFin state.before.state = true → state.conn.state ≠ state.before.state →
      segment.flags.ack = true ∧ Reached segment.ack state.before.seq) : SendKept state := by
  have recorded : state.outstanding =
      if state.conn.unackedLen = 0 then []
      else [⟨state.conn.unackedSeq, state.conn.txPending⟩] := by
    rcases inv.recorded with ⟨none', empty⟩ | ⟨length, some', one, _⟩
    · rw [if_pos none', empty]
    · rw [if_neg (by rw [length]; exact fun zero => some' (List.length_eq_zero_iff.mp zero)), one]
  refine ⟨?_, recorded, fun sent member data => ?_, inv.consecutive, covered⟩
  · rw [recorded]
    split
    · exact Nat.zero_le 1
    · exact Nat.le_refl 1
  · obtain ⟨waits, seq, payload⟩ := numbered sent member data
    obtain ⟨_, _, one, front, taken, start⟩ := inv.recorded.positive waits
    refine ⟨?_, front, [], ?_, seq.trans start⟩
    · rw [one, seq, payload]
      exact List.mem_singleton_self _
    · rw [payload, List.append_nil, taken]

/-! ### Steps -/

theorem numbered_of_silent {sent : List Sent} {waits : Prop} {seq : Sent → Prop}
    (silent : Silent sent) : ∀ segment ∈ sent, segment.payload ≠ [] → waits ∧ seq segment :=
  fun segment member data => absurd (silent segment member) data

/-- A call that takes bytes records them as the chunk that is not acknowledged. -/
theorem SendInv.send (inv : SendInv state) (payload : Bytes) :
    SendInv (state.after env (.send payload)) ∧ SendKept (state.after env (.send payload)) := by
  obtain ⟨same, seq, quiet, records⟩ := tcpSend_same env state.conn payload
  have opened : Opened (state.after env (.send payload)).conn := by
    unfold Opened
    rw [show (state.after env (.send payload)).conn.state = state.conn.state from same]
    exact inv.opened
  have consecutive : (state.after env (.send payload)).conn.state = .established →
      (state.after env (.send payload)).conn.seq =
        state.start + BitVec.ofNat 32 (state.taken ++ takenBytes state.conn (.send payload)).length := by
    intro established
    rw [show (state.after env (.send payload)).conn.seq = _ from seq,
      inv.consecutive (same.symm.trans established), List.length_append, BitVec.ofNat_add,
      BitVec.add_assoc]
  have event : ∀ segment, (state.after env (.send payload)).event = some (.segment segment) →
      False := fun segment is => by cases is
  by_cases none' : takenBytes state.conn (.send payload) = []
  · obtain ⟨unackedLen, others, silent⟩ := quiet none'
    have outstanding : (state.after env (.send payload)).outstanding = state.outstanding := by
      show state.outstanding ++ (if takenBytes state.conn (.send payload) = [] then [] else _) = _
      rw [if_pos none', List.append_nil]
    have taken : (state.after env (.send payload)).taken = state.taken := by
      show state.taken ++ takenBytes state.conn (.send payload) = state.taken
      rw [none', List.append_nil]
    have recorded : Recorded (state.after env (.send payload)) := by
      by_cases waits : state.conn.unackedLen = 0
      · refine Or.inl ⟨unackedLen.trans waits, ?_⟩
        rw [outstanding]
        rcases inv.recorded with ⟨_, empty⟩ | ⟨length, some', _⟩
        · exact empty
        · exact absurd (List.length_eq_zero_iff.mp (length.symm.trans waits)) some'
      · exact inv.recorded.congr (others waits).1 unackedLen (others waits).2 outstanding taken rfl
    have inv' : SendInv (state.after env (.send payload)) := ⟨opened, recorded, consecutive⟩
    exact ⟨inv', inv'.kept (numbered_of_silent silent) fun segment is => (event segment is).elim⟩
  · obtain ⟨free, _, unackedLen, unackedSeq, txPending, sent⟩ := records none'
    have established := (records none').2.1
    have empty : state.outstanding = [] := by
      rcases inv.recorded with ⟨_, empty⟩ | ⟨length, some', _⟩
      · exact empty
      · exact absurd (List.length_eq_zero_iff.mp (length.symm.trans free)) some'
    have recorded : Recorded (state.after env (.send payload)) := by
      refine Or.inr ⟨?_, ?_, ?_, state.taken, ?_, ?_⟩
      · exact unackedLen.trans (congrArg List.length txPending.symm)
      · exact fun none'' => none' (txPending.symm.trans none'')
      · show state.outstanding ++ (if takenBytes state.conn (.send payload) = [] then []
          else [⟨state.conn.seq, takenBytes state.conn (.send payload)⟩]) =
          [⟨(tcpSend env state.conn payload).2.1.unackedSeq,
            (tcpSend env state.conn payload).2.1.txPending⟩]
        rw [empty, if_neg none', unackedSeq, txPending, List.nil_append]
      · exact congrArg (state.taken ++ ·) txPending.symm
      · exact unackedSeq.trans (inv.consecutive established)
    have inv' : SendInv (state.after env (.send payload)) := ⟨opened, recorded, consecutive⟩
    refine ⟨inv', inv'.kept (fun segment member _ => ?_) fun segment is => (event segment is).elim⟩
    obtain ⟨number, bytes⟩ := sent segment member
    refine ⟨?_, number.trans unackedSeq.symm, bytes.trans txPending.symm⟩
    rw [show (state.after env (.send payload)).conn.unackedLen = _ from unackedLen]
    exact List.length_pos_iff.mpr none'

/-- An event that neither takes bytes nor clears the record. -/
theorem SendInv.quiet (inv : SendInv state) {event : ConnEvent}
    (unackedSeq : (state.conn.on env event).1.unackedSeq = state.conn.unackedSeq)
    (unackedLen : (state.conn.on env event).1.unackedLen = state.conn.unackedLen)
    (txPending : (state.conn.on env event).1.txPending = state.conn.txPending)
    (taken : takenBytes state.conn event = [])
    (outstanding : leftOutstanding state.outstanding event = state.outstanding)
    (closing : (state.conn.on env event).1.state = state.conn.state ∧
        (state.conn.on env event).1.seq = state.conn.seq ∨
      isClosing (state.conn.on env event).1.state = true) :
    SendInv (state.after env event) := by
  have kept : (state.after env event).taken = state.taken := by
    show state.taken ++ takenBytes state.conn event = state.taken
    rw [taken, List.append_nil]
  refine ⟨?_, inv.recorded.congr unackedSeq unackedLen txPending ?_ kept rfl, fun established => ?_⟩
  · rcases closing with same | moved
    · unfold Opened
      rw [show (state.after env event).conn.state = state.conn.state from same.1]
      exact inv.opened
    · exact (isClosing_opened moved).1
  · show leftOutstanding state.outstanding event ++
      (if takenBytes state.conn event = [] then [] else _) = _
    rw [if_pos taken, List.append_nil, outstanding]
  · rcases closing with same | moved
    · rw [kept, show (state.after env event).conn.seq = state.conn.seq from same.2]
      exact inv.consecutive (same.1.symm.trans established)
    · exact absurd established (isClosing_opened moved).2

theorem leftOutstanding_segment (chunks : List Chunk) (segment : Segment) :
    leftOutstanding chunks (.segment segment) =
      if segment.reaches && segment.flags.ack then
        chunks.filter fun chunk => decide (¬ Reached segment.ack chunk.next)
      else chunks :=
  rfl

/-- A segment clears exactly what it acknowledges, when the numbers compare. -/
theorem SendInv.segment (inv : SendInv state) (segment : Segment)
    (comparable : Comparable state (env, .segment segment)) :
    SendInv (state.after env (.segment segment)) ∧
      SendKept (state.after env (.segment segment)) := by
  obtain ⟨silent, closing, fails, passes⟩ := tcpInput_same env inv.opened segment
  suffices inv' : SendInv (state.after env (.segment segment)) by
    refine ⟨inv', inv'.kept (numbered_of_silent silent) fun other is reaches awaits changed => ?_⟩
    obtain rfl := ConnEvent.segment.inj (Option.some.inj is)
    obtain ⟨ack, covers⟩ := (passes reaches).2.resolve_left changed awaits
    exact ⟨ack, ((near_iff (by decide) _ _).mp
      ((comparable segment rfl reaches ack).2 awaits)).mp covers⟩
  cases reaches : segment.reaches with
  | false =>
    obtain ⟨seq, unackedSeq, unackedLen, txPending⟩ := fails reaches
    refine inv.quiet unackedSeq unackedLen txPending rfl ?_ (closing.imp (fun same => ⟨same, seq⟩) id)
    rw [leftOutstanding_segment, reaches, Bool.false_and]
    rfl
  | true =>
    obtain ⟨same, _⟩ := passes reaches
    have seq := same.seq.trans (clearUnacked_state state.conn segment).2
    by_cases clears : segment.flags.ack = true ∧ 0 < state.conn.unackedLen ∧
        state.conn.unackedSeq + BitVec.ofNat 32 state.conn.unackedLen ≤ segment.ack
    · have cleared : clearUnacked state.conn segment =
          { state.conn with unackedLen := 0, txPending := [], retransCount := 0 } := if_pos clears
      obtain ⟨ack, waits, covers⟩ := clears
      obtain ⟨length, _, one, _⟩ := inv.recorded.positive waits
      have reached := ((near_iff (by decide) _ _).mp
        ((comparable segment rfl reaches ack).1 waits)).mp covers
      rw [cleared] at same
      have recorded : Recorded (state.after env (.segment segment)) := by
        refine Or.inl ⟨same.unackedLen, ?_⟩
        show leftOutstanding state.outstanding (.segment segment) ++ [] = []
        rw [leftOutstanding_segment, reaches, ack, one, List.append_nil]
        refine List.filter_eq_nil_iff.mpr fun chunk member => ?_
        obtain rfl := List.mem_singleton.mp member
        rw [length] at reached
        rw [decide_eq_true_eq, not_not]
        exact reached
      refine ⟨?_, recorded, fun established => ?_⟩
      · rcases closing with kept | moved
        · unfold Opened
          rw [show (state.after env (.segment segment)).conn.state = state.conn.state from kept]
          exact inv.opened
        · exact (isClosing_opened moved).1
      · rcases closing with kept | moved
        · show (tcpInput env state.conn segment).1.seq =
            state.start + BitVec.ofNat 32 (state.taken ++ []).length
          rw [seq, List.append_nil]
          exact inv.consecutive (kept.symm.trans established)
        · exact absurd established (isClosing_opened moved).2
    · have cleared : clearUnacked state.conn segment = state.conn := if_neg clears
      rw [cleared] at same
      refine inv.quiet same.unackedSeq same.unackedLen same.txPending rfl ?_
        (closing.imp (fun kept => ⟨kept, seq⟩) id)
      rw [leftOutstanding_segment]
      cases ack : segment.flags.ack with
      | false =>
        rw [Bool.and_false]
        rfl
      | true =>
        rw [reaches]
        rcases inv.recorded with ⟨_, empty⟩ | ⟨length, some', one, _⟩
        · rw [empty]
          rfl
        · have waits : 0 < state.conn.unackedLen := by
            rw [length]
            exact List.length_pos_iff.mpr some'
          have near := (near_iff (by decide) _ _).mp ((comparable segment rfl reaches ack).1 waits)
          rw [one]
          refine List.filter_eq_self.mpr fun chunk member => ?_
          obtain rfl := List.mem_singleton.mp member
          refine decide_eq_true fun reached => clears ⟨ack, waits, near.mpr ?_⟩
          rw [length]
          exact reached

/-- Each event keeps the invariant and the law. -/
theorem SendInv.step (inv : SendInv state) (event : ConnEvent)
    (comparable : Comparable state (env, event)) :
    SendInv (state.after env event) ∧ SendKept (state.after env event) := by
  cases event with
  | send payload => exact inv.send payload
  | recv maxLen =>
    obtain ⟨same, silent, kept⟩ := tcpRecv_same env state.conn maxLen
    have inv' : SendInv (state.after env (.recv maxLen)) := inv.quiet same.unackedSeq
      same.unackedLen same.txPending rfl rfl (Or.inl ⟨kept, same.seq⟩)
    exact ⟨inv', inv'.kept (numbered_of_silent silent) fun segment is => by cases is⟩
  | close =>
    obtain ⟨unackedSeq, unackedLen, txPending, silent, closing⟩ := tcpClose_same env state.conn
    have inv' : SendInv (state.after env .close) := inv.quiet unackedSeq unackedLen txPending rfl
      rfl (Or.inr closing)
    exact ⟨inv', inv'.kept (numbered_of_silent silent) fun segment is => by cases is⟩
  | sweep =>
    obtain ⟨same, kept, again⟩ := tcpSweep_same env inv.opened
    have inv' : SendInv (state.after env .sweep) := inv.quiet same.unackedSeq same.unackedLen
      same.txPending rfl rfl (Or.inl ⟨kept, same.seq⟩)
    refine ⟨inv', inv'.kept (fun sent member _ => ?_) fun segment is => by cases is⟩
    obtain ⟨waits, seq, payload⟩ := again sent member
    exact ⟨same.unackedLen ▸ waits, seq.trans same.unackedSeq.symm,
      payload.trans same.txPending.symm⟩
  | segment segment => exact inv.segment segment comparable

/-- In every run whose acknowledgments compare as plain numbers, the sender keeps its promises. -/
theorem sending_kept (reachable : sendSystem.Reachable Comparable state) : SendKept state := by
  refine And.right (reachable.invariant (fun state => SendInv state ∧ SendKept state) ?_ ?_)
  · rintro state ⟨_, established, none', event, sent, start, taken, outstanding⟩
    have inv : SendInv state := by
      refine ⟨⟨?_, ?_⟩, Or.inl ⟨none', outstanding⟩, fun _ => ?_⟩
      · rw [established]
        decide
      · rw [established]
        decide
      · rw [start, taken]
        exact (BitVec.add_zero _).symm
    refine ⟨inv, inv.kept (fun segment member => ?_) fun segment is => ?_⟩
    · rw [sent] at member
      exact absurd member List.not_mem_nil
    · rw [event] at is
      exact absurd is (by simp)
  · rintro state ⟨env, event⟩ next ⟨inv, _⟩ comparable ⟨_, rfl⟩
    exact inv.step event comparable

/-! ### Two runs -/

/-- An open connection whose next number is this one. -/
def openConn (seq : Seq) : TcpConn :=
  { TcpConn.zero with inUse := true, state := .established, seq := seq, listenParent := none }

def openState (seq : Seq) : SendState := ⟨openConn seq, none, openConn seq, [], seq, [], []⟩

theorem openState_initial (seq : Seq) : (openState seq).Initial :=
  ⟨rfl, rfl, rfl, rfl, rfl, rfl, rfl, rfl⟩

/-- The gateway is resolved. -/
def readyEnv : Env := ⟨true, 0, 1, 0⟩

/-- A plain acknowledgment of the peer. -/
def plainAck (ack : Seq) : Segment := ⟨0, 0, 0, 0, ack, .ackOnly, 5, [], true⟩

/-- Two bytes go out and are acknowledged. -/
theorem sending_kept_acknowledged : ∃ state : SendState, state.taken = [1, 2] ∧
    state.conn.unackedLen = 0 ∧ state.conn.seq = 102 ∧ SendKept state := by
  have initial : sendSystem.Reachable Comparable (openState 100) := .init (openState_initial 100)
  have sent := initial.step
    (show Comparable (openState 100) (readyEnv, .send [1, 2]) from fun _ is => by cases is) ⟨rfl, rfl⟩
  have acknowledged := sent.step
    (show Comparable ((openState 100).after readyEnv (.send [1, 2]))
      (readyEnv, .segment (plainAck 102)) from fun segment is _ _ => by
        obtain rfl := ConnEvent.segment.inj is
        exact ⟨fun _ => by decide, fun awaits => absurd awaits (by decide)⟩) ⟨rfl, rfl⟩
  exact ⟨_, rfl, by decide, by decide, sending_kept acknowledged⟩

/-- The two bytes across the end of the numbers. -/
def acrossSent : SendState := (openState 0xFFFFFFFF).after readyEnv (.send [1, 2])

/-- The peer repeats what it acknowledged before. -/
def acrossCleared : SendState := acrossSent.after readyEnv (.segment (plainAck 0xFFFFFFFF))

/-- An acknowledgment of nothing new clears a chunk that crosses the end of the numbers. -/
theorem ack_clears_across : ¬ ∀ state, sendSystem.Reachable anyStep state → SendKept state := by
  intro kept
  have initial : sendSystem.Reachable anyStep (openState 0xFFFFFFFF) :=
    .init (openState_initial 0xFFFFFFFF)
  have sent : sendSystem.Reachable anyStep acrossSent := initial.step
    (show anyStep (openState 0xFFFFFFFF) (readyEnv, .send [1, 2]) from trivial) ⟨rfl, rfl⟩
  have cleared : sendSystem.Reachable anyStep acrossCleared := sent.step
    (show anyStep acrossSent (readyEnv, .segment (plainAck 0xFFFFFFFF)) from trivial) ⟨rfl, rfl⟩
  have recorded := (kept acrossCleared cleared).recorded
  exact absurd recorded (by decide)

end MectovOS.Net
