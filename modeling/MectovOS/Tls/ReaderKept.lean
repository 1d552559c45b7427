/-
This file proves that sessions whose transports hand out the same bytes agree, when
no transport stops inside a body, and shows a body that loses its first byte.
-/

import MectovOS.Tls.AuthenticKept
import MectovOS.Tls.Reader

namespace MectovOS.Tls

open Transition Framing

variable {primitives : Primitives} {now : Nat} {sending : Sending} {conn : Conn}
  {session : Session}

/-! ### What a session has read -/

/-- The connection behind records. -/
def connBehind (primitives : Primitives) (now : Nat) (sending : Sending) (conn : Conn)
    (records : List (Frame UInt8)) : Conn :=
  records.foldl (takeRecord primitives now sending) (ownTurn primitives sending conn)

/-- The connection behind records and the header of one more. -/
def connAt (primitives : Primitives) (now : Nat) (sending : Sending) (conn : Conn)
    (records : List (Frame UInt8)) (hdr : Bytes) : Conn :=
  if 5 ≤ hdr.length ∧ recordLength hdr = none then
    (connBehind primitives now sending conn records).fails tlsErrProtocol
  else connBehind primitives now sending conn records

/-- The bytes received are the records read and the record under way. -/
structure Reading (primitives : Primitives) (now : Nat) (sending : Sending) (conn : Conn)
    (session : Session) : Prop where
  consumed : session.consumed = flatten session.records ++ (session.hdr ++ session.body)
  whole : ∀ record ∈ session.records, record.Whole 5 recordLength
  under : (Frame.mk session.hdr session.body).Open 5 recordLength
  conn : session.conn = connAt primitives now sending conn session.records session.hdr

theorem recordLength_some {hdr : Bytes} {length : Nat} (told : recordLength hdr = some length) :
    rd16 hdr 3 = length ∧ 0 < length := by
  unfold recordLength at told
  dsimp only at told
  split at told
  · cases told
  · next fits =>
    obtain rfl := Option.some.inj told
    omega

/-- A connection that reads has no refused header. -/
theorem Reading.accepted (reading : Reading primitives now sending conn session)
    (reads : session.reads = true) (full : session.hdr.length = 5) :
    ∃ length, recordLength session.hdr = some length ∧ session.body.length < length ∧
      session.conn = connBehind primitives now sending conn session.records := by
  have at' := reading.conn
  unfold connAt at at'
  split at at'
  · unfold Session.reads at reads
    rw [at', Bool.and_eq_true, decide_eq_true_iff] at reads
    exact absurd rfl reads.1.2.2
  · next fine =>
    rcases reading.under with ⟨short, -⟩ | ⟨-, body⟩
    · exact absurd full (Nat.ne_of_lt short)
    · cases told : recordLength session.hdr with
      | none => exact absurd ⟨full.ge, told⟩ fine
      | some length =>
        rw [told] at body
        exact ⟨length, rfl, body, at'⟩

theorem Reading.start (primitives : Primitives) (now : Nat) (sending : Sending) (conn : Conn) :
    Reading primitives now sending conn (.start primitives sending conn) where
  consumed := rfl
  whole record member := absurd member List.not_mem_nil
  under := Or.inl ⟨Nat.zero_lt_succ 4, rfl⟩
  conn := by
    unfold connAt
    rw [if_neg (fun full => Nat.not_succ_le_zero 4 full.1)]
    rfl

/-- Bytes of a header. -/
theorem Reading.header (reading : Reading primitives now sending conn session)
    (short : session.hdr.length < 5) {bytes : Bytes} (asked : bytes.length ≤ session.asks) :
    Reading primitives now sending conn (session.received primitives now sending bytes) := by
  unfold Session.asks at asked
  rw [if_pos short] at asked
  have empty : session.body = [] := by
    rcases reading.under with ⟨-, empty⟩ | ⟨full, -⟩
    · exact empty
    · exact absurd short (Nat.not_lt.mpr full.ge)
  have at' := reading.conn
  unfold connAt at at'
  rw [if_neg fun full => absurd short (Nat.not_lt.mpr full.1)] at at'
  have consumed : session.consumed ++ bytes =
      flatten session.records ++ ((session.hdr ++ bytes) ++ session.body) := by
    rw [reading.consumed, empty, List.append_nil, List.append_nil, List.append_assoc]
  have length : (session.hdr ++ bytes).length ≤ 5 := by
    rw [List.length_append]
    omega
  unfold Session.received
  dsimp only
  rw [if_pos short]
  unfold Session.header
  dsimp only
  split
  · next refused =>
    refine ⟨consumed, reading.whole, Or.inr ⟨le_antisymm length refused.1, ?_⟩, ?_⟩
    · rw [refused.2]
      exact empty
    · unfold connAt
      rw [if_pos refused, ← at']
  · next fine =>
    refine ⟨consumed, reading.whole, ?_, ?_⟩
    · rcases Nat.lt_or_ge (session.hdr ++ bytes).length 5 with less | full
      · exact Or.inl ⟨less, empty⟩
      · refine Or.inr ⟨le_antisymm length full, ?_⟩
        cases told : recordLength (session.hdr ++ bytes) with
        | none => exact absurd ⟨full, told⟩ fine
        | some length =>
          show session.body.length < length
          rw [empty]
          exact (recordLength_some told).2
    · unfold connAt
      rw [if_neg fine]
      exact at'

/-- Bytes of a body. -/
theorem Reading.fragment (reading : Reading primitives now sending conn session)
    (reads : session.reads = true) (full : session.hdr.length = 5) {bytes : Bytes}
    (asked : bytes.length ≤ session.asks) :
    Reading primitives now sending conn (session.received primitives now sending bytes) := by
  obtain ⟨length, told, room, at'⟩ := reading.accepted reads full
  obtain ⟨is, -⟩ := recordLength_some told
  unfold Session.asks at asked
  rw [if_neg (by omega), is] at asked
  have consumed : session.consumed ++ bytes =
      flatten session.records ++ (session.hdr ++ (session.body ++ bytes)) := by
    rw [reading.consumed, List.append_assoc, List.append_assoc]
  unfold Session.received
  dsimp only
  rw [if_neg (by omega)]
  unfold Session.fragment
  dsimp only
  rw [is]
  split
  · next less =>
    have under : (Frame.mk session.hdr (session.body ++ bytes)).Open 5 recordLength := by
      unfold Frame.Open
      rw [told]
      exact Or.inr ⟨full, less⟩
    exact ⟨consumed, reading.whole, under, reading.conn⟩
  · next ends =>
    have body : (session.body ++ bytes).length = length := by
      rw [List.length_append] at ends ⊢
      omega
    refine ⟨?_, fun record member => ?_, Or.inl ⟨Nat.zero_lt_succ 4, rfl⟩, ?_⟩
    · rw [consumed, flatten_append]
      show _ = flatten session.records ++ flatten [⟨session.hdr, session.body ++ bytes⟩] ++ []
      rw [flatten_cons, List.append_nil]
      show _ = flatten session.records ++ (session.hdr ++ ((session.body ++ bytes) ++ []))
      rw [List.append_nil]
    · rcases List.mem_append.mp member with earlier | last
      · exact reading.whole record earlier
      · rw [List.mem_singleton.mp last]
        exact ⟨full, told.trans (congrArg some body.symm)⟩
    · unfold connAt connBehind
      rw [if_neg (fun full => Nat.not_succ_le_zero 4 full.1), List.foldl_append, at']
      rfl

/-- An answer between two bodies loses nothing. -/
theorem Reading.later (reading : Reading primitives now sending conn session)
    (between : session.body = []) : Reading primitives now sending conn session.wouldBlock := by
  unfold Session.wouldBlock
  split
  · exact reading
  · rw [← between]
    exact reading

/-- Every run that stops between bodies reads what it received. -/
theorem reading_of_reachable
    (reachable : (chunkSystem primitives now sending conn).Reachable BlocksBetween session) :
    Reading primitives now sending conn session := by
  refine reachable.invariant (Reading primitives now sending conn) ?_ ?_
  · rintro session rfl
    exact .start primitives now sending conn
  · rintro session result next reading between ⟨reads, taken⟩
    cases result with
    | bytes bytes =>
      obtain ⟨-, asked, rfl⟩ := taken
      rcases Nat.lt_or_ge session.hdr.length 5 with short | full
      · exact reading.header short asked
      · refine reading.fragment reads (le_antisymm ?_ full) asked
        rcases reading.under with ⟨short, -⟩ | ⟨is, -⟩
        · exact short.le
        · exact is.le
    | later =>
      obtain rfl : next = session.wouldBlock := taken
      exact reading.later (between rfl)

/-! ### Two transports -/

/-- Two runs that stop between bodies and have received the same bytes agree. -/
theorem chunking_independent (primitives : Primitives) (now : Nat) (sending : Sending) (conn : Conn)
    {first second : Session}
    (one : (chunkSystem primitives now sending conn).Reachable BlocksBetween first)
    (two : (chunkSystem primitives now sending conn).Reachable BlocksBetween second)
    (same : first.consumed = second.consumed) : SameInput first second := by
  have left := reading_of_reachable one
  have right := reading_of_reachable two
  rw [left.consumed, right.consumed] at same
  obtain ⟨records, flat⟩ := unique left.whole right.whole left.under right.under same
  have last := left.under.eq_of_flat right.under flat
  obtain ⟨hdr, -⟩ := Frame.mk.inj last
  have conns : first.conn = second.conn := by
    rw [left.conn, right.conn, records, hdr]
  refine ⟨?_, conns, congrArg Conn.input conns⟩
  unfold Session.handed
  rw [records]

/-! ### Two pauses -/

/-- A client that waits for the ServerHello. -/
def waitingClient : Conn := { Conn.init [1] with state := .waitServerHello }

/-- A session of that client behind answers of recv. -/
def answered (session : Session) : RecvResult → Session
  | .bytes bytes => session.received plainPrimitives 0 .sent bytes
  | .later => session.wouldBlock

def sessionBehind (results : List RecvResult) : Session :=
  results.foldl answered (.start plainPrimitives .sent waitingClient)

/-- May a session meet the answers, one after another? -/
def meets (between : Bool) : Session → List RecvResult → Bool
  | _, [] => true
  | session, .bytes bytes :: rest => session.reads && bytes != [] &&
      decide (bytes.length ≤ session.asks) &&
      meets between (session.received plainPrimitives 0 .sent bytes) rest
  | session, .later :: rest => session.reads && (!between || session.body == []) &&
      meets between session.wouldBlock rest

theorem reachable_meets {guard : Session → RecvResult → Prop} {between : Bool}
    (allowed : ∀ session result, (result = .later → between = true → session.body = []) →
      guard session result) (results : List RecvResult) (session : Session)
    (reachable : (chunkSystem plainPrimitives 0 .sent waitingClient).Reachable guard session)
    (met : meets between session results = true) :
    (chunkSystem plainPrimitives 0 .sent waitingClient).Reachable guard
      (results.foldl answered session) := by
  induction results generalizing session with
  | nil => exact reachable
  | cons result rest inductionHypothesis =>
    cases result with
    | bytes bytes =>
      rw [meets, Bool.and_eq_true, Bool.and_eq_true, Bool.and_eq_true, bne_iff_ne,
        decide_eq_true_iff] at met
      obtain ⟨⟨⟨reads, some'⟩, asked⟩, later⟩ := met
      exact inductionHypothesis _ (reachable.step
        (allowed session (.bytes bytes) fun never => by cases never) ⟨reads, some', asked, rfl⟩) later
    | later =>
      rw [meets, Bool.and_eq_true, Bool.and_eq_true] at met
      obtain ⟨⟨reads, empty⟩, later⟩ := met
      refine inductionHypothesis _ (reachable.step
        (allowed session .later fun _ pauses => ?_) ⟨reads, rfl⟩) later
      rw [pauses] at empty
      exact beq_iff_eq.mp empty

/-- A record of two bytes in one piece, with a pause in its header, and with a pause in its
body. -/
def inOnePiece : List RecvResult := [.bytes [22, 3, 3, 0, 2], .bytes [1, 2]]
def headerPause : List RecvResult := [.bytes [22, 3], .later, .bytes [3, 0, 2], .later, .bytes [1, 2]]
def bodyPause : List RecvResult := [.bytes [22, 3, 3, 0, 2], .bytes [1], .later, .bytes [2]]

theorem pauses_met : meets true (.start plainPrimitives .sent waitingClient) inOnePiece = true ∧
    meets true (.start plainPrimitives .sent waitingClient) headerPause = true ∧
    meets false (.start plainPrimitives .sent waitingClient) inOnePiece = true ∧
    meets false (.start plainPrimitives .sent waitingClient) bodyPause = true := by decide +kernel

theorem pauses_consumed :
    (sessionBehind inOnePiece).consumed = (sessionBehind headerPause).consumed ∧
      (sessionBehind inOnePiece).consumed = (sessionBehind bodyPause).consumed := by decide +kernel

/-- A pause in the header changes nothing. -/
theorem chunking_independent_headerPause :
    SameInput (sessionBehind inOnePiece) (sessionBehind headerPause) := by
  have allowed (session : Session) (result : RecvResult)
      (paused : result = .later → true = true → session.body = []) :
      BlocksBetween session result := fun later => paused later rfl
  exact chunking_independent plainPrimitives 0 .sent waitingClient
    (reachable_meets allowed inOnePiece _ (.init rfl) pauses_met.1)
    (reachable_meets allowed headerPause _ (.init rfl) pauses_met.2.1) pauses_consumed.1

theorem bodyPause_handed : (sessionBehind inOnePiece).handed = [⟨[22, 3, 3, 0, 2], [1, 2]⟩] ∧
    (sessionBehind bodyPause).handed = [] := by decide +kernel

/-- A pause in the body loses what came in front of it. -/
theorem bodyPause_loses : ¬ ∀ first second : Session,
    (chunkSystem plainPrimitives 0 .sent waitingClient).Reachable anyStep first →
    (chunkSystem plainPrimitives 0 .sent waitingClient).Reachable anyStep second →
    first.consumed = second.consumed → SameInput first second := by
  intro independent
  have allowed (session : Session) (result : RecvResult)
      (_ : result = .later → false = true → session.body = []) : anyStep session result := trivial
  have same := independent (sessionBehind inOnePiece) (sessionBehind bodyPause)
    (reachable_meets allowed inOnePiece _ (.init rfl) pauses_met.2.2.1)
    (reachable_meets allowed bodyPause _ (.init rfl) pauses_met.2.2.2) pauses_consumed.2
  have handed := same.handed
  rw [bodyPause_handed.1, bodyPause_handed.2] at handed
  exact absurd handed (List.cons_ne_nil _ _)

end MectovOS.Tls
