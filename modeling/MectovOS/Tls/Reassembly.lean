/-
This file is about the loop of `tls_step` in src/apps/lib/tls/tls13.c that takes
handshake messages out of records: it proves when the messages that are handled are
those that were sent, and shows a message that is lost between two records.
-/

import MectovOS.Tls.AuthenticKept

namespace MectovOS.Tls

variable (primitives : Primitives) (opened : Option (Bytes × Bytes)) (now : Nat)

/-! ### Records and messages -/

/-- Does `tls_step` read no further record of this epoch? -/
def Conn.stopped (conn : Conn) : Bool :=
  decide (conn.state = .failed) || decide (conn.state = .sendFinished)

/-- The loop over records that hold handshake messages, one after another, given as their
plaintexts. -/
def feed : Conn → List Bytes → Conn × List Handled
  | conn, [] => (conn, [])
  | conn, plain :: rest =>
    if conn.stopped then (conn, [])
    else
      let one := handleMessages primitives opened now plain.length conn plain
      let later := feed one.1 rest
      (later.1, one.2 ++ later.2)

/-- The messages handled one after another, whatever records they came in. -/
def feedMessages : Conn → List Bytes → Conn × List Handled
  | conn, [] => (conn, [])
  | conn, message :: rest =>
    if conn.stopped then (conn, [])
    else
      let handled := handleHandshake primitives now conn message
      if handled.1 ≠ tlsOk then (handled.2.fails handled.1, [⟨opened, now, conn, message⟩])
      else
        let later := feedMessages handled.2 rest
        (later.1, ⟨opened, now, conn, message⟩ :: later.2)

/-- The bytes of a message: a header of four bytes that tells the length of the body, and no more
than `TLS_HS_MAX` bytes. -/
structure WellFormed (message : Bytes) : Prop where
  header : 4 ≤ message.length
  length : message.length = 4 + load24 message 1
  fits : message.length ≤ tlsHsMax

/-- The records are cut between messages. -/
def Aligned (messages records : List Bytes) : Prop :=
  ∃ groups : List (List Bytes), groups.flatten = messages ∧ groups.map List.flatten = records

/-- Every message is accepted, and none comes behind a Finished. -/
def AllTaken (conn : Conn) (messages : List Bytes) : Prop :=
  (feedMessages primitives opened now conn messages).2.map Handled.message = messages

/-! ### One record -/

variable {primitives : Primitives} {opened : Option (Bytes × Bytes)} {now : Nat} {conn : Conn}

theorem stopped_iff : conn.stopped = true ↔ conn.state = .failed ∨ conn.state = .sendFinished := by
  unfold Conn.stopped
  rw [Bool.or_eq_true, decide_eq_true_iff, decide_eq_true_iff]

theorem stopped_fails (conn : Conn) (code : Int) : (conn.fails code).stopped = true :=
  stopped_iff.mpr (Or.inl rfl)

/-- An accepted message fails nothing. -/
theorem handleHandshake_alive {message : Bytes} (alive : conn.state ≠ .failed)
    (accepted : (handleHandshake primitives now conn message).1 = tlsOk) :
    (handleHandshake primitives now conn message).2.state ≠ .failed := by
  unfold handleHandshake at accepted ⊢
  dsimp only at accepted ⊢
  split_ifs at accepted ⊢
  · exact alive
  · rw [(onServerHello_ok conn message accepted).1]
    exact alive
  · exact TlsState.noConfusion
  · exact alive
  · rw [(onCertificate_ok now conn message accepted).2]
    exact TlsState.noConfusion
  · rw [(onCertVerify_ok conn message accepted).2]
    exact TlsState.noConfusion
  · rw [(onFinished_ok conn message accepted).2]
    exact TlsState.noConfusion
  · exact alive
  · exact alive

theorem load24_append (message rest : Bytes) (header : 4 ≤ message.length) :
    load24 (message ++ rest) 1 = load24 message 1 := by
  have byte (offset : Nat) (inside : offset < 4) :
      byteAt (message ++ rest) offset = byteAt message offset := by
    unfold byteAt
    rw [List.getD_append _ _ _ _ (by omega)]
  unfold load24
  rw [byte 1 (by decide), byte 2 (by decide), byte 3 (by decide)]

/-- A record of whole messages hands over those messages. -/
theorem handleMessages_flatten {messages : List Bytes} (wellFormed : ∀ message ∈ messages,
    WellFormed message) {fuel : Nat} (enough : messages.flatten.length ≤ fuel)
    (running : conn.stopped = false) :
    handleMessages primitives opened now fuel conn messages.flatten =
      feedMessages primitives opened now conn messages := by
  induction messages generalizing conn fuel with
  | nil =>
    rw [feedMessages, List.flatten_nil]
    cases fuel with
    | zero => rw [handleMessages]
    | succ fuel => rw [handleMessages, if_pos (show ([] : Bytes).length < 4 from Nat.zero_lt_succ 3)]
  | cons message rest inductionHypothesis =>
    obtain ⟨header, length, fits⟩ := wellFormed message List.mem_cons_self
    rw [List.flatten_cons] at enough ⊢
    rw [List.length_append] at enough
    obtain ⟨fuel, rfl⟩ : ∃ less, fuel = less + 1 := ⟨fuel - 1, by omega⟩
    have going : ¬ conn.stopped = true := by
      rw [running]
      decide
    rw [handleMessages, feedMessages, if_neg going, load24_append message _ header,
      List.length_append, if_neg (by omega), if_neg (by omega), if_neg (by omega), ← length,
      List.take_left, List.drop_left]
    dsimp only
    split
    · rfl
    · next accepted =>
      have taken := not_not.mp accepted
      have alive := handleHandshake_alive
        (fun failed => going (stopped_iff.mpr (Or.inl failed))) taken
      have later (fine : (handleHandshake primitives now conn message).2.stopped = false) :=
        inductionHypothesis (fun message member => wellFormed message (List.mem_cons_of_mem _ member))
          (by omega : rest.flatten.length ≤ fuel) fine
      split
      · next finished =>
        have stops : (handleHandshake primitives now conn message).2.stopped = true :=
          stopped_iff.mpr (Or.inr finished)
        cases rest with
        | nil => rw [feedMessages]
        | cons next rest => rw [feedMessages, if_pos stops]
      · next going =>
        rw [later (by
          rw [← Bool.not_eq_true, stopped_iff]
          exact fun stops => stops.elim alive going)]

/-! ### All records -/

theorem feedMessages_stopped {messages : List Bytes} (stops : conn.stopped = true) :
    feedMessages primitives opened now conn messages = (conn, []) := by
  cases messages with
  | nil => rw [feedMessages]
  | cons message rest => rw [feedMessages, if_pos stops]

theorem feed_stopped {records : List Bytes} (stops : conn.stopped = true) :
    feed primitives opened now conn records = (conn, []) := by
  cases records with
  | nil => rw [feed]
  | cons plain rest => rw [feed, if_pos stops]

theorem feedMessages_append (first second : List Bytes) :
    feedMessages primitives opened now conn (first ++ second) =
      ((feedMessages primitives opened now
          (feedMessages primitives opened now conn first).1 second).1,
        (feedMessages primitives opened now conn first).2 ++
          (feedMessages primitives opened now
            (feedMessages primitives opened now conn first).1 second).2) := by
  induction first generalizing conn with
  | nil => rw [feedMessages, List.nil_append, List.nil_append]
  | cons message rest inductionHypothesis =>
    rw [List.cons_append, feedMessages, feedMessages]
    split
    · next stops => rw [feedMessages_stopped stops, List.append_nil]
    · dsimp only
      split
      · rw [feedMessages_stopped (stopped_fails _ _), List.append_nil]
      · rw [inductionHypothesis, List.cons_append]

/-- Records that are cut between messages hand over the messages. -/
theorem feed_aligned {groups : List (List Bytes)}
    (wellFormed : ∀ message ∈ groups.flatten, WellFormed message) :
    feed primitives opened now conn (groups.map List.flatten) =
      feedMessages primitives opened now conn groups.flatten := by
  induction groups generalizing conn with
  | nil => rw [List.map_nil, List.flatten_nil, feed, feedMessages]
  | cons group rest inductionHypothesis =>
    rw [List.map_cons, List.flatten_cons, feedMessages_append]
    rw [List.flatten_cons] at wellFormed
    cases stops : conn.stopped
    · rw [feed, if_neg (by rw [stops]; decide),
        handleMessages_flatten (fun message member => wellFormed message
          (List.mem_append_left _ member)) (le_refl _) stops]
      dsimp only
      rw [inductionHypothesis fun message member => wellFormed message
          (List.mem_append_right _ member)]
    · rw [feed_stopped stops, feedMessages_stopped stops, feedMessages_stopped stops]
      rfl

/-- What is handled of a record is its front. -/
theorem handleMessages_front (fuel : Nat) (conn : Conn) (plain : Bytes) :
    ∃ dropped, plain = ((handleMessages primitives opened now fuel conn plain).2.map
      Handled.message).flatten ++ dropped := by
  induction fuel generalizing conn plain with
  | zero => exact ⟨plain, by rw [handleMessages]; rfl⟩
  | succ fuel inductionHypothesis =>
    rw [handleMessages]
    dsimp only
    split
    · exact ⟨plain, rfl⟩
    · split
      · exact ⟨plain, rfl⟩
      · split
        · exact ⟨plain, rfl⟩
        · have cut : plain = plain.take (4 + load24 plain 1) ++ plain.drop (4 + load24 plain 1) :=
            (List.take_append_drop _ _).symm
          have alone : plain = ((([⟨opened, now, conn, plain.take (4 + load24 plain 1)⟩] :
              List Handled).map Handled.message).flatten) ++ plain.drop (4 + load24 plain 1) := by
            rw [List.map_cons, List.map_nil, List.flatten_cons, List.flatten_nil, List.append_nil]
            exact cut
          split
          · exact ⟨_, alone⟩
          · split
            · exact ⟨_, alone⟩
            · obtain ⟨dropped, rest⟩ := inductionHypothesis
                (handleHandshake primitives now conn (plain.take (4 + load24 plain 1))).2
                (plain.drop (4 + load24 plain 1))
              refine ⟨dropped, ?_⟩
              rw [List.map_cons, List.flatten_cons, List.append_assoc, ← rest]
              exact cut

/-- The messages that are handled are groups, each the front of a record. -/
theorem feed_groups (conn : Conn) (records : List Bytes) :
    ∃ groups : List (List Bytes), groups.flatten =
        (feed primitives opened now conn records).2.map Handled.message ∧
      List.Forall₂ (fun group record => ∃ dropped, record = group.flatten ++ dropped)
        groups records := by
  induction records generalizing conn with
  | nil => exact ⟨[], by rw [feed]; rfl, .nil⟩
  | cons plain rest inductionHypothesis =>
    rw [feed]
    split
    · next stops =>
      obtain ⟨groups, flat, fronts⟩ := inductionHypothesis conn
      rw [feed_stopped stops] at flat
      refine ⟨[] :: groups, ?_, .cons ⟨plain, rfl⟩ fronts⟩
      rw [List.flatten_cons, List.nil_append, flat]
    · obtain ⟨groups, flat, fronts⟩ :=
        inductionHypothesis (handleMessages primitives opened now plain.length conn plain).1
      refine ⟨(handleMessages primitives opened now plain.length conn plain).2.map
        Handled.message :: groups, ?_, .cons (handleMessages_front plain.length conn plain) fronts⟩
      rw [List.flatten_cons, flat, ← List.map_append]

/-- Fronts that are as long as their records are the records. -/
theorem fronts_whole {groups : List (List Bytes)} {records : List Bytes}
    (fronts : List.Forall₂ (fun group record => ∃ dropped, record = List.flatten group ++ dropped)
      groups records) :
    groups.flatten.flatten.length ≤ records.flatten.length ∧
      (groups.flatten.flatten.length = records.flatten.length →
        groups.map List.flatten = records) := by
  induction fronts with
  | nil => exact ⟨le_refl _, fun _ => rfl⟩
  | @cons group record groups records front _ inductionHypothesis =>
    obtain ⟨dropped, is⟩ := front
    obtain ⟨less, whole⟩ := inductionHypothesis
    have length := congrArg List.length is
    rw [List.length_append] at length
    rw [List.flatten_cons, List.flatten_append, List.flatten_cons, List.length_append,
      List.length_append]
    refine ⟨by omega, fun same => ?_⟩
    have nothing : dropped = [] := List.eq_nil_of_length_eq_zero (by omega)
    rw [List.map_cons, whole (by omega), is, nothing, List.append_nil]

/-! ### The law -/

/-- The messages are handled as they were sent when the records are cut between messages, and only
then when all messages are taken. -/
theorem reassembly_iff (primitives : Primitives) (opened : Option (Bytes × Bytes)) (now : Nat)
    (conn : Conn) {messages records : List Bytes}
    (wellFormed : ∀ message ∈ messages, WellFormed message)
    (cut : records.flatten = messages.flatten) :
    (Aligned messages records → feed primitives opened now conn records =
        feedMessages primitives opened now conn messages) ∧
      (AllTaken primitives opened now conn messages →
        feed primitives opened now conn records =
          feedMessages primitives opened now conn messages → Aligned messages records) := by
  constructor
  · rintro ⟨groups, rfl, rfl⟩
    exact feed_aligned wellFormed
  · intro taken same
    obtain ⟨groups, flat, fronts⟩ := @feed_groups primitives opened now conn records
    rw [same] at flat
    have all : groups.flatten = messages := flat.trans taken
    refine ⟨groups, all, (fronts_whole fronts).2 ?_⟩
    rw [all, cut]

/-! ### Two cuts -/

/-- A client behind the hello of the server. -/
def greetedClient : Conn := { Conn.init [1] with state := .waitServerHello, encRd := true }

/-- The messages that a server sends up to its chain. -/
def twoMessages : List Bytes := [encryptedExtensions, oneCertificate]

theorem twoMessages_wellFormed : ∀ message ∈ twoMessages, WellFormed message := by
  intro message member
  rcases List.mem_cons.mp member with rfl | member
  · exact ⟨by decide, by decide, by decide⟩
  · obtain rfl := List.mem_singleton.mp member
    exact ⟨by decide, by decide, by decide⟩

/-- Both messages in one record are handled. -/
theorem reassembly_iff_oneRecord :
    feed plainPrimitives none 0 greetedClient [encryptedExtensions ++ oneCertificate] =
      feedMessages plainPrimitives none 0 greetedClient twoMessages := by
  have cut : [encryptedExtensions ++ oneCertificate].flatten = twoMessages.flatten := rfl
  exact (reassembly_iff plainPrimitives none 0 greetedClient twoMessages_wellFormed cut).1
    ⟨[twoMessages], rfl, rfl⟩

/-- The Certificate goes on in a second record, and is not handled. -/
theorem cutCertificate_lost :
    (feed plainPrimitives none 0 greetedClient
        [encryptedExtensions ++ oneCertificate.take 9, oneCertificate.drop 9]).2.map
        Handled.message ≠
      (feedMessages plainPrimitives none 0 greetedClient twoMessages).2.map Handled.message := by
  decide +kernel

/-- The result of the handshake depends on the cut. -/
theorem cutCertificate_differs : ¬ ∀ (conn : Conn) (messages records : List Bytes),
    (∀ message ∈ messages, WellFormed message) → records.flatten = messages.flatten →
      feed plainPrimitives none 0 conn records =
        feedMessages plainPrimitives none 0 conn messages := by
  intro independent
  have same := independent greetedClient twoMessages
    [encryptedExtensions ++ oneCertificate.take 9, oneCertificate.drop 9]
    twoMessages_wellFormed (by decide)
  exact cutCertificate_lost (congrArg (fun result => result.2.map Handled.message) same)

end MectovOS.Tls
