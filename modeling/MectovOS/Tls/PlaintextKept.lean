/-
This file proves that `tls_read` hands out all application data in every run whose
records fit into the buffer, and shows a burst that overflows it.
-/

import MectovOS.Tls.AuthenticKept
import MectovOS.Tls.Plaintext

namespace MectovOS.Tls

open Transition

variable {primitives : Primitives} {now : Nat} {conn : Conn} {reads : Reads}

/-! ### What the reader sees -/

/-- The buffer of the reader is left alone. -/
structure SameBuffer (conn next : Conn) : Prop where
  input : next.input = conn.input
  inOff : next.inOff = conn.inOff

theorem SameBuffer.trans {first second third : Conn} (one : SameBuffer first second)
    (two : SameBuffer second third) : SameBuffer first third :=
  ⟨two.input.trans one.input, two.inOff.trans one.inOff⟩

theorem SameBuffer.fails {next : Conn} (same : SameBuffer conn next) (code : Int) :
    SameBuffer conn (next.fails code) := ⟨same.input, same.inOff⟩

theorem parseServerHello_buffer (conn : Conn) (body : Bytes) :
    SameBuffer conn (parseServerHello conn body).2 := by
  unfold parseServerHello
  dsimp only
  repeat' split
  all_goals exact ⟨rfl, rfl⟩

theorem deriveHandshakeKeys_buffer (conn : Conn) :
    SameBuffer conn (deriveHandshakeKeys primitives conn).2 := by
  unfold deriveHandshakeKeys
  dsimp only
  split
  · exact ⟨rfl, rfl⟩
  · exact ⟨rfl, rfl⟩

theorem handleHandshake_buffer (primitives : Primitives) (now : Nat) (conn : Conn) (message : Bytes) :
    SameBuffer conn (handleHandshake primitives now conn message).2 := by
  unfold handleHandshake
  dsimp only
  split
  · exact ⟨rfl, rfl⟩
  split
  · unfold onServerHello
    dsimp only
    have parsed : SameBuffer conn (parseServerHello (conn.hash message) (bodyOf message)).2 :=
      (SameBuffer.mk rfl rfl : SameBuffer conn (conn.hash message)).trans
        (parseServerHello_buffer _ _)
    split
    · exact parsed
    · exact parsed.trans (deriveHandshakeKeys_buffer _)
  split
  · exact ⟨rfl, rfl⟩
  split
  · exact ⟨rfl, rfl⟩
  split
  · unfold onCertificate verifyChain
    dsimp only
    repeat' split
    all_goals exact ⟨rfl, rfl⟩
  split
  · unfold onCertVerify
    dsimp only
    split <;> exact ⟨rfl, rfl⟩
  split
  · unfold onFinished
    repeat' split
    all_goals exact ⟨rfl, rfl⟩
  split <;> exact ⟨rfl, rfl⟩

theorem handleMessages_buffer (opened : Option (Bytes × Bytes)) (fuel : Nat) (conn : Conn)
    (plain : Bytes) :
    SameBuffer conn (handleMessages primitives opened now fuel conn plain).1 := by
  induction fuel generalizing conn plain with
  | zero =>
    rw [handleMessages]
    exact ⟨rfl, rfl⟩
  | succ fuel inductionHypothesis =>
    rw [handleMessages]
    dsimp only
    have one := handleHandshake_buffer primitives now conn (plain.take (4 + load24 plain 1))
    split
    · exact ⟨rfl, rfl⟩
    · split
      · exact ⟨rfl, rfl⟩
      · split
        · exact ⟨rfl, rfl⟩
        · split
          · exact one.fails _
          · split
            · exact one
            · exact one.trans (inductionHypothesis _ _)

theorem finishHandshake_buffer (sending : Sending) (conn : Conn) :
    SameBuffer conn (finishHandshake primitives sending conn) := by
  cases sending <;> exact ⟨rfl, rfl⟩

/-- A record adds its application data, as far as there is room. -/
theorem onRecord_input (primitives : Primitives) (now : Nat) (conn : Conn) (record : Record) :
    (onRecord primitives now conn record.1 record.2).1.input = conn.input ++
        (applicationData primitives conn record).take (tlsMaxPlain - conn.input.length) ∧
      (onRecord primitives now conn record.1 record.2).1.inOff = conn.inOff := by
  have nothing {next : Conn} (same : SameBuffer conn next) :
      next.input = conn.input ++ List.take (tlsMaxPlain - conn.input.length) [] ∧
        next.inOff = conn.inOff := by
    rw [List.take_nil, List.append_nil]
    exact ⟨same.input, same.inOff⟩
  rw [onRecord, applicationData]
  split
  · exact nothing ⟨rfl, rfl⟩
  split
  · exact nothing ⟨rfl, rfl⟩
  cases opens : openRecord primitives conn record.1 record.2 with
  | error code => exact nothing ⟨rfl, rfl⟩
  | ok content =>
    obtain ⟨type, plain, opened⟩ := content
    obtain ⟨seq, counted⟩ := openRecord_counts opens
    have same : SameBuffer conn opened := by
      rw [counted]
      exact ⟨rfl, rfl⟩
    have foreign {other : UInt8} (is : type = other) (differs : other ≠ recApplication) :
        (if type = recApplication ∧ opened.state = .done then plain else []) = [] :=
      if_neg fun both => differs (is.symm.trans both.1)
    dsimp only
    split
    · next cipher =>
      rw [foreign cipher (by decide)]
      exact nothing same
    split
    · next alert =>
      rw [foreign alert (by decide)]
      refine nothing (same.trans ?_)
      unfold onAlert
      repeat' split
      all_goals exact ⟨rfl, rfl⟩
    split
    · next handshake =>
      rw [foreign handshake (by decide)]
      exact nothing (same.trans (handleMessages_buffer _ _ _ _))
    split
    · next application =>
      unfold onApplication
      split
      · next early =>
        rw [if_neg (fun both => early both.2)]
        exact nothing (same.fails _)
      · next done =>
        rw [if_pos ⟨application, not_not.mp done⟩]
        refine ⟨?_, same.inOff⟩
        show opened.input ++ plain.take (tlsMaxPlain - opened.input.length) = _
        rw [same.input]
    · next other =>
      rw [if_neg (fun both => other both.1)]
      exact nothing (same.fails _)

/-- A connection whose reader has got `data` more, and nothing else. -/
structure Gains (conn next : Conn) (data : Bytes) : Prop where
  input : next.input = conn.input ++ data
  inOff : next.inOff = conn.inOff

theorem SameBuffer.gains {next : Conn} (same : SameBuffer conn next) : Gains conn next [] :=
  ⟨same.input.trans (List.append_nil _).symm, same.inOff⟩

/-- The pump buffers all it decrypts when it fits. -/
theorem pump_gains (transportFails : Bool) (conn : Conn) (records : List Record)
    (fits : conn.input.length + (pump primitives now transportFails conn records).2.2.length ≤
      tlsMaxPlain) :
    Gains conn (pump primitives now transportFails conn records).1
      (pump primitives now transportFails conn records).2.2 := by
  induction records generalizing conn with
  | nil =>
    rw [pump]
    split
    · exact SameBuffer.gains ⟨rfl, rfl⟩
    · exact SameBuffer.gains ⟨rfl, rfl⟩
  | cons record rest inductionHypothesis =>
    obtain ⟨input, inOff⟩ := onRecord_input primitives now conn record
    have whole (room : conn.input.length + (applicationData primitives conn record).length ≤
        tlsMaxPlain) :
        (onRecord primitives now conn record.1 record.2).1.input =
          conn.input ++ applicationData primitives conn record := by
      rw [input, List.take_of_length_le (by omega)]
    rw [pump] at fits ⊢
    dsimp only at fits ⊢
    split
    · next failed =>
      rw [if_pos failed] at fits
      exact ⟨whole fits, inOff⟩
    next alive =>
    rw [if_neg alive] at fits
    split
    · next ended =>
      rw [if_pos ended] at fits
      exact ⟨whole fits, inOff⟩
    next lasts =>
    rw [if_neg lasts] at fits
    split
    · next finished =>
      rw [if_pos finished] at fits
      exact ⟨whole fits, inOff⟩
    next going =>
    rw [if_neg going] at fits
    dsimp only at fits
    rw [List.length_append] at fits
    have one := whole (by omega)
    obtain ⟨laterInput, laterOff⟩ := inductionHypothesis _ (by
      rw [one, List.length_append]
      omega)
    refine ⟨?_, laterOff.trans inOff⟩
    rw [laterInput, one, List.append_assoc]

/-- `tls_step` buffers all it decrypts when it fits. -/
theorem tlsStep_gains (arrivals : Arrivals) (empty : conn.input = [])
    (fits : (tlsStep primitives now conn arrivals).2.2.length ≤ tlsMaxPlain) :
    Gains conn (tlsStep primitives now conn arrivals).1
      (tlsStep primitives now conn arrivals).2.2 := by
  rw [tlsStep] at fits ⊢
  split
  · exact SameBuffer.gains ⟨rfl, rfl⟩
  next alive =>
  rw [if_neg alive] at fits
  split
  · exact SameBuffer.gains ⟨rfl, rfl⟩
  next flushed =>
  rw [if_neg flushed] at fits
  split
  · exact (finishHandshake_buffer _ conn).gains
  next going =>
  rw [if_neg going] at fits
  refine pump_gains _ conn _ ?_
  rw [empty]
  exact (Nat.zero_add _).trans_le fits

/-! ### Reads -/

/-- What was handed out and what waits for the reader are all that was decrypted; nothing was handed
out halfway of an empty buffer, and nothing waits behind the end. -/
structure Accounted (reads : Reads) : Prop where
  all : reads.decrypted = reads.delivered ++ reads.conn.pending
  buffer : reads.conn.inOff < reads.conn.input.length ∨
    reads.conn.input = [] ∧ reads.conn.inOff = 0
  ended : reads.closed = true → reads.conn.recvClosed = true ∧ reads.conn.pending = []

theorem pending_nil (empty : conn.input = []) : conn.pending = [] := by
  rw [Conn.pending, empty, List.drop_nil]

theorem handOut_accounted (length : Nat)
    (all : reads.decrypted = reads.delivered ++ reads.conn.pending)
    (ended : reads.closed = false) : Accounted (reads.handOut length) := by
  have split : reads.decrypted = (reads.delivered ++ reads.conn.pending.take length) ++
      reads.conn.pending.drop length := by
    rw [List.append_assoc, List.take_append_drop]
    exact all
  have rest : reads.conn.pending.drop length =
      reads.conn.input.drop (reads.conn.inOff + length) := by
    rw [Conn.pending, List.drop_drop]
  rw [rest] at split
  refine ⟨?_, ?_, fun closed => absurd (ended.symm.trans closed) Bool.false_ne_true⟩
  · show reads.decrypted = (reads.delivered ++ reads.conn.pending.take length) ++
      (readInput reads.conn length).pending
    rw [readInput]
    split
    · next drained =>
      rw [List.drop_eq_nil_of_le drained] at split
      exact split
    · exact split
  · show (readInput reads.conn length).inOff < (readInput reads.conn length).input.length ∨
      (readInput reads.conn length).input = [] ∧ (readInput reads.conn length).inOff = 0
    rw [readInput]
    split
    · exact Or.inr ⟨rfl, rfl⟩
    · next more => exact Or.inl (not_le.mp more)

/-- A read keeps account of every byte, when the records fit. -/
theorem tlsRead_accounted (accounted : Accounted reads) (call : Arrivals × Nat)
    (roomy : Roomy primitives now reads call) :
    Accounted (reads.tlsRead primitives now call.1 call.2) := by
  rw [Reads.tlsRead]
  split
  · next waiting =>
    refine handOut_accounted _ accounted.all ?_
    by_contra closed
    have nothing := (accounted.ended (Bool.eq_true_of_not_eq_false closed)).2
    exact absurd (List.drop_eq_nil_iff.mp nothing) (not_le.mpr waiting)
  next drained =>
  obtain ⟨empty, zero⟩ := accounted.buffer.resolve_left drained
  have nothing : reads.conn.pending = [] := pending_nil empty
  split
  · next closed => exact ⟨accounted.all, accounted.buffer, fun _ => ⟨closed, nothing⟩⟩
  next lasts =>
  have gains := tlsStep_gains call.1 empty (roomy nothing (Bool.eq_false_of_not_eq_true lasts))
  have running : reads.closed = false :=
    Bool.eq_false_of_not_eq_true fun closed => lasts (accounted.ended closed).1
  have decrypted : reads.decrypted ++ (tlsStep primitives now reads.conn call.1).2.2 =
      reads.delivered ++ (tlsStep primitives now reads.conn call.1).1.pending := by
    rw [accounted.all, nothing, List.append_nil, Conn.pending, gains.inOff, zero, gains.input,
      empty, List.nil_append, List.drop_zero]
  dsimp only
  split
  · next waiting => exact handOut_accounted _ decrypted running
  next still =>
  have off : (tlsStep primitives now reads.conn call.1).1.inOff = 0 := gains.inOff.trans zero
  have none : (tlsStep primitives now reads.conn call.1).1.input = [] :=
    List.eq_nil_of_length_eq_zero (by
      rw [off] at still
      exact Nat.eq_zero_of_not_pos still)
  refine ⟨decrypted, Or.inr ⟨none, off⟩, fun closed => ⟨?_, pending_nil none⟩⟩
  exact (Bool.or_eq_true_iff.mp closed).resolve_left (Bool.eq_false_iff.mp running)

/-! ### The law -/

/-- In every run whose records fit into the buffer no application data is lost. -/
theorem plaintext_lossless (primitives : Primitives) (now : Nat) {reads : Reads}
    (reachable : (readSystem primitives now).Reachable (Roomy primitives now) reads) :
    Lossless reads := by
  have accounted : Accounted reads := by
    refine reachable.invariant Accounted ?_ ?_
    · rintro state ⟨-, input, off, -, decrypted, delivered, closed⟩
      refine ⟨?_, Or.inr ⟨input, off⟩, fun ended => ?_⟩
      · rw [decrypted, delivered, pending_nil input]
        rfl
      · exact absurd (closed.symm.trans ended) Bool.false_ne_true
    · rintro state call next accounted roomy rfl
      exact tlsRead_accounted accounted call roomy
  refine ⟨⟨_, accounted.all.symm⟩, fun closed => ?_⟩
  rw [accounted.all, (accounted.ended closed).2, List.append_nil]

/-! ### Two reads -/

/-- A client behind its handshake, with nothing for the reader. -/
def sealedClient : Conn := { Conn.init [1] with state := .done, encRd := true, encWr := true }
def sealedReads : Reads := ⟨sealedClient, [], [], false⟩

/-- A record of application data, and a close_notify. -/
def sealedData (data : Bytes) : Record := ([23, 3, 3], data ++ [23] ++ zeros 16)
def closeNotify : Record := ([23, 3, 3], [1, 0, 21] ++ zeros 16)

def arrive (records : List Record) : Arrivals := ⟨tlsOk, .sent, records, false⟩

theorem readStep (reads : Reads) (arrivals : Arrivals) (length : Nat) :
    (readSystem plainPrimitives 0).step reads (arrivals, length)
      (reads.tlsRead plainPrimitives 0 arrivals length) := rfl

theorem sealedReads_initial : Reads.Initial sealedReads := ⟨rfl, rfl, rfl, rfl, rfl, rfl, rfl⟩

/-- A response of three bytes, read in two parts, and the end behind it. -/
def readTwice : Reads := sealedReads.tlsRead plainPrimitives 0 (arrive [sealedData [7, 8, 9]]) 2
def readAll : Reads := readTwice.tlsRead plainPrimitives 0 (arrive []) 2
def readEnd : Reads := readAll.tlsRead plainPrimitives 0 (arrive [closeNotify]) 2

theorem readEnd_fits :
    (tlsStep plainPrimitives 0 sealedReads.conn (arrive [sealedData [7, 8, 9]])).2.2.length ≤
        tlsMaxPlain ∧
      (tlsStep plainPrimitives 0 readTwice.conn (arrive [])).2.2.length ≤ tlsMaxPlain ∧
      (tlsStep plainPrimitives 0 readAll.conn (arrive [closeNotify])).2.2.length ≤ tlsMaxPlain ∧
      readEnd.closed = true ∧ readEnd.delivered = [7, 8, 9] := by
  decide +kernel

theorem plaintext_lossless_twice :
    readEnd.closed = true ∧ readEnd.delivered = [7, 8, 9] ∧ Lossless readEnd := by
  obtain ⟨one, two, three, closed, delivered⟩ := readEnd_fits
  refine ⟨closed, delivered, plaintext_lossless plainPrimitives 0 ?_⟩
  have first : (readSystem plainPrimitives 0).Reachable (Roomy plainPrimitives 0) sealedReads :=
    .init sealedReads_initial
  have second : (readSystem plainPrimitives 0).Reachable (Roomy plainPrimitives 0) readTwice :=
    first.step (fun _ _ => one) (readStep _ (arrive [sealedData [7, 8, 9]]) 2)
  have third : (readSystem plainPrimitives 0).Reachable (Roomy plainPrimitives 0) readAll :=
    second.step (fun _ _ => two) (readStep _ (arrive []) 2)
  exact third.step (fun _ _ => three) (readStep _ (arrive [closeNotify]) 2)

theorem openRecord_sealed {conn : Conn} (header data : Bytes) (type : UInt8) (real : type ≠ 0)
    (encrypted : conn.encRd = true) :
    openRecord plainPrimitives conn header (data ++ [type] ++ zeros 16) =
      .ok (type, data, { conn with rdSeq := conn.rdSeq + 1 }) := by
  have length : (data ++ [type] ++ zeros 16).length - 16 = (data ++ [type]).length := by
    rw [List.length_append, zeros, List.length_replicate, Nat.add_sub_cancel]
  have long : ¬ (data ++ [type] ++ zeros 16).length < 17 := by
    rw [List.length_append, List.length_append, zeros, List.length_replicate,
      List.length_singleton]
    omega
  have unpadded : unpad (data ++ [type]) = data ++ [type] := by
    rw [unpad, List.reverse_append, List.reverse_singleton, List.singleton_append,
      List.dropWhile_cons_of_neg (by rwa [decide_eq_true_iff]), List.reverse_cons,
      List.reverse_reverse]
  have opens : (if conn.suite = tlsChacha20Poly1305Sha256 then plainPrimitives.chachaOpen
      else plainPrimitives.gcmOpen) conn.rdKey (nonceFor conn.rdIv conn.rdSeq) header
        (data ++ [type]) (zeros 16) = some (data ++ [type]) := by
    have tagged : (if zeros 16 = zeros 16 then some (data ++ [type]) else none) =
        some (data ++ [type]) := if_pos rfl
    split
    · exact tagged
    · exact tagged
  rw [openRecord, encrypted, if_neg Bool.noConfusion, if_neg long, length]
  dsimp only
  rw [List.take_left, List.drop_left, opens]
  dsimp only
  rw [unpadded, List.getLast?_concat, List.dropLast_concat]

/-- A burst of `data` from a server. -/
theorem onRecord_sealed (conn : Conn) (data : Bytes) (encrypted : conn.encRd = true)
    (done : conn.state = .done) (small : data.length ≤ tlsMaxPlain) :
    onRecord plainPrimitives 0 conn (sealedData data).1 (sealedData data).2 =
        ({ conn with
          rdSeq := conn.rdSeq + 1
          input := conn.input ++ data.take (tlsMaxPlain - conn.input.length) }, []) ∧
      applicationData plainPrimitives conn (sealedData data) = data := by
  have fits : ¬ (tlsMaxRecord < (sealedData data).2.length ∨ (sealedData data).2 = []) := by
    have length : (sealedData data).2.length = data.length + 1 + 16 := by
      rw [sealedData, List.length_append, List.length_append, zeros, List.length_replicate,
        List.length_singleton]
    rintro (large | empty)
    · rw [length] at large
      have : tlsMaxPlain + 17 ≤ tlsMaxRecord := by decide
      omega
    · rw [empty] at length
      exact absurd length (by
        rw [List.length_nil]
        omega)
  have cipher : ¬ isPlainChangeCipher (sealedData data).1 (sealedData data).2 = true :=
    Bool.false_ne_true
  have opens : openRecord plainPrimitives conn (sealedData data).1 (sealedData data).2 =
      .ok (23, data, { conn with rdSeq := conn.rdSeq + 1 }) :=
    openRecord_sealed _ data 23 (by decide) encrypted
  rw [onRecord, applicationData, if_neg fits, if_neg cipher, if_neg fits, if_neg cipher]
  rw [opens]
  dsimp only
  rw [if_neg (by decide), if_neg (by decide), if_neg (by decide),
    if_pos (show (23 : UInt8) = recApplication from rfl), if_pos ⟨rfl, done⟩, onApplication, if_neg (not_not.mpr done)]
  exact ⟨rfl, rfl⟩

/-- A read that is as large as the buffer, with two records of `data` there, and one behind it. -/
def readBurst (data : Bytes) : Reads :=
  sealedReads.tlsRead plainPrimitives 0 (arrive [sealedData data, sealedData data]) tlsMaxPlain
def readClosed (data : Bytes) : Reads :=
  (readBurst data).tlsRead plainPrimitives 0 (arrive [closeNotify]) tlsMaxPlain

theorem burst_pumped {data : Bytes} (small : data.length ≤ tlsMaxPlain) :
    tlsStep plainPrimitives 0 sealedClient (arrive [sealedData data, sealedData data]) =
      ({ sealedClient with
        rdSeq := 2
        input := data ++ data.take (tlsMaxPlain - data.length) }, tlsWantRead, data ++ data) := by
  have first : onRecord plainPrimitives 0 sealedClient (sealedData data).1 (sealedData data).2 =
      ({ sealedClient with rdSeq := 1, input := data }, []) := by
    rw [(onRecord_sealed sealedClient data rfl rfl small).1]
    show ({ sealedClient with rdSeq := 1, input := data.take tlsMaxPlain }, _) = _
    rw [List.take_of_length_le small]
  obtain ⟨second, secondData⟩ :=
    onRecord_sealed { sealedClient with rdSeq := 1, input := data } data rfl rfl small
  show pump plainPrimitives 0 false sealedClient [sealedData data, sealedData data] = _
  rw [pump, first, (onRecord_sealed sealedClient data rfl rfl small).2, pump, second, secondData,
    pump]
  show (_, _, data ++ (data ++ [])) = _
  rw [List.append_nil]
  rfl

/-- A read that is large enough empties the buffer. -/
theorem handOut_whole {length : Nat} (start : reads.conn.inOff = 0)
    (fits : reads.conn.input.length ≤ length) :
    reads.handOut length = { reads with
      conn := { reads.conn with input := [], inOff := 0 }
      delivered := reads.delivered ++ reads.conn.input } := by
  rw [Reads.handOut, readInput, start, Nat.zero_add, if_pos fits, Conn.pending, start,
    List.drop_zero, List.take_of_length_le fits]

/-- All that fits is handed out at once. -/
theorem readBurst_eq {data : Bytes} (small : data.length ≤ tlsMaxPlain)
    (large : tlsMaxPlain < data.length + data.length) :
    readBurst data = ⟨{ sealedClient with rdSeq := 2 }, data ++ data,
      data ++ data.take (tlsMaxPlain - data.length), false⟩ := by
  have length : (data ++ data.take (tlsMaxPlain - data.length)).length = tlsMaxPlain := by
    rw [List.length_append, List.length_take]
    omega
  have pumped : tlsStep plainPrimitives 0 sealedReads.conn
      (arrive [sealedData data, sealedData data]) = _ := burst_pumped small
  rw [readBurst, Reads.tlsRead,
    if_neg (show ¬ sealedReads.conn.inOff < sealedReads.conn.input.length from Nat.lt_irrefl 0),
    if_neg (show ¬ sealedReads.conn.recvClosed = true from Bool.false_ne_true), pumped]
  dsimp only
  rw [if_pos (length.symm ▸ (by decide : 0 < tlsMaxPlain) :
    sealedClient.inOff < (data ++ data.take (tlsMaxPlain - data.length)).length)]
  exact handOut_whole rfl length.le

theorem closeNotify_pumped :
    tlsStep plainPrimitives 0 { sealedClient with rdSeq := 2 } (arrive [closeNotify]) =
      ({ sealedClient with rdSeq := 3, recvClosed := true }, tlsClosed, []) := by
  decide +kernel

theorem readClosed_eq {data : Bytes} (small : data.length ≤ tlsMaxPlain)
    (large : tlsMaxPlain < data.length + data.length) :
    readClosed data = ⟨{ sealedClient with rdSeq := 3, recvClosed := true }, data ++ data,
      data ++ data.take (tlsMaxPlain - data.length), true⟩ := by
  rw [readClosed, readBurst_eq small large, Reads.tlsRead]
  dsimp only
  rw [if_neg (show ¬ sealedClient.inOff < sealedClient.input.length from Nat.lt_irrefl 0),
    if_neg (show ¬ sealedClient.recvClosed = true from Bool.false_ne_true), closeNotify_pumped]
  dsimp only
  rw [if_neg (show ¬ sealedClient.inOff < sealedClient.input.length from Nat.lt_irrefl 0),
    List.append_nil]
  rfl

theorem readClosed_reachable (data : Bytes) :
    (readSystem plainPrimitives 0).Reachable anyStep (readClosed data) := by
  have start : (readSystem plainPrimitives 0).Reachable anyStep sealedReads :=
    .init sealedReads_initial
  have burst : (readSystem plainPrimitives 0).Reachable anyStep (readBurst data) :=
    start.step trivial
      (readStep sealedReads (arrive [sealedData data, sealedData data]) tlsMaxPlain)
  exact burst.step trivial (readStep (readBurst data) (arrive [closeNotify]) tlsMaxPlain)

/-- Two records of 9000 bytes: the end is told when 1616 bytes have not been handed out. -/
theorem burst_loses : ¬ ∀ reads, (readSystem plainPrimitives 0).Reachable anyStep reads →
    Lossless reads := by
  intro lossless
  obtain ⟨data, length⟩ : ∃ data : Bytes, data.length = 9000 :=
    ⟨List.replicate 9000 7, List.length_replicate⟩
  have most : tlsMaxPlain = 16384 := rfl
  have all := (lossless _ (readClosed_reachable data)).all
  rw [readClosed_eq (by omega) (by omega)] at all
  have lengths := congrArg List.length (all rfl)
  rw [List.length_append, List.length_append, List.length_take] at lengths
  omega

end MectovOS.Tls
