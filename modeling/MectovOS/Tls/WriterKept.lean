/-
This file proves that the output of a connection is a faithful stream of records, as long as
every record is emitted into an empty buffer: what a record of the server installs, what one
emission adds, and what a flush moves from the buffer to the transport.
-/

import MectovOS.Tls.AuthenticKept
import MectovOS.Tls.Writer

namespace MectovOS.Tls

open Transition

variable {primitives : Primitives} {seals : Seals} {conn next : Conn} {writer later : Writer}

/-! ### What a record of the server installs -/

/-- The keys for sending are left alone, and the transcript only grows. -/
structure SameKeys (conn next : Conn) : Prop where
  transcript : conn.transcript <+: next.transcript
  key : next.wrKey = conn.wrKey
  iv : next.wrIv = conn.wrIv
  seq : next.wrSeq = conn.wrSeq
  encWr : next.encWr = conn.encWr
  started : conn.state ≠ .start → next.state ≠ .start

/-- A connection goes on and installs keys, each over a longer transcript than all before. -/
structure Onward (conn : Conn) (installs : List Install) (next : Conn) : Prop where
  transcript : conn.transcript <+: next.transcript
  same : installs = [] → next.wrKey = conn.wrKey ∧ next.wrIv = conn.wrIv ∧
    next.wrSeq = conn.wrSeq ∧ next.encWr = conn.encWr
  last : ∀ install, installs.getLast? = some install → install.key = next.wrKey ∧
    install.iv = next.wrIv ∧ next.wrSeq = 0 ∧ next.encWr = true
  each : ∀ install ∈ installs, install.application = false ∧
    conn.transcript.length < install.transcript.length ∧
    install.transcript.length ≤ next.transcript.length
  rises : installs.Pairwise fun install other =>
    install.transcript.length < other.transcript.length
  started : conn.state ≠ .start → next.state ≠ .start

theorem SameKeys.onward (same : SameKeys conn next) : Onward conn [] next :=
  ⟨same.transcript, fun _ => ⟨same.key, same.iv, same.seq, same.encWr⟩,
    fun _ is => absurd is.symm (Option.some_ne_none _), fun _ member => absurd member
    List.not_mem_nil, List.Pairwise.nil, same.started⟩

theorem Onward.trans {third : Conn} {some_ more : List Install} (one : Onward conn some_ next)
    (two : Onward next more third) : Onward conn (some_ ++ more) third := by
  have shorter := one.transcript.length_le
  have longer := two.transcript.length_le
  refine ⟨one.transcript.trans two.transcript, fun none => ?_, fun install is => ?_,
    fun install member => ?_, List.pairwise_append.mpr ⟨one.rises, two.rises,
      fun install before other after => ?_⟩, fun start => two.started (one.started start)⟩
  · obtain ⟨nothing, neither⟩ := List.append_eq_nil_iff.mp none
    obtain ⟨key, iv, seq, encWr⟩ := one.same nothing
    obtain ⟨key', iv', seq', encWr'⟩ := two.same neither
    exact ⟨key'.trans key, iv'.trans iv, seq'.trans seq, encWr'.trans encWr⟩
  · rcases List.eq_nil_or_concat more with rfl | ⟨front, final, rfl⟩
    · rw [List.append_nil] at is
      obtain ⟨key, iv, seq, encWr⟩ := one.last install is
      obtain ⟨key', iv', seq', encWr'⟩ := two.same rfl
      exact ⟨key.trans key'.symm, iv.trans iv'.symm, seq'.trans seq, encWr'.trans encWr⟩
    · refine two.last install ?_
      rw [← is, List.concat_eq_append, ← List.append_assoc, List.getLast?_concat,
        List.getLast?_concat]
  · rcases List.mem_append.mp member with before | after
    · obtain ⟨handshake, low, high⟩ := one.each install before
      exact ⟨handshake, low, high.trans longer⟩
    · obtain ⟨handshake, low, high⟩ := two.each install after
      exact ⟨handshake, shorter.trans_lt low, high⟩
  · exact (one.each install before).2.2.trans_lt (two.each other after).2.1

theorem SameKeys.trans {third : Conn} (one : SameKeys conn next) (two : SameKeys next third) :
    SameKeys conn third :=
  ⟨one.transcript.trans two.transcript, two.key.trans one.key, two.iv.trans one.iv,
    two.seq.trans one.seq, two.encWr.trans one.encWr,
    fun start => two.started (one.started start)⟩

theorem SameKeys.fails (same : SameKeys conn next) (code : Int) :
    SameKeys conn (next.fails code) :=
  ⟨same.transcript, same.key, same.iv, same.seq, same.encWr, fun _ => TlsState.noConfusion⟩

theorem Onward.fails {installs : List Install} (onward : Onward conn installs next) (code : Int) :
    Onward conn installs (next.fails code) :=
  ⟨onward.transcript, onward.same, onward.last, onward.each, onward.rises,
    fun _ => TlsState.noConfusion⟩

theorem SameKeys.hash (conn : Conn) (message : Bytes) : SameKeys conn (conn.hash message) :=
  ⟨List.prefix_append .., rfl, rfl, rfl, rfl, id⟩

theorem parseServerHello_keys (conn : Conn) (body : Bytes) :
    SameKeys conn (parseServerHello conn body).2 ∧
      (parseServerHello conn body).2.transcript = conn.transcript := by
  have same : SameKeys conn conn := ⟨List.prefix_refl _, rfl, rfl, rfl, rfl, id⟩
  unfold parseServerHello
  dsimp only
  repeat' split
  all_goals exact ⟨⟨List.prefix_refl _, rfl, rfl, rfl, rfl, id⟩, rfl⟩

/-- Every message but an accepted ServerHello leaves the keys for sending alone. -/
theorem handleHandshake_keys (now : Nat) (conn : Conn) (message : Bytes)
    (other : ¬ (message.headD 0 = hsServerHello ∧
      (handleHandshake primitives now conn message).1 = tlsOk)) :
    SameKeys conn (handleHandshake primitives now conn message).2 := by
  have hashed := SameKeys.hash conn message
  unfold handleHandshake at other ⊢
  dsimp only at other ⊢
  split
  · exact ⟨List.prefix_refl _, rfl, rfl, rfl, rfl, id⟩
  rename_i length
  rw [if_neg length] at other
  split
  · next hello =>
    rw [if_pos hello] at other
    have refused : (onServerHello primitives conn message).1 ≠ tlsOk :=
      fun accepted => other ⟨hello, accepted⟩
    have parsed := hashed.trans (parseServerHello_keys (conn.hash message) (bodyOf message)).1
    unfold onServerHello at refused ⊢
    dsimp only at refused ⊢
    split
    · exact parsed
    · next accepted =>
      rw [if_neg accepted] at refused
      unfold deriveHandshakeKeys at refused ⊢
      dsimp only at refused ⊢
      split
      · exact parsed
      · next shared =>
        rw [if_neg shared] at refused
        exact absurd rfl refused
  split
  · exact ⟨hashed.transcript, rfl, rfl, rfl, rfl, fun _ => TlsState.noConfusion⟩
  split
  · exact hashed
  split
  · unfold onCertificate verifyChain
    dsimp only
    repeat' split
    all_goals exact ⟨hashed.transcript, rfl, rfl, rfl, rfl, fun start => by
      first | exact start | exact TlsState.noConfusion⟩
  split
  · unfold onCertVerify
    dsimp only
    split
    · exact hashed
    · exact ⟨hashed.transcript, rfl, rfl, rfl, rfl, fun _ => TlsState.noConfusion⟩
  split
  · unfold onFinished
    split
    · exact ⟨List.prefix_refl _, rfl, rfl, rfl, rfl, id⟩
    split
    · exact ⟨List.prefix_refl _, rfl, rfl, rfl, rfl, id⟩
    · exact ⟨hashed.transcript, rfl, rfl, rfl, rfl, fun _ => TlsState.noConfusion⟩
  split
  · exact hashed
  · exact ⟨List.prefix_refl _, rfl, rfl, rfl, rfl, id⟩

/-- An accepted ServerHello installs the keys of the handshake over the transcript with it. -/
theorem serverHello_onward (now : Nat) (conn : Conn) (message : Bytes)
    (hello : message.headD 0 = hsServerHello)
    (accepted : (handleHandshake primitives now conn message).1 = tlsOk) :
    Onward conn [⟨false, (handleHandshake primitives now conn message).2.transcript,
        (handleHandshake primitives now conn message).2.wrKey,
        (handleHandshake primitives now conn message).2.wrIv⟩]
      (handleHandshake primitives now conn message).2 := by
  have some_ : message ≠ [] := by
    rintro rfl
    exact absurd hello (by decide)
  have longer : conn.transcript.length < (conn.hash message).transcript.length := by
    show _ < (conn.transcript ++ message).length
    rw [List.length_append]
    exact Nat.lt_add_of_pos_right (List.length_pos_of_ne_nil some_)
  have parsed := parseServerHello_keys (conn.hash message) (bodyOf message)
  unfold handleHandshake at accepted ⊢
  dsimp only at accepted ⊢
  split at accepted
  · cases accepted
  rename_i length
  rw [if_neg length, if_pos hello] at *
  unfold onServerHello at accepted ⊢
  dsimp only at accepted ⊢
  split at accepted
  · next refused => exact absurd accepted refused
  rename_i parses
  rw [if_neg parses]
  unfold deriveHandshakeKeys at accepted ⊢
  dsimp only at accepted ⊢
  split at accepted
  · cases accepted
  rename_i shared
  rw [if_neg shared]
  dsimp only
  refine ⟨(SameKeys.hash conn message).transcript.trans parsed.1.transcript,
    fun none => absurd none (List.cons_ne_nil _ _), fun install is => ?_,
    fun install member => ?_, List.pairwise_singleton _ _,
    fun start => parsed.1.started start⟩
  · obtain rfl := Option.some.inj is
    exact ⟨rfl, rfl, rfl, rfl⟩
  · obtain rfl := List.mem_singleton.mp member
    refine ⟨rfl, ?_, le_refl _⟩
    show conn.transcript.length < (parseServerHello (conn.hash message) _).2.transcript.length
    rw [parsed.2]
    exact longer

/-- A message goes on from the connection in front of it. -/
theorem handled_onward (primitives : Primitives) (handled : Handled) :
    Onward handled.conn (installOf primitives handled).toList
      (handleHandshake primitives handled.now handled.conn handled.message).2 := by
  unfold installOf
  dsimp only
  split
  · next hello => exact serverHello_onward _ _ _ hello.1 hello.2
  · next other => exact (handleHandshake_keys _ _ _ other).onward

theorem filterMap_cons_toList {Item Value : Type} (pick : Item → Option Value) (item : Item)
    (rest : List Item) :
    (item :: rest).filterMap pick = (pick item).toList ++ rest.filterMap pick := by
  rw [List.filterMap_cons]
  cases pick item <;> rfl

theorem handleMessages_onward (opened : Option (Bytes × Bytes)) (now fuel : Nat) (conn : Conn)
    (plain : Bytes) :
    Onward conn ((handleMessages primitives opened now fuel conn plain).2.filterMap
        (installOf primitives)) (handleMessages primitives opened now fuel conn plain).1 := by
  have same (conn : Conn) : SameKeys conn conn := ⟨List.prefix_refl _, rfl, rfl, rfl, rfl, id⟩
  induction fuel generalizing conn plain with
  | zero =>
    rw [handleMessages]
    exact (same conn).onward
  | succ fuel inductionHypothesis =>
    have one := handled_onward primitives
      ⟨opened, now, conn, plain.take (4 + load24 plain 1)⟩
    rw [handleMessages]
    dsimp only
    split
    · exact (same conn).onward
    split
    · exact ((same conn).fails _).onward
    split
    · exact (same conn).onward
    split
    · rw [filterMap_cons_toList, List.filterMap_nil, List.append_nil]
      exact one.fails _
    split
    · rw [filterMap_cons_toList, List.filterMap_nil, List.append_nil]
      exact one
    · rw [filterMap_cons_toList]
      exact one.trans (inductionHypothesis _ _)

/-- A record of the server. -/
theorem onRecord_onward (primitives : Primitives) (now : Nat) (conn : Conn) (header fragment : Bytes) :
    Onward conn ((onRecord primitives now conn header fragment).2.filterMap
        (installOf primitives)) (onRecord primitives now conn header fragment).1 := by
  have same : SameKeys conn conn := ⟨List.prefix_refl _, rfl, rfl, rfl, rfl, id⟩
  unfold onRecord
  split
  · exact (same.fails _).onward
  split
  · exact same.onward
  split
  · exact (same.fails _).onward
  · next type plain behind opens =>
    obtain ⟨seq, counted⟩ := openRecord_counts opens
    have opened : SameKeys conn behind := by
      rw [counted]
      exact ⟨List.prefix_refl _, rfl, rfl, rfl, rfl, id⟩
    split
    · exact opened.onward
    split
    · refine (opened.trans ?_).onward
      unfold onAlert
      repeat' split
      all_goals exact ⟨List.prefix_refl _, rfl, rfl, rfl, rfl, fun start => by
        first | exact start | exact TlsState.noConfusion⟩
    split
    · exact opened.onward.trans (handleMessages_onward ..)
    split
    · refine (opened.trans ?_).onward
      unfold onApplication
      split
      · exact ⟨List.prefix_refl _, rfl, rfl, rfl, rfl, fun _ => TlsState.noConfusion⟩
      · exact ⟨List.prefix_refl _, rfl, rfl, rfl, rfl, id⟩
    · exact (opened.fails _).onward

/-! ### The stream -/

/-- The buffer behind what was sent holds the rest of the records, each in the clear or under the
keys of its installation, and the next sequence number is a new one. -/
structure Streaming (seals : Seals) (writer : Writer) : Prop where
  offset : writer.outOff ≤ writer.out.length
  stream : writer.wire ++ writer.pending = (writer.emitted.map Emitted.bytes).flatten
  genuine : ∀ record ∈ writer.emitted, record.Genuine seals writer.installs
  stamps : (writer.emitted.filterMap Emitted.stamp).Nodup
  seq : writer.conn.wrSeq = BitVec.ofNat 64 writer.sealed_
  past : ∀ stamp ∈ writer.emitted.filterMap Emitted.stamp, stamp.1 ≤ writer.installs.length ∧
    (stamp.1 = writer.installs.length → stamp.2 < writer.sealed_)
  keys : writer.conn.encWr = true → ∃ install, writer.installs.getLast? = some install ∧
    install.key = writer.conn.wrKey ∧ install.iv = writer.conn.wrIv

/-- The stream does not look at the rest of the connection. -/
theorem Streaming.same (streaming : Streaming seals writer)
    (buffer : later.out = writer.out ∧ later.outOff = writer.outOff ∧ later.wire = writer.wire)
    (records : later.emitted = writer.emitted ∧ later.installs = writer.installs ∧
      later.sealed_ = writer.sealed_)
    (keys : later.conn.wrKey = writer.conn.wrKey ∧ later.conn.wrIv = writer.conn.wrIv ∧
      later.conn.wrSeq = writer.conn.wrSeq ∧ later.conn.encWr = writer.conn.encWr) :
    Streaming seals later := by
  obtain ⟨out, outOff, wire⟩ := buffer
  obtain ⟨emitted, installs, sealed⟩ := records
  obtain ⟨key, iv, seq, encWr⟩ := keys
  refine ⟨?_, ?_, ?_, ?_, ?_, ?_, ?_⟩
  · rw [out, outOff]
    exact streaming.offset
  · rw [Writer.pending, out, outOff, wire, emitted]
    exact streaming.stream
  · rw [emitted, installs]
    exact streaming.genuine
  · rw [emitted]
    exact streaming.stamps
  · rw [seq, sealed]
    exact streaming.seq
  · rw [emitted, installs, sealed]
    exact streaming.past
  · rw [encWr, installs, key, iv]
    exact streaming.keys

/-- What sending leaves alone. -/
structure SameRest (writer later : Writer) : Prop where
  transcript : later.conn.transcript = writer.conn.transcript
  state : later.conn.state = writer.conn.state
  done : later.conn.done = writer.conn.done
  encWr : later.conn.encWr = writer.conn.encWr
  installs : later.installs = writer.installs
  hellos : later.hellos = writer.hellos
  writes : later.writes = writer.writes

theorem SameRest.trans {third : Writer} (one : SameRest writer later)
    (two : SameRest later third) : SameRest writer third :=
  ⟨two.transcript.trans one.transcript, two.state.trans one.state, two.done.trans one.done,
    two.encWr.trans one.encWr, two.installs.trans one.installs, two.hellos.trans one.hellos,
    two.writes.trans one.writes⟩

theorem SameRest.grows (rest : SameRest writer later) :
    writer.conn.transcript <+: later.conn.transcript := by rw [rest.transcript]

/-- The transport takes some bytes. -/
theorem Streaming.sends (streaming : Streaming seals writer) (more : Nat) :
    Streaming seals (writer.sends more) := by
  have pending : writer.pending.length = writer.out.length - writer.outOff := List.length_drop
  have offset := streaming.offset
  refine ⟨?_, ?_, streaming.genuine, streaming.stamps, streaming.seq, streaming.past,
    streaming.keys⟩
  · show writer.outOff + min (more + 1) writer.pending.length ≤ writer.out.length
    omega
  · show writer.wire ++ writer.pending.take (min (more + 1) writer.pending.length) ++
      writer.out.drop (writer.outOff + min (more + 1) writer.pending.length) = _
    rw [← List.drop_drop, List.append_assoc]
    have joined : writer.pending.take (min (more + 1) writer.pending.length) ++
        writer.pending.drop (min (more + 1) writer.pending.length) = writer.pending :=
      List.take_append_drop ..
    exact (congrArg (writer.wire ++ ·) joined).trans streaming.stream

/-- A buffer that is flushed to its end is empty again. -/
theorem Streaming.emptied (streaming : Streaming seals writer)
    (drained : writer.out.length ≤ writer.outOff) :
    Streaming seals { writer with out := [], outOff := 0 } := by
  refine ⟨le_refl _, ?_, streaming.genuine, streaming.stamps, streaming.seq, streaming.past,
    streaming.keys⟩
  have stream := streaming.stream
  rw [Writer.pending, List.drop_eq_nil_of_le drained] at stream
  exact stream

/-- A flush moves bytes from the buffer to the transport, and does no more. -/
theorem tlsFlush_spec (results : List SendResult) (writer : Writer)
    (streaming : Streaming seals writer) :
    Streaming seals (writer.tlsFlush results).2 ∧ SameRest writer (writer.tlsFlush results).2 ∧
      (writer.tlsFlush results).2.emitted = writer.emitted := by
  have rest : SameRest writer writer := ⟨rfl, rfl, rfl, rfl, rfl, rfl, rfl⟩
  induction results generalizing writer with
  | nil =>
    rw [Writer.tlsFlush]
    split
    · next drained =>
      exact ⟨streaming.emptied drained, ⟨rfl, rfl, rfl, rfl, rfl, rfl, rfl⟩, rfl⟩
    · exact ⟨streaming, rest, rfl⟩
  | cons result results inductionHypothesis =>
    unfold Writer.tlsFlush
    split
    · next drained =>
      exact ⟨streaming.emptied drained, ⟨rfl, rfl, rfl, rfl, rfl, rfl, rfl⟩, rfl⟩
    · cases result with
      | took more =>
        obtain ⟨after, same, emitted⟩ := inductionHypothesis (writer.sends more)
          (streaming.sends more) ⟨rfl, rfl, rfl, rfl, rfl, rfl, rfl⟩
        exact ⟨after, (SameRest.mk rfl rfl rfl rfl rfl rfl rfl :
          SameRest writer (writer.sends more)).trans same, emitted⟩
      | blocks => exact ⟨streaming, rest, rfl⟩
      | fails =>
        exact ⟨streaming.same ⟨rfl, rfl, rfl⟩ ⟨rfl, rfl, rfl⟩ ⟨rfl, rfl, rfl, rfl⟩,
          ⟨rfl, rfl, rfl, rfl, rfl, rfl, rfl⟩, rfl⟩

/-- A record that goes into an empty buffer is pending behind what was sent. -/
theorem Streaming.put_stream (streaming : Streaming seals writer)
    (drained : writer.drained = true) (record : Emitted) :
    writer.wire ++ (writer.put record).pending =
      ((writer.emitted ++ [record]).map Emitted.bytes).flatten := by
  have full : writer.out.length = writer.outOff :=
    le_antisymm (of_decide_eq_true drained) streaming.offset
  have stream := streaming.stream
  rw [Writer.pending, List.drop_eq_nil_of_le (le_of_eq full), List.append_nil] at stream
  have pending : (writer.put record).pending = record.bytes := by
    show (writer.out.take writer.outOff ++ record.bytes).drop writer.outOff = record.bytes
    rw [← full, List.take_length, List.drop_left]
  rw [pending, List.map_append, List.flatten_append, stream, List.map_singleton,
    List.flatten_singleton]

theorem genuine_installed {record : Emitted} {installs : List Install} (more : List Install)
    (genuine : record.Genuine seals installs) : record.Genuine seals (installs ++ more) := by
  unfold Emitted.Genuine at genuine ⊢
  split at genuine
  · exact genuine
  · obtain ⟨suite, install, found, some_, bytes⟩ := genuine
    refine ⟨suite, install, ?_, some_, bytes⟩
    exact (List.getElem?_append_left (List.getElem?_eq_some_iff.mp found).1).trans found

/-- What an emission does: it refuses, or it adds one record of the type and the content. -/
theorem emitRecord_spec (streaming : Streaming seals writer) (type : UInt8) (data : Bytes)
    (drained : writer.refuses data.length = false → writer.drained = true)
    (room : writer.refuses data.length = false → writer.conn.encWr = true →
      writer.sealed_ < 2 ^ 64) :
    SameRest writer (writer.emitRecord seals type data).2 ∧
      Streaming seals (writer.emitRecord seals type data).2 ∧
      (((writer.emitRecord seals type data).1 = tlsErrOverflow ∧
          writer.refuses data.length = true ∧
          (writer.emitRecord seals type data).2.emitted = writer.emitted) ∨
        ((writer.emitRecord seals type data).1 = tlsOk ∧
          writer.refuses data.length = false ∧ ∃ record : Emitted,
          record.type = type ∧ record.content = data ∧
          (writer.emitRecord seals type data).2.emitted = writer.emitted ++ [record])) := by
  rw [Writer.emitRecord]
  split
  · next refused =>
    exact ⟨⟨rfl, rfl, rfl, rfl, rfl, rfl, rfl⟩, streaming, Or.inl ⟨rfl, refused, rfl⟩⟩
  · next accepted =>
    have accepted := Bool.eq_false_of_not_eq_true accepted
    have offset : (writer.out.take writer.outOff).length = writer.outOff := by
      rw [List.length_take]
      exact min_eq_left streaming.offset
    have fits (record : Emitted) : writer.outOff ≤ (writer.put record).out.length := by
      show _ ≤ (writer.out.take writer.outOff ++ record.bytes).length
      rw [List.length_append, offset]
      exact Nat.le_add_right ..
    split
    · next encrypted =>
      have below := room accepted encrypted
      obtain ⟨install, last, key, iv⟩ := streaming.keys encrypted
      have seq : writer.conn.wrSeq.toNat = writer.sealed_ := by
        rw [streaming.seq, BitVec.toNat_ofNat, Nat.mod_eq_of_lt below]
      refine ⟨⟨rfl, rfl, rfl, rfl, rfl, rfl, rfl⟩, ?_, Or.inr ⟨rfl, accepted, _, rfl, rfl, rfl⟩⟩
      have stamps (record : Emitted) (stamp : Nat × Nat) (is : record.stamp = some stamp) :
          (writer.emitted ++ [record]).filterMap Emitted.stamp =
            writer.emitted.filterMap Emitted.stamp ++ [stamp] := by
        rw [List.filterMap_append]
        exact congrArg (_ ++ ·) (List.filterMap_cons_some is)
      refine ⟨fits _, streaming.put_stream (drained accepted) _, fun record member => ?_, ?_, ?_,
        fun stamp member => ?_, fun _ => ⟨install, last, key, iv⟩⟩
      · rcases List.mem_append.mp member with before | now
        · exact streaming.genuine record before
        · obtain rfl := List.mem_singleton.mp now
          refine ⟨writer.conn.suite, install, ?_, ?_, ?_⟩
          · exact List.getLast?_eq_getElem? ▸ last
          · exact List.length_pos_of_ne_nil fun none => by
              rw [none] at last
              cases last
          · show sealedRecordOf .. = _
            rw [key, iv, seq, ← streaming.seq]
      · show ((writer.emitted ++ [_]).filterMap Emitted.stamp).Nodup
        rw [stamps _ _ rfl]
        refine List.nodup_append.mpr ⟨streaming.stamps, List.nodup_singleton _, ?_⟩
        intro stamp before other now same
        obtain rfl := List.mem_singleton.mp now
        subst same
        have := (streaming.past _ before).2 rfl
        dsimp only at this
        omega
      · show writer.conn.wrSeq + 1 = BitVec.ofNat 64 (writer.sealed_ + 1)
        rw [streaming.seq, BitVec.ofNat_add]
        rfl
      · have member : stamp ∈ (writer.emitted ++ [_]).filterMap Emitted.stamp := member
        rw [stamps _ _ rfl] at member
        rcases List.mem_append.mp member with before | now
        · obtain ⟨low, below⟩ := streaming.past stamp before
          exact ⟨low, fun same => (below same).trans (Nat.lt_succ_self _)⟩
        · obtain rfl := List.mem_singleton.mp now
          exact ⟨le_refl _, fun _ => seq ▸ Nat.lt_succ_self _⟩
    · have stamps (record : Emitted) (is : record.stamp = none) :
          (writer.emitted ++ [record]).filterMap Emitted.stamp =
            writer.emitted.filterMap Emitted.stamp := by
        rw [List.filterMap_append]
        exact (congrArg (_ ++ ·) (List.filterMap_cons_none is)).trans (List.append_nil _)
      refine ⟨⟨rfl, rfl, rfl, rfl, rfl, rfl, rfl⟩, ?_, Or.inr ⟨rfl, accepted, _, rfl, rfl, rfl⟩⟩
      refine ⟨fits _, streaming.put_stream (drained accepted) _, fun record member => ?_, ?_,
        streaming.seq, fun stamp member => ?_, streaming.keys⟩
      · rcases List.mem_append.mp member with before | now
        · exact streaming.genuine record before
        · obtain rfl := List.mem_singleton.mp now
          exact rfl
      · show ((writer.emitted ++ [_]).filterMap Emitted.stamp).Nodup
        rw [stamps _ rfl]
        exact streaming.stamps
      · have member : stamp ∈ (writer.emitted ++ [_]).filterMap Emitted.stamp := member
        rw [stamps _ rfl] at member
        exact streaming.past stamp member

/-- New keys start at sequence number 0. -/
theorem Streaming.install (streaming : Streaming seals writer) {more : List Install}
    {install : Install} (last : more.getLast? = some install) (key : install.key = next.wrKey)
    (iv : install.iv = next.wrIv) (seq : next.wrSeq = 0) :
    Streaming seals { writer with
      conn := next, installs := writer.installs ++ more, sealed_ := 0 } := by
  have some_ : 0 < more.length := List.length_pos_of_ne_nil fun none => by
    rw [none] at last
    cases last
  refine ⟨streaming.offset, streaming.stream,
    fun record member => genuine_installed more (streaming.genuine record member),
    streaming.stamps, seq, fun stamp member => ?_, fun _ => ⟨install, ?_, key, iv⟩⟩
  · obtain ⟨low, -⟩ := streaming.past stamp member
    show stamp.1 ≤ (writer.installs ++ more).length ∧ (stamp.1 = (writer.installs ++ more).length → _)
    rw [List.length_append]
    exact ⟨by omega, fun same => absurd same (by omega)⟩
  · exact (List.getLast?_append_of_ne_nil _ (List.ne_nil_of_length_pos some_)).trans last

/-! ### The invariant -/

/-- The stream, with installations over ever longer transcripts, the one ClientHello in front of
the transcript, and the data that was accepted. -/
structure WriterInv (seals : Seals) (writer : Writer) : Prop where
  streaming : Streaming seals writer
  placed : ∀ install ∈ writer.installs,
    install.transcript.length ≤ writer.conn.transcript.length ∧ (install.application = true →
      install.transcript.length < writer.conn.transcript.length)
  distinct : (writer.installs.map fun install => (install.application, install.transcript)).Nodup
  hello : (writer.emitted.filter Emitted.isClientHello).map Emitted.content = writer.hellos
  one : writer.hellos.length ≤ 1
  asked : writer.conn.state ≠ .start → writer.conn.state ≠ .failed → writer.hellos.length = 1
  hashed : writer.hellos.flatten <+: writer.conn.transcript
  fresh : writer.hellos = [] → writer.conn.transcript = []
  written : (writer.emitted.filter fun record => record.type == recApplication).map
    Emitted.content = writer.writes
  start : writer.conn.state = .start → writer.conn.encWr = false

theorem WriterInv.faithful (inv : WriterInv seals writer) : writer.Faithful seals :=
  ⟨inv.streaming.stream, inv.streaming.genuine, inv.streaming.stamps, inv.distinct, inv.hello,
    inv.one, inv.asked, inv.hashed, inv.written⟩

/-- A step that emits no ClientHello and installs nothing. -/
theorem WriterInv.sent (inv : WriterInv seals writer) (streaming : Streaming seals later)
    {more : List Emitted} (emitted : later.emitted = writer.emitted ++ more)
    (quiet : more.filter Emitted.isClientHello = [])
    (installs : later.installs = writer.installs) (hellos : later.hellos = writer.hellos)
    (writes : later.writes = writer.writes ++
      (more.filter fun record => record.type == recApplication).map Emitted.content)
    (transcript : writer.conn.transcript <+: later.conn.transcript)
    (fresh : writer.hellos = [] → later.conn.transcript = [])
    (state : later.conn.state = .failed ∨ later.conn.state = writer.conn.state)
    (encWr : later.conn.encWr = writer.conn.encWr) : WriterInv seals later := by
  have longer := transcript.length_le
  refine ⟨streaming, fun install member => ?_, ?_, ?_, ?_, fun started alive => ?_, ?_, ?_, ?_,
    fun start => ?_⟩
  · rw [installs] at member
    obtain ⟨low, strict⟩ := inv.placed install member
    exact ⟨low.trans longer, fun application => (strict application).trans_le longer⟩
  · rw [installs]
    exact inv.distinct
  · rw [emitted, List.filter_append, quiet, List.append_nil, hellos]
    exact inv.hello
  · rw [hellos]
    exact inv.one
  · rw [hellos]
    rcases state with failed | same
    · exact absurd failed alive
    · exact inv.asked (same ▸ started) (same ▸ alive)
  · rw [hellos]
    exact inv.hashed.trans transcript
  · rw [hellos]
    exact fresh
  · rw [emitted, List.filter_append, List.map_append, inv.written, writes]
  · rcases state with failed | same
    · exact absurd (failed.symm.trans start) TlsState.noConfusion
    · rw [encWr]
      exact inv.start (same ▸ start)

/-- The connection fails. -/
theorem WriterInv.fails (inv : WriterInv seals writer) (code : Int) :
    WriterInv seals (writer.fails code) :=
  inv.sent (inv.streaming.same ⟨rfl, rfl, rfl⟩ ⟨rfl, rfl, rfl⟩ ⟨rfl, rfl, rfl, rfl⟩)
    (List.append_nil _).symm rfl rfl rfl (List.append_nil _).symm (List.prefix_refl _) inv.fresh
    (Or.inl rfl) rfl

theorem WriterInv.flush (inv : WriterInv seals writer) (results : List SendResult) :
    WriterInv seals (writer.tlsFlush results).2 := by
  obtain ⟨streaming, rest, emitted⟩ := tlsFlush_spec results writer inv.streaming
  refine inv.sent streaming (emitted.trans (List.append_nil _).symm) rfl rest.installs rest.hellos
    (rest.writes.trans (List.append_nil _).symm) ?_ (fun none => ?_) (Or.inr rest.state) rest.encWr
  · rw [rest.transcript]
  · rw [rest.transcript]
    exact inv.fresh none

/-- A record of the server, which may install keys. -/
theorem WriterInv.record (inv : WriterInv seals writer) (pulls : writer.conn.state.pulls = true)
    (now : Nat) (header fragment : Bytes) :
    WriterInv seals (writer.record primitives now header fragment) := by
  have onward := onRecord_onward primitives now writer.conn header fragment
  obtain ⟨waits, alive⟩ := Bool.and_eq_true_iff.mp pulls
  obtain ⟨started, -⟩ := Bool.and_eq_true_iff.mp waits
  have started : writer.conn.state ≠ .start := of_decide_eq_true started
  have alive : writer.conn.state ≠ .failed := of_decide_eq_true alive
  have longer := onward.transcript.length_le
  have asked := inv.asked started alive
  refine ⟨?_, fun install member => ?_, ?_, inv.hello, inv.one, fun _ _ => asked,
    inv.hashed.trans onward.transcript, fun none => ?_, inv.written,
    fun start => absurd start (onward.started started)⟩
  · cases installs : (onRecord primitives now writer.conn header fragment).2.filterMap
      (installOf primitives) with
    | nil =>
      obtain ⟨key, iv, seq, encWr⟩ := onward.same installs
      refine inv.streaming.same ⟨rfl, rfl, rfl⟩ ⟨rfl, ?_, ?_⟩ ⟨key, iv, seq, encWr⟩
      · exact (congrArg (writer.installs ++ ·) installs).trans (List.append_nil _)
      · exact if_pos installs
    | cons first rest =>
      have some_ : (onRecord primitives now writer.conn header fragment).2.filterMap
          (installOf primitives) ≠ [] := by
        rw [installs]
        exact List.cons_ne_nil _ _
      obtain ⟨install, last⟩ := Option.isSome_iff_exists.mp
        (List.getLast?_isSome.mpr some_)
      obtain ⟨key, iv, seq, -⟩ := onward.last install last
      have zero : (writer.record primitives now header fragment).sealed_ = 0 := if_neg some_
      exact (inv.streaming.install last key iv seq).same ⟨rfl, rfl, rfl⟩ ⟨rfl, rfl, zero⟩
        ⟨rfl, rfl, rfl, rfl⟩
  · rcases List.mem_append.mp member with before | now
    · obtain ⟨low, strict⟩ := inv.placed install before
      exact ⟨low.trans longer, fun application => (strict application).trans_le longer⟩
    · obtain ⟨handshake, -, high⟩ := onward.each install now
      exact ⟨high, fun application => absurd (handshake.symm.trans application) Bool.noConfusion⟩
  · show ((writer.installs ++ _).map _).Nodup
    rw [List.map_append]
    refine List.nodup_append.mpr ⟨inv.distinct, ?_, ?_⟩
    · refine List.pairwise_map.mpr (onward.rises.imp fun rises same => ?_)
      exact absurd (congrArg (fun pair => pair.2.length) same) (Nat.ne_of_lt rises)
    · intro pair before other after same
      obtain ⟨install, member, rfl⟩ := List.mem_map.mp before
      obtain ⟨later, added, rfl⟩ := List.mem_map.mp after
      have low := (inv.placed install member).1
      have high := (onward.each later added).2.1
      have equal := congrArg (fun pair => pair.2.length) same
      dsimp only at equal
      omega
  · rw [show writer.hellos = [] from none] at asked
    cases asked

theorem filter_single (pick : Emitted → Bool) {record : Emitted} (other : pick record = false) :
    [record].filter pick = [] := List.filter_eq_nil_iff.mpr fun item member => by
  rw [List.mem_singleton.mp member, other]
  exact Bool.noConfusion

theorem filter_own (pick : Emitted → Bool) {record : Emitted} (own : pick record = true) :
    [record].filter pick = [record] := List.filter_eq_self.mpr fun item member => by
  rw [List.mem_singleton.mp member, own]

theorem WriterInv.alert (inv : WriterInv seals writer) (fatal : Bool) (desc : UInt8)
    (results : List SendResult) (may : writer.mayEmit 2 = true) :
    WriterInv seals (writer.sendAlert seals fatal desc results) := by
  have alerted : WriterInv seals { writer with conn := { writer.conn with lastAlert := desc } } :=
    inv.sent (inv.streaming.same ⟨rfl, rfl, rfl⟩ ⟨rfl, rfl, rfl⟩ ⟨rfl, rfl, rfl, rfl⟩)
      (List.append_nil _).symm rfl rfl rfl (List.append_nil _).symm (List.prefix_refl _) inv.fresh
      (Or.inr rfl) rfl
  rw [Writer.sendAlert]
  dsimp only
  split
  · exact alerted
  · refine WriterInv.flush ?_ results
    have room (accepted : writer.refuses 2 = false) :
        writer.drained = true ∧ writer.sealed_ < 2 ^ 64 := by
      rw [Writer.mayEmit, accepted, Bool.false_or, Bool.and_eq_true] at may
      exact ⟨may.1, of_decide_eq_true may.2⟩
    obtain ⟨rest, streaming, emitted⟩ := emitRecord_spec alerted.streaming recAlert
      [if fatal then 2 else 1, desc] (fun accepted => (room accepted).1)
      (fun accepted _ => (room accepted).2)
    have transcript := rest.transcript
    rcases emitted with ⟨-, -, emitted⟩ | ⟨-, -, record, type, -, emitted⟩
    · exact alerted.sent streaming (emitted.trans (List.append_nil _).symm) rfl rest.installs
        rest.hellos (rest.writes.trans (List.append_nil _).symm) rest.grows
        (fun none => transcript.trans (alerted.fresh none)) (Or.inr rest.state) rest.encWr
    · have other : record.isClientHello = false := by
        rw [Emitted.isClientHello, type]
        rfl
      have data : (record.type == recApplication) = false := by
        rw [type]
        rfl
      refine alerted.sent streaming emitted (filter_single _ other) rest.installs
        rest.hellos ?_ rest.grows
        (fun none => transcript.trans (alerted.fresh none)) (Or.inr rest.state) rest.encWr
      rw [filter_single _ data]
      exact rest.writes.trans (List.append_nil _).symm

/-- What is clamped is refused. -/
theorem clamped_eq {buf : Bytes} (accepted : writer.refuses (clamped buf).length = false) :
    clamped buf = buf := by
  refine List.take_of_length_le (Nat.le_of_lt ?_)
  have length : (clamped buf).length = min tlsMaxPlain buf.length := List.length_take
  obtain ⟨-, room⟩ := Bool.or_eq_false_iff.mp accepted
  rw [length] at room
  have plain : tlsMaxPlain = 16384 := rfl
  split at room
  · obtain ⟨-, fits⟩ := Bool.or_eq_false_iff.mp room
    have := of_decide_eq_false fits
    omega
  · have := of_decide_eq_false room
    omega

/-- Data that is accepted is emitted whole. -/
theorem WriterInv.write (inv : WriterInv seals writer) (buf : Bytes)
    (may : writer.mayEmit (clamped buf).length = true) :
    WriterInv seals (writer.tlsWrite seals buf).2 := by
  have room (accepted : writer.refuses (clamped buf).length = false) :
      writer.drained = true ∧ writer.sealed_ < 2 ^ 64 := by
    rw [Writer.mayEmit, accepted, Bool.false_or, Bool.and_eq_true] at may
    exact ⟨may.1, of_decide_eq_true may.2⟩
  rw [Writer.tlsWrite]
  split
  · exact inv
  dsimp only
  obtain ⟨rest, streaming, emitted⟩ := emitRecord_spec inv.streaming recApplication (clamped buf)
    (fun accepted => (room accepted).1) (fun accepted _ => (room accepted).2)
  have transcript := rest.transcript
  rcases emitted with ⟨code, -, emitted⟩ | ⟨code, accepted, record, type, content, emitted⟩
  · rw [if_pos (by rw [code]; decide)]
    exact inv.sent streaming (emitted.trans (List.append_nil _).symm) rfl rest.installs
      rest.hellos (rest.writes.trans (List.append_nil _).symm) rest.grows
      (fun none => transcript.trans (inv.fresh none)) (Or.inr rest.state) rest.encWr
  · rw [if_neg (by rw [code]; exact fun differs => differs rfl)]
    have other : record.isClientHello = false := by
      rw [Emitted.isClientHello, type]
      rfl
    have data : [record].filter (fun record => record.type == recApplication) = [record] :=
      filter_own _ (beq_iff_eq.mpr type)
    have same : Streaming seals { (writer.emitRecord seals recApplication (clamped buf)).2 with
        writes := (writer.emitRecord seals recApplication (clamped buf)).2.writes ++ [buf] } :=
      streaming.same ⟨rfl, rfl, rfl⟩ ⟨rfl, rfl, rfl⟩ ⟨rfl, rfl, rfl, rfl⟩
    refine inv.sent same emitted (filter_single _ other) rest.installs rest.hellos ?_ rest.grows
      (fun none => transcript.trans (inv.fresh none)) (Or.inr rest.state) rest.encWr
    rw [data]
    show _ ++ [buf] = _ ++ [record.content]
    rw [rest.writes, content, clamped_eq accepted]

/-! ### The handshake of this side -/

/-- `send_handshake` emits the message, when it is not refused, and flushes. -/
theorem sendHandshake_spec (streaming : Streaming seals writer) (type : UInt8) (body : Bytes)
    (results : List SendResult) (drained : writer.drained = true)
    (room : writer.conn.encWr = true → writer.sealed_ < 2 ^ 64) :
    Streaming seals (writer.sendHandshake seals type body results).2 ∧
      SameRest { writer with conn := writer.conn.hash (ownMessage type body) }
        (writer.sendHandshake seals type body results).2 ∧
      ((writer.refuses (ownMessage type body).length = true ∧
          (writer.sendHandshake seals type body results).1 = tlsErrOverflow ∧
          (writer.sendHandshake seals type body results).2.emitted = writer.emitted) ∨
        ∃ record : Emitted, record.type = recHandshake ∧ record.content = ownMessage type body ∧
          (writer.sendHandshake seals type body results).2.emitted =
            writer.emitted ++ [record]) := by
  have hashed : Streaming seals { writer with
      conn := writer.conn.hash (ownMessage type body) } :=
    streaming.same ⟨rfl, rfl, rfl⟩ ⟨rfl, rfl, rfl⟩ ⟨rfl, rfl, rfl, rfl⟩
  obtain ⟨rest, after, emitted⟩ := emitRecord_spec hashed recHandshake (ownMessage type body)
    (fun _ => drained) (fun _ => room)
  rw [Writer.sendHandshake]
  rcases emitted with ⟨code, refused, emitted⟩ | ⟨code, -, record, is, content, emitted⟩
  · rw [if_pos (by rw [code]; decide)]
    exact ⟨after, rest, Or.inl ⟨refused, code, emitted⟩⟩
  · rw [if_neg (by rw [code]; exact fun differs => differs rfl)]
    obtain ⟨flushed, same, kept⟩ := tlsFlush_spec results _ after
    exact ⟨flushed, rest.trans same, Or.inr ⟨record, is, content, kept.trans emitted⟩⟩

/-- The first ClientHello. -/
theorem WriterInv.clientHello (inv : WriterInv seals writer)
    (privateKey publicKey session body : Bytes) (results : List SendResult)
    (first : writer.hellos = []) (drained : writer.drained = true)
    (start : writer.conn.state = .start) (short : body.length ≤ 512) :
    WriterInv seals (writer.clientHello seals privateKey publicKey session body results) := by
  have clear := inv.start start
  have empty := inv.fresh first
  have keyed : Streaming seals { writer with
      conn := { writer.conn with ksPriv := privateKey, ksPub := publicKey, sessionId := session }
      hellos := writer.hellos ++ [ownMessage hsClientHello body] } :=
    inv.streaming.same ⟨rfl, rfl, rfl⟩ ⟨rfl, rfl, rfl⟩ ⟨rfl, rfl, rfl, rfl⟩
  obtain ⟨streaming, rest, emitted⟩ := sendHandshake_spec keyed hsClientHello body results drained
    fun encrypted => absurd (clear.symm.trans encrypted) Bool.noConfusion
  have fits : writer.refuses (ownMessage hsClientHello body).length = false := by
    have length : (ownMessage hsClientHello body).length = 4 + body.length := by
      rw [ownMessage, List.length_append, List.length_append]
      rfl
    have off := of_decide_eq_true drained
    have plain : tlsMaxPlain = 16384 := rfl
    rw [Writer.refuses, clear, length]
    refine Bool.or_eq_false_iff.mpr ⟨decide_eq_false (by omega), decide_eq_false ?_⟩
    omega
  rcases emitted with ⟨refused, -⟩ | ⟨record, type, content, emitted⟩
  · exact absurd (fits.symm.trans refused) Bool.noConfusion
  have hello : record.isClientHello = true := by
    rw [Emitted.isClientHello, type, content]
    rfl
  have data : (record.type == recApplication) = false := by
    rw [type]
    rfl
  have transcript : _ = ownMessage hsClientHello body := rest.transcript.trans (by
    show writer.conn.transcript ++ _ = _
    rw [empty, List.nil_append])
  have hellos : _ = [ownMessage hsClientHello body] := rest.hellos.trans (by
    show writer.hellos ++ _ = _
    rw [first, List.nil_append])
  have encWr := rest.encWr
  have installs := rest.installs
  have writes := rest.writes
  have all : ∀ other : Writer, Streaming seals other →
      other.emitted = writer.emitted ++ [record] → other.installs = writer.installs →
      other.hellos = [ownMessage hsClientHello body] → other.writes = writer.writes →
      other.conn.transcript = ownMessage hsClientHello body → other.conn.encWr = false →
      WriterInv seals other := by
    intro other streaming emitted installs hellos writes transcript encWr
    refine ⟨streaming, fun install member => ?_, ?_, ?_, ?_, fun _ _ => ?_, ?_, fun none => ?_,
      ?_, fun _ => encWr⟩
    · rw [installs] at member
      obtain ⟨low, strict⟩ := inv.placed install member
      rw [empty] at low strict
      exact ⟨low.trans (Nat.zero_le _), fun application =>
        absurd (strict application) (Nat.not_lt_zero _)⟩
    · rw [installs]
      exact inv.distinct
    · rw [emitted, List.filter_append, List.map_append, inv.hello, first, hellos,
        filter_own _ hello, ← content]
      rfl
    · rw [hellos]
      exact le_refl _
    · rw [hellos]
      rfl
    · rw [hellos, transcript, List.flatten_singleton]
    · rw [hellos] at none
      cases none
    · rw [emitted, List.filter_append, List.map_append, inv.written, filter_single _ data, writes]
      exact List.append_nil _
  rw [Writer.clientHello]
  dsimp only
  split
  · exact all _ streaming emitted installs hellos writes transcript (encWr.trans clear)
  split
  · exact all _ (streaming.same ⟨rfl, rfl, rfl⟩ ⟨rfl, rfl, rfl⟩ ⟨rfl, rfl, rfl, rfl⟩) emitted
      installs hellos writes transcript (encWr.trans clear)
  · exact all _ (streaming.same ⟨rfl, rfl, rfl⟩ ⟨rfl, rfl, rfl⟩ ⟨rfl, rfl, rfl, rfl⟩) emitted
      installs hellos writes transcript (encWr.trans clear)

/-- The keys of the application are installed over the transcript in front of the Finished of the
client. -/
theorem WriterInv.install (inv : WriterInv seals writer) {transcript key iv : Bytes}
    (earlier : ∀ install ∈ writer.installs, install.application = true →
      install.transcript.length < transcript.length)
    (behind : transcript.length < writer.conn.transcript.length)
    (same : next.transcript = writer.conn.transcript ∧ next.encWr = writer.conn.encWr ∧
      next.wrSeq = 0 ∧ key = next.wrKey ∧ iv = next.wrIv)
    (state : next.state = .done) (one : writer.hellos.length = 1) :
    WriterInv seals { writer with
      conn := next, installs := writer.installs ++ [⟨true, transcript, key, iv⟩],
      sealed_ := 0 } := by
  obtain ⟨grown, encWr, seq, keys, ivs⟩ := same
  refine ⟨inv.streaming.install rfl keys ivs seq, fun install member => ?_, ?_, inv.hello,
    inv.one, fun _ _ => one, grown.symm ▸ inv.hashed, fun none => ?_, inv.written,
    fun start => absurd (state.symm.trans start) TlsState.noConfusion⟩
  · show install.transcript.length ≤ next.transcript.length ∧
      (install.application = true → install.transcript.length < next.transcript.length)
    rw [grown]
    rcases List.mem_append.mp member with before | now
    · exact inv.placed install before
    · obtain rfl := List.mem_singleton.mp now
      exact ⟨le_of_lt behind, fun _ => behind⟩
  · show ((writer.installs ++ [_]).map _).Nodup
    rw [List.map_append]
    refine List.nodup_append.mpr ⟨inv.distinct, List.nodup_singleton _, ?_⟩
    intro pair before other after equal
    obtain ⟨install, member, rfl⟩ := List.mem_map.mp before
    obtain rfl := List.mem_singleton.mp after
    have application := congrArg Prod.fst equal
    have length := congrArg (fun pair => pair.2.length) equal
    dsimp only at application length
    have := earlier install member application
    omega
  · rw [show writer.hellos = [] from none] at one
    cases one

/-- The Finished of the client goes out, and the keys of the application are installed. -/
theorem WriterInv.finish (inv : WriterInv seals writer) (results again : List SendResult)
    (drained : writer.drained = true) (room : writer.sealed_ < 2 ^ 64)
    (state : writer.conn.state = .sendFinished) :
    WriterInv seals (writer.finish primitives seals results again) := by
  have asked : writer.hellos.length = 1 :=
    inv.asked (state ▸ TlsState.noConfusion) (state ▸ TlsState.noConfusion)
  have verified : Streaming seals { writer with conn := { writer.conn with
      finishedKey := derive primitives 32 writer.conn.clientHsSecret "finished" [] } } :=
    inv.streaming.same ⟨rfl, rfl, rfl⟩ ⟨rfl, rfl, rfl⟩ ⟨rfl, rfl, rfl, rfl⟩
  obtain ⟨streaming, rest, emitted⟩ := sendHandshake_spec verified hsFinished
    (finishedMac primitives writer.conn.clientHsSecret (transcriptHash primitives writer.conn))
    results drained fun _ => room
  have grown : writer.conn.transcript <+: _ := (List.prefix_append ..).trans rest.grows
  have nonempty (none : writer.hellos = []) : False := by
    rw [none] at asked
    cases asked
  rw [Writer.finish]
  dsimp only
  generalize Writer.sendHandshake seals _ hsFinished _ results = sent at *
  have sentInv : WriterInv seals sent.2 := by
    rcases emitted with ⟨-, -, emitted⟩ | ⟨record, type, content, emitted⟩
    · exact inv.sent streaming (emitted.trans (List.append_nil _).symm) rfl rest.installs
        rest.hellos (rest.writes.trans (List.append_nil _).symm) grown
        (fun none => (nonempty none).elim) (Or.inr rest.state) rest.encWr
    · have other : record.isClientHello = false := by
        rw [Emitted.isClientHello, type, content]
        rfl
      have data : (record.type == recApplication) = false := by
        rw [type]
        rfl
      refine inv.sent streaming emitted (filter_single _ other) rest.installs rest.hellos ?_ grown
        (fun none => (nonempty none).elim) (Or.inr rest.state) rest.encWr
      rw [filter_single _ data]
      exact rest.writes.trans (List.append_nil _).symm
  split
  · exact sentInv.fails _
  have installed : WriterInv seals { sent.2 with
      conn := { deriveAppKeys primitives sent.2.conn (transcriptHash primitives writer.conn) with
        done := true
        state := .done }
      installs := sent.2.installs ++ [⟨true, writer.conn.transcript,
        (deriveAppKeys primitives sent.2.conn (transcriptHash primitives writer.conn)).wrKey,
        (deriveAppKeys primitives sent.2.conn (transcriptHash primitives writer.conn)).wrIv⟩]
      sealed_ := 0 } := by
    refine sentInv.install (fun install member application => ?_) ?_ ⟨rfl, rfl, rfl, rfl, rfl⟩ rfl
      (rest.hellos.symm ▸ asked)
    · exact (inv.placed install (rest.installs ▸ member)).2 application
    · rw [rest.transcript]
      show writer.conn.transcript.length < (writer.conn.transcript ++ _).length
      rw [List.length_append]
      exact Nat.lt_add_of_pos_right (Nat.zero_lt_succ _)
  have flushed := installed.flush again
  split
  · exact flushed.fails _
  · exact flushed

/-- A step that emits into an empty buffer keeps the invariant. -/
theorem WriterInv.on (inv : WriterInv seals writer) {event : WriterEvent}
    (unblocked : event.unblocked writer = true)
    (step : writer.on primitives seals event = some later) : WriterInv seals later := by
  cases event with
  | clientHello privateKey publicKey session body results =>
    obtain ⟨⟨start, short⟩, equal⟩ := Option.ite_none_right_eq_some.mp step
    obtain rfl := Option.some.inj equal
    obtain ⟨first, drained⟩ := Bool.and_eq_true_iff.mp unblocked
    exact inv.clientHello _ _ _ _ results (List.isEmpty_iff.mp first) drained start short
  | noEntropy =>
    obtain ⟨-, equal⟩ := Option.ite_none_right_eq_some.mp step
    obtain rfl := Option.some.inj equal
    exact inv.fails _
  | record now header fragment =>
    obtain ⟨pulls, equal⟩ := Option.ite_none_right_eq_some.mp step
    obtain rfl := Option.some.inj equal
    exact inv.record pulls now header fragment
  | transportFails =>
    obtain ⟨-, equal⟩ := Option.ite_none_right_eq_some.mp step
    obtain rfl := Option.some.inj equal
    exact inv.fails _
  | finish results again =>
    obtain ⟨state, equal⟩ := Option.ite_none_right_eq_some.mp step
    obtain rfl := Option.some.inj equal
    obtain ⟨drained, room⟩ := Bool.and_eq_true_iff.mp unblocked
    exact inv.finish results again drained (of_decide_eq_true room) state
  | flush results =>
    obtain rfl := Option.some.inj step
    exact inv.flush results
  | write buf =>
    obtain rfl := Option.some.inj step
    exact inv.write buf unblocked
  | alert fatal desc results =>
    obtain rfl := Option.some.inj step
    exact inv.alert fatal desc results unblocked
  | closeNotify results =>
    obtain rfl := Option.some.inj step
    rw [Writer.closeNotify]
    split
    · exact inv
    · exact inv.alert false 0 results unblocked

theorem WriterInv.initial (host : Bytes) : WriterInv seals (.init host) :=
  ⟨⟨le_refl _, rfl, fun _ member => absurd member List.not_mem_nil, List.nodup_nil, rfl,
      fun _ member => absurd member List.not_mem_nil, fun encrypted => absurd encrypted
      Bool.noConfusion⟩,
    fun _ member => absurd member List.not_mem_nil, List.nodup_nil, rfl, Nat.zero_le _,
    fun started => absurd rfl started, List.prefix_refl _, fun _ => rfl, rfl, fun _ => rfl⟩

/-! ### The law -/

/-- Seals with a tag of zeros. -/
def plainSeals : Seals where
  chachaSeal _ _ _ plain := plain ++ zeros 16
  gcmSeal _ _ _ plain := plain ++ zeros 16
  chachaLength _ _ _ _ := List.length_append
  gcmLength _ _ _ _ := List.length_append

/-- A record of the server, out of the events of the reader. -/
def arrives (label : Nat × TlsEvent) : WriterEvent :=
  match label with
  | (now, .record header fragment) => .record now header fragment
  | _ => .transportFails

/-- A handshake over a transport that takes the ClientHello in parts, two writes, and the end. -/
def twoWrites : List WriterEvent :=
  [.clientHello (zeros 32) (zeros 32) (zeros 32) [] [.took 2, .took 100],
    arrives (plainRecord serverHello), arrives (sealedRecord encryptedExtensions),
    arrives (sealedRecord oneCertificate), arrives (sealedRecord pssVerify),
    arrives (sealedRecord zeroFinished), .finish [.took 9, .blocks] [.took 100], .write [1, 2],
    .flush [.took 5, .blocks], .flush [.took 100], .write [3], .flush [.took 100],
    .closeNotify [.took 100]]

theorem twoWrites_emitted :
    (executeGuarded (fun writer event => WriterEvent.unblocked writer event)
        (Writer.on plainPrimitives plainSeals) (.init [1]) twoWrites).map
        (fun writer => (writer.emitted.map Emitted.stamp, writer.writes)) =
      some ([none, some (1, 0), some (2, 0), some (2, 1), some (2, 2)], [[1, 2], [3]]) := by
  decide +kernel

/-- The transport takes three bytes of the ClientHello and blocks; `tls_step` is called again. -/
def helloAgain : List WriterEvent :=
  [.clientHello (zeros 32) (zeros 32) (zeros 32) [] [.took 2, .blocks],
    .clientHello (zeros 32) (zeros 32) (zeros 32) [7] [.took 100]]

theorem helloAgain_sent :
    (execute (Writer.on plainPrimitives plainSeals) (.init [1]) helloAgain).map
        (fun writer => (writer.wire ++ writer.pending,
          (writer.emitted.map Emitted.bytes).flatten.length, writer.hellos.length)) =
      some ([22, 3, 3, 22, 3, 3, 0, 5, 1, 0, 0, 1, 7], 19, 2) := by decide +kernel

end MectovOS.Tls
