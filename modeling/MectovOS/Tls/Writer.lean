/-
This file models the output of src/apps/lib/tls/tls13.c: records that `emit_record` puts into
the output buffer, the flush that hands them to the transport in whatever sizes it takes, and
the steps that send: the ClientHello, the Finished, data and alerts. The seals of the ciphers
are parameters like the other primitives.
-/

import MectovOS.Tls.Handshake

namespace MectovOS.Tls

open Transition

/-- `tls_chacha20_poly1305_seal` and `tls_aes128_gcm_seal`: the ciphertext and the tag of 16 bytes
behind it. -/
structure Seals where
  chachaSeal : Bytes → Bytes → Bytes → Bytes → Bytes
  gcmSeal : Bytes → Bytes → Bytes → Bytes → Bytes
  chachaLength : ∀ key nonce aad plain,
    (chachaSeal key nonce aad plain).length = plain.length + 16
  gcmLength : ∀ key nonce aad plain, (gcmSeal key nonce aad plain).length = plain.length + 16

/-! ### Records -/

/-- A record that was emitted: its type and content, its bytes, and for a record under keys the
installation of the keys and the sequence number. -/
structure Emitted where
  type : UInt8
  content : Bytes
  bytes : Bytes
  stamp : Option (Nat × Nat)
  deriving DecidableEq

/-- An installation of write keys: at the end of the handshake or in it, over which transcript, and
the keys. -/
structure Install where
  application : Bool
  transcript : Bytes
  key : Bytes
  iv : Bytes
  deriving DecidableEq

/-- The connection with its output buffer up to `out_len`, and `out_off`. Then what the transport
has taken, the records emitted, the installations of keys, the records under the present keys, the
ClientHellos that were hashed, and the data that `tls_write` has accepted. -/
structure Writer where
  conn : Conn
  out : Bytes
  outOff : Nat
  wire : Bytes
  emitted : List Emitted
  installs : List Install
  sealed_ : Nat
  hellos : List Bytes
  writes : List Bytes

/-- What is not flushed yet. -/
def Writer.pending (writer : Writer) : Bytes := writer.out.drop writer.outOff

/-- A record in the clear. -/
def clearRecord (type : UInt8) (data : Bytes) : Bytes :=
  [type, 0x03, 0x03] ++ store16 data.length ++ data

/-- A record under keys. -/
def sealedRecordOf (seals : Seals) (suite : Nat) (key iv : Bytes) (seq : BitVec 64) (type : UInt8)
    (data : Bytes) : Bytes :=
  let header := [recApplication, 0x03, 0x03] ++ store16 (data.length + 17)
  header ++ (if suite = tlsChacha20Poly1305Sha256 then seals.chachaSeal else seals.gcmSeal)
    key (nonceFor iv seq) header (data ++ [type])

/-- The record goes to the buffer at `out_off`. -/
def Writer.put (writer : Writer) (record : Emitted) : Writer :=
  { writer with
    out := writer.out.take writer.outOff ++ record.bytes
    emitted := writer.emitted ++ [record] }

/-- Does `emit_record` refuse so many bytes? -/
def Writer.refuses (writer : Writer) (length : Nat) : Bool :=
  let pending := writer.out.length - writer.outOff
  decide (tlsMaxPlain < length) ||
    (if writer.conn.encWr then
      decide (tlsMaxRecord < length + 17) || decide (tlsMaxPlain < pending + (length + 17) + 5)
    else decide (tlsMaxPlain < pending + length + 5))

/-- `emit_record`. -/
def Writer.emitRecord (seals : Seals) (writer : Writer) (type : UInt8) (data : Bytes) :
    Int × Writer :=
  if writer.refuses data.length then (tlsErrOverflow, writer)
  else if writer.conn.encWr then
    let conn := writer.conn
    let record := sealedRecordOf seals conn.suite conn.wrKey conn.wrIv conn.wrSeq type data
    (tlsOk,
      { writer.put ⟨type, data, record, some (writer.installs.length, conn.wrSeq.toNat)⟩ with
        conn := { conn with wrSeq := conn.wrSeq + 1 }
        sealed_ := writer.sealed_ + 1 })
  else (tlsOk, writer.put ⟨type, data, clearRecord type data, none⟩)

/-! ### The transport -/

/-- What `send` answers: it takes one byte and some more, it would block, or it fails. -/
inductive SendResult where
  | took (more : Nat)
  | blocks
  | fails

/-- The transport takes bytes from the front of what is pending. -/
def Writer.sends (writer : Writer) (more : Nat) : Writer :=
  let taken := min (more + 1) writer.pending.length
  { writer with
    outOff := writer.outOff + taken
    wire := writer.wire ++ writer.pending.take taken }

/-- `tls_flush`. -/
def Writer.tlsFlush (writer : Writer) : List SendResult → Int × Writer
  | [] => if writer.out.length ≤ writer.outOff then (tlsOk, { writer with out := [], outOff := 0 })
    else (tlsWantWrite, writer)
  | result :: rest =>
    if writer.out.length ≤ writer.outOff then (tlsOk, { writer with out := [], outOff := 0 })
    else
      match result with
      | .took more => (writer.sends more).tlsFlush rest
      | .blocks => (tlsWantWrite, writer)
      | .fails => (tlsErrIo, { writer with conn := { writer.conn with err := tlsErrIo } })

/-! ### Handshake -/

/-- `send_handshake`. -/
def Writer.sendHandshake (seals : Seals) (writer : Writer) (type : UInt8) (body : Bytes)
    (results : List SendResult) : Int × Writer :=
  let hashed := { writer with conn := writer.conn.hash (ownMessage type body) }
  let emitted := hashed.emitRecord seals recHandshake (ownMessage type body)
  if emitted.1 ≠ tlsOk then emitted else emitted.2.tlsFlush results

def Writer.fails (writer : Writer) (code : Int) : Writer :=
  { writer with conn := writer.conn.fails code }

/-- `tls_step` in `ST_START`, with the ClientHello of at most 512 bytes that was built. -/
def Writer.clientHello (seals : Seals) (writer : Writer)
    (privateKey publicKey session body : Bytes) (results : List SendResult) : Writer :=
  let keyed := { writer with
    conn := { writer.conn with ksPriv := privateKey, ksPub := publicKey, sessionId := session }
    hellos := writer.hellos ++ [ownMessage hsClientHello body] }
  let sent := keyed.sendHandshake seals hsClientHello body results
  if sent.1 = tlsWantWrite then sent.2
  else if sent.1 ≠ tlsOk then sent.2.fails sent.1
  else { sent.2 with conn := { sent.2.conn with state := .waitServerHello } }

variable (primitives : Primitives)

/-- `finish_handshake`, with what the transport answers in its two flushes. -/
def Writer.finish (seals : Seals) (writer : Writer) (results again : List SendResult) : Writer :=
  let hash := transcriptHash primitives writer.conn
  let secret := writer.conn.clientHsSecret
  let verified := { writer with
    conn := { writer.conn with finishedKey := derive primitives 32 secret "finished" [] } }
  let sent := verified.sendHandshake seals hsFinished (finishedMac primitives secret hash) results
  if sent.1 ≠ tlsOk ∧ sent.1 ≠ tlsWantWrite then sent.2.fails sent.1
  else
    let conn := { deriveAppKeys primitives sent.2.conn hash with done := true, state := .done }
    let flushed := ({ sent.2 with
      conn := conn
      installs := sent.2.installs ++ [⟨true, writer.conn.transcript, conn.wrKey, conn.wrIv⟩]
      sealed_ := 0 } : Writer).tlsFlush again
    if flushed.1 ≠ tlsOk ∧ flushed.1 ≠ tlsWantWrite then flushed.2.fails flushed.1 else flushed.2

/-- The keys that a message of the server installs. -/
def installOf (handled : Handled) : Option Install :=
  let behind := handleHandshake primitives handled.now handled.conn handled.message
  if handled.message.headD 0 = hsServerHello ∧ behind.1 = tlsOk then
    some ⟨false, behind.2.transcript, behind.2.wrKey, behind.2.wrIv⟩
  else none

/-- A record of the server. -/
def Writer.record (writer : Writer) (now : Nat) (header fragment : Bytes) : Writer :=
  let behind := onRecord primitives now writer.conn header fragment
  let installs := behind.2.filterMap (installOf primitives)
  { writer with
    conn := behind.1
    installs := writer.installs ++ installs
    sealed_ := if installs = [] then writer.sealed_ else 0 }

/-! ### Data and alerts -/

/-- What `tls_write` tries to send of a buffer. -/
def clamped (buf : Bytes) : Bytes := buf.take tlsMaxPlain

/-- `tls_write`. -/
def Writer.tlsWrite (seals : Seals) (writer : Writer) (buf : Bytes) : Int × Writer :=
  if writer.conn.done = false then (tlsErrProtocol, writer)
  else
    let emitted := writer.emitRecord seals recApplication (clamped buf)
    if emitted.1 ≠ tlsOk then emitted
    else (tlsOk, { emitted.2 with writes := emitted.2.writes ++ [buf] })

/-- `tls_send_alert`. -/
def Writer.sendAlert (seals : Seals) (writer : Writer) (fatal : Bool) (desc : UInt8)
    (results : List SendResult) : Writer :=
  let alerted := { writer with conn := { writer.conn with lastAlert := desc } }
  if writer.conn.done && !writer.conn.encWr then alerted
  else ((alerted.emitRecord seals recAlert [if fatal then 2 else 1, desc]).2.tlsFlush results).2

/-- `tls_send_close_notify`. -/
def Writer.closeNotify (seals : Seals) (writer : Writer) (results : List SendResult) : Writer :=
  if writer.conn.done = false then writer else writer.sendAlert seals false 0 results

/-! ### Steps -/

/-- What a connection is driven by. -/
inductive WriterEvent where
  | clientHello (privateKey publicKey session body : Bytes) (results : List SendResult)
  | noEntropy
  | record (now : Nat) (header fragment : Bytes)
  | transportFails
  | finish (results again : List SendResult)
  | flush (results : List SendResult)
  | write (buf : Bytes)
  | alert (fatal : Bool) (desc : UInt8) (results : List SendResult)
  | closeNotify (results : List SendResult)

/-- Does `tls_step` pull records in a state? -/
def TlsState.pulls (state : TlsState) : Bool :=
  state ≠ .start && state ≠ .sendFinished && state ≠ .failed

/-- The writer behind an event; `none` for an event that the state does not ask for. -/
def Writer.on (seals : Seals) (writer : Writer) : WriterEvent → Option Writer
  | .clientHello privateKey publicKey session body results =>
    if writer.conn.state = .start ∧ body.length ≤ 512 then
      some (writer.clientHello seals privateKey publicKey session body results)
    else none
  | .noEntropy => if writer.conn.state = .start then some (writer.fails tlsErrEntropy) else none
  | .record now header fragment =>
    if writer.conn.state.pulls then some (writer.record primitives now header fragment) else none
  | .transportFails => if writer.conn.state.pulls then some (writer.fails tlsErrIo) else none
  | .finish results again =>
    if writer.conn.state = .sendFinished then some (writer.finish primitives seals results again)
    else none
  | .flush results => some (writer.tlsFlush results).2
  | .write buf => some (writer.tlsWrite seals buf).2
  | .alert fatal desc results => some (writer.sendAlert seals fatal desc results)
  | .closeNotify results => some (writer.closeNotify seals results)

/-- A connection behind `tls_init` and `tls_set_transport`. -/
def Writer.init (host : Bytes) : Writer := ⟨.init host, [], 0, [], [], [], 0, [], []⟩

def writerSystem (seals : Seals) : System Writer WriterEvent :=
  System.ofStep (fun writer => ∃ host, writer = .init host) (Writer.on primitives seals)

/-! ### The law -/

/-- Is a record the ClientHello? -/
def Emitted.isClientHello (record : Emitted) : Bool :=
  record.type == recHandshake && record.content.head? == some hsClientHello

/-- A record is in the clear, or sealed under the keys of its installation. -/
def Emitted.Genuine (seals : Seals) (installs : List Install) (record : Emitted) : Prop :=
  match record.stamp with
  | none => record.bytes = clearRecord record.type record.content
  | some (index, seq) => ∃ suite install, installs[index - 1]? = some install ∧ 1 ≤ index ∧
      record.bytes = sealedRecordOf seals suite install.key install.iv (BitVec.ofNat 64 seq)
        record.type record.content

/-- The output is a faithful stream of records: what was sent and what is pending are the emitted
records in order, no key is used twice with a sequence number and no keys are installed twice over
one transcript, the one ClientHello of the transcript is the one that was emitted, and the data
that `tls_write` accepted were emitted whole. -/
structure Writer.Faithful (seals : Seals) (writer : Writer) : Prop where
  stream : writer.wire ++ writer.pending = (writer.emitted.map Emitted.bytes).flatten
  genuine : ∀ record ∈ writer.emitted, record.Genuine seals writer.installs
  stamps : (writer.emitted.filterMap Emitted.stamp).Nodup
  installs : (writer.installs.map fun install => (install.application, install.transcript)).Nodup
  hello : (writer.emitted.filter Emitted.isClientHello).map Emitted.content = writer.hellos
  one : writer.hellos.length ≤ 1
  asked : writer.conn.state ≠ .start → writer.conn.state ≠ .failed → writer.hellos.length = 1
  hashed : writer.hellos.flatten <+: writer.conn.transcript
  written : (writer.emitted.filter fun record => record.type == recApplication).map
    Emitted.content = writer.writes

/-- Is everything flushed? -/
def Writer.drained (writer : Writer) : Bool := decide (writer.out.length ≤ writer.outOff)

/-- May a record of so many bytes be emitted: nothing of an earlier one is pending, and its
sequence number is a new one, or it is refused? -/
def Writer.mayEmit (writer : Writer) (length : Nat) : Bool :=
  writer.refuses length || writer.drained && decide (writer.sealed_ < 2 ^ 64)

/-- Every record is emitted into an empty buffer, the ClientHello is not asked for again after it
was blocked, and no key has sealed 2^64 records. -/
def WriterEvent.unblocked (writer : Writer) : WriterEvent → Bool
  | .clientHello _ _ _ _ _ => writer.hellos.isEmpty && writer.drained
  | .finish _ _ => writer.drained && decide (writer.sealed_ < 2 ^ 64)
  | .write buf => writer.mayEmit (clamped buf).length
  | .alert _ _ _ | .closeNotify _ => writer.mayEmit 2
  | _ => true

end MectovOS.Tls
