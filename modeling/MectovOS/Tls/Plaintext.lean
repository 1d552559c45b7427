/-
This file models `tls_read` of src/apps/lib/tls/tls13.c behind the handshake, with
the record pump of `tls_step` under it, and states that no application data is lost.
The history keeps what was decrypted and what was handed out.
-/

import MectovOS.Lib.Transition
import MectovOS.Tls.Handshake

namespace MectovOS.Tls

open Transition

/-- `TLS_WANT_READ` and `TLS_CLOSED`. -/
def tlsWantRead : Int := 1
def tlsClosed : Int := -7

/-- A record: its header and its fragment. -/
abbrev Record := Bytes × Bytes

variable (primitives : Primitives) (now : Nat)

/-! ### The pump -/

/-- The application data that a record holds for a connection. -/
def applicationData (conn : Conn) (record : Record) : Bytes :=
  if tlsMaxRecord < record.2.length ∨ record.2 = [] then []
  else if isPlainChangeCipher record.1 record.2 then []
  else
    match openRecord primitives conn record.1 record.2 with
    | .error _ => []
    | .ok (type, plain, opened) =>
      if type = recApplication ∧ opened.state = .done then plain else []

/-- The loop of `tls_step` over the records that have arrived: the connection, the code, and the
application data that was decrypted. -/
def pump (transportFails : Bool) : Conn → List Record → Conn × Int × Bytes
  | conn, [] =>
    if transportFails then (conn.fails tlsErrIo, tlsErrIo, []) else (conn, tlsWantRead, [])
  | conn, record :: rest =>
    let next := (onRecord primitives now conn record.1 record.2).1
    let data := applicationData primitives conn record
    if next.state = .failed then (next, next.err, data)
    else if next.recvClosed then (next, tlsClosed, data)
    else if next.state = .sendFinished then (next, tlsWantWrite, data)
    else
      let later := pump transportFails next rest
      (later.1, later.2.1, data ++ later.2.2)

/-- What a call of `tls_step` meets: the outcome of a flush, the outcome of a Finished, the records
that have arrived, and whether the transport fails behind them. -/
structure Arrivals where
  flushed : Int
  sending : Sending
  records : List Record
  transportFails : Bool

/-- `tls_step` behind the ClientHello. -/
def tlsStep (conn : Conn) (arrivals : Arrivals) : Conn × Int × Bytes :=
  if conn.state = .failed then (conn, conn.err, [])
  else if conn.state = .done ∧ arrivals.flushed ≠ tlsOk then
    ({ conn with err := if arrivals.flushed < 0 then tlsErrIo else conn.err }, arrivals.flushed, [])
  else if conn.state = .sendFinished then
    let finished := finishHandshake primitives arrivals.sending conn
    (finished, if finished.state = .failed then finished.err else tlsOk, [])
  else pump primitives now arrivals.transportFails conn arrivals.records

/-! ### Reads -/

/-- The connection, the application data decrypted and handed out so far, and whether `tls_read`
has returned `TLS_CLOSED` behind a close_notify. -/
structure Reads where
  conn : Conn
  decrypted : Bytes
  delivered : Bytes
  closed : Bool

/-- The bytes that wait for the reader. -/
def Conn.pending (conn : Conn) : Bytes := conn.input.drop conn.inOff

/-- The end of `tls_read`: at most `length` bytes are handed out. -/
def Reads.handOut (reads : Reads) (length : Nat) : Reads :=
  { reads with
    conn := readInput reads.conn length
    delivered := reads.delivered ++ reads.conn.pending.take length }

/-- `tls_read`. -/
def Reads.tlsRead (reads : Reads) (arrivals : Arrivals) (length : Nat) : Reads :=
  if reads.conn.inOff < reads.conn.input.length then reads.handOut length
  else if reads.conn.recvClosed then { reads with closed := true }
  else
    let stepped := tlsStep primitives now reads.conn arrivals
    let reads := { reads with
      conn := stepped.1
      decrypted := reads.decrypted ++ stepped.2.2 }
    if stepped.1.inOff < stepped.1.input.length then reads.handOut length
    else { reads with closed := reads.closed || stepped.1.recvClosed }

/-- A handshake that is done, with nothing for the reader. -/
def Reads.Initial (reads : Reads) : Prop :=
  reads.conn.state = .done ∧ reads.conn.input = [] ∧ reads.conn.inOff = 0 ∧
    reads.conn.recvClosed = false ∧ reads.decrypted = [] ∧ reads.delivered = [] ∧
    reads.closed = false

/-- The connection under any calls of `tls_read` with any records between them. -/
def readSystem : System Reads (Arrivals × Nat) where
  init := Reads.Initial
  step reads call next := next = reads.tlsRead primitives now call.1 call.2

/-! ### The law -/

/-- What was handed out is the front of what was decrypted, and all of it behind the end. -/
structure Lossless (reads : Reads) : Prop where
  front : reads.delivered <+: reads.decrypted
  all : reads.closed = true → reads.delivered = reads.decrypted

/-- The application data that a read finds in the records that have arrived fits into the buffer. -/
def Roomy (reads : Reads) (call : Arrivals × Nat) : Prop :=
  reads.conn.pending = [] → reads.conn.recvClosed = false →
    (tlsStep primitives now reads.conn call.1).2.2.length ≤ tlsMaxPlain

end MectovOS.Tls
