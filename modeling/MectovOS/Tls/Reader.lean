/-
This file models how `read_record` of src/apps/lib/tls/tls13.c puts a record
together from what the transport hands out, between one call of recv and the next.
The history keeps the bytes that were received and the records that were read.
-/

import MectovOS.Lib.Framing
import MectovOS.Lib.Transition
import MectovOS.Tls.Handshake

namespace MectovOS.Tls

open Transition Framing

/-! ### The reader -/

/-- A connection with the record under way: `hdr` and `rec` as far as they are filled. The bytes
received and the records read are history. -/
structure Session where
  conn : Conn
  hdr : Bytes
  body : Bytes
  consumed : Bytes
  records : List (Frame UInt8)

/-- The length of the body that a header tells, `none` for one that is refused. -/
def recordLength (hdr : Bytes) : Option Nat :=
  let length := rd16 hdr 3
  if tlsMaxRecord < length ∨ length = 0 then none else some length

variable (primitives : Primitives) (now : Nat) (sending : Sending)

/-- The turn of `tls_step` that reads nothing: the Finished of the client. -/
def ownTurn (conn : Conn) : Conn :=
  if conn.state = .sendFinished then finishHandshake primitives sending conn else conn

/-- A record that was read, and the turn behind it. -/
def takeRecord (conn : Conn) (record : Frame UInt8) : Conn :=
  ownTurn primitives sending (onRecord primitives now conn record.head record.body).1

/-- Is `tls_step` called again, and does it come to read? -/
def Session.reads (session : Session) : Bool :=
  decide (session.conn.state ≠ .start ∧ session.conn.state ≠ .sendFinished ∧
    session.conn.state ≠ .failed) && !session.conn.recvClosed

/-- How many bytes the reader asks for. -/
def Session.asks (session : Session) : Nat :=
  if session.hdr.length < 5 then 5 - session.hdr.length
  else rd16 session.hdr 3 - session.body.length

/-- Bytes of the header. -/
def Session.header (session : Session) (bytes : Bytes) : Session :=
  let hdr := session.hdr ++ bytes
  if 5 ≤ hdr.length ∧ recordLength hdr = none then
    { session with hdr := hdr, conn := session.conn.fails tlsErrProtocol }
  else { session with hdr := hdr }

/-- Bytes of the body. -/
def Session.fragment (session : Session) (bytes : Bytes) : Session :=
  let record : Frame UInt8 := ⟨session.hdr, session.body ++ bytes⟩
  if record.body.length < rd16 session.hdr 3 then { session with body := record.body }
  else { session with
    conn := takeRecord primitives now sending session.conn record
    hdr := []
    body := []
    records := session.records ++ [record] }

/-- The transport hands out bytes. -/
def Session.received (session : Session) (bytes : Bytes) : Session :=
  let session := { session with consumed := session.consumed ++ bytes }
  if session.hdr.length < 5 then session.header bytes
  else session.fragment primitives now sending bytes

/-- The transport has nothing, and `tls_step` is called again: behind a whole header `rec_have`
starts at 0. -/
def Session.wouldBlock (session : Session) : Session :=
  if session.hdr.length < 5 then session else { session with body := [] }

/-- The connection in front of its first record. -/
def Session.start (conn : Conn) : Session := ⟨ownTurn primitives sending conn, [], [], [], []⟩

/-- What a call of recv answers. -/
inductive RecvResult where
  | bytes (bytes : Bytes)
  | later

/-- A connection under any answers of recv. -/
def chunkSystem (conn : Conn) : System Session RecvResult where
  init session := session = .start primitives sending conn
  step session result next := session.reads = true ∧
    match result with
    | .bytes bytes => bytes ≠ [] ∧ bytes.length ≤ session.asks ∧
        next = session.received primitives now sending bytes
    | .later => next = session.wouldBlock

/-! ### The law -/

/-- The records that are handed to `open_record`. -/
def Session.handed (session : Session) : List (Frame UInt8) :=
  session.records.filter fun record => !isPlainChangeCipher record.head record.body

/-- What two sessions share whose transports have handed out the same bytes. -/
structure SameInput (first second : Session) : Prop where
  handed : first.handed = second.handed
  conn : first.conn = second.conn
  plaintext : first.conn.input = second.conn.input

/-- The transport has nothing only while no byte of a body has been received. -/
def BlocksBetween (session : Session) (result : RecvResult) : Prop :=
  result = .later → session.body = []

end MectovOS.Tls
