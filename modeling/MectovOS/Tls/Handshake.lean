/-
This file models the handshake of src/apps/lib/tls/tls13.c: the messages that
`handle_handshake` takes, the records that `tls_step` pulls, and the Finished of
the client. The bytes of the ClientHello, the wall clock and what the transport
answers are inputs of a step.
-/

import MectovOS.Lib.Transition
import MectovOS.Tls.Connection

namespace MectovOS.Tls

variable (primitives : Primitives)

/-! ### Messages -/

/-- A message joins the transcript. -/
def Conn.hash (conn : Conn) (message : Bytes) : Conn :=
  { conn with transcript := conn.transcript ++ message }

/-- The body of a message behind its header of four bytes. -/
def bodyOf (message : Bytes) : Bytes := message.drop 4

/-- The ServerHello. -/
def onServerHello (conn : Conn) (message : Bytes) : Int × Conn :=
  let parsed := parseServerHello (conn.hash message) (bodyOf message)
  if parsed.1 ≠ tlsOk then parsed else deriveHandshakeKeys primitives parsed.2

/-- The Certificate, whose chain has to verify for the host. -/
def onCertificate (now : Nat) (conn : Conn) (message : Bytes) : Int × Conn :=
  let split := splitCertificates conn.certs (bodyOf message)
  let presented := { conn.hash message with certs := split.2 }
  if split.1 ≠ tlsOk then (split.1, presented)
  else
    let verified := verifyChain primitives presented now
    if verified.1 ≠ tlsOk then verified
    else (tlsOk, { verified.2 with state := .waitCertVerify })

/-- The CertificateVerify, checked before it joins the transcript. -/
def onCertVerify (conn : Conn) (message : Bytes) : Int × Conn :=
  let code := verifyCertificateVerify primitives (conn.certs.headD [])
    (transcriptHash primitives conn) (bodyOf message)
  if code ≠ tlsOk then (code, conn.hash message)
  else (tlsOk, { conn.hash message with certVerifyOk := true, state := .waitServerFinished })

/-- The MAC of a Finished under a traffic secret. -/
def finishedMac (secret hash : Bytes) : Bytes :=
  primitives.hmacSha256 (derive primitives 32 secret "finished" []) hash

/-- The Finished of the server. -/
def onFinished (conn : Conn) (message : Bytes) : Int × Conn :=
  if conn.certVerifyOk = false then (tlsErrProtocol, conn)
  else if (bodyOf message).length ≠ 32 ∨
      bodyOf message ≠ finishedMac primitives conn.serverHsSecret
        (transcriptHash primitives conn) then
    (tlsErrVerify, conn)
  else (tlsOk, { conn.hash message with
    peerFinished := bodyOf message
    state := .sendFinished })

/-- `handle_handshake`: the type of the message alone decides what is done with it. -/
def handleHandshake (now : Nat) (conn : Conn) (message : Bytes) : Int × Conn :=
  let type := message.headD 0
  if 4 + load24 message 1 ≠ message.length then (tlsErrProtocol, conn)
  else if type = hsServerHello then onServerHello primitives conn message
  else if type = hsEncryptedExt then (tlsOk, { conn.hash message with state := .waitCert })
  else if type = hsCertRequest then (tlsOk, conn.hash message)
  else if type = hsCertificate then onCertificate primitives now conn message
  else if type = hsCertVerify then onCertVerify primitives conn message
  else if type = hsFinished then onFinished primitives conn message
  else if type = hsNewSessionTicket then (tlsOk, conn.hash message)
  else (tlsErrUnsupported, conn)

/-! ### Records -/

/-- A message that was handled: the keys its record was read with, `none` for a record in the
clear, the wall clock, the connection in front of it, and its bytes. -/
structure Handled where
  opened : Option (Bytes × Bytes)
  now : Nat
  conn : Conn
  message : Bytes

/-- The loop over the messages of a record, with the messages that it handles. A message that goes
on in the next record is dropped. -/
def handleMessages (opened : Option (Bytes × Bytes)) (now : Nat) :
    Nat → Conn → Bytes → Conn × List Handled
  | 0, conn, _ => (conn, [])
  | fuel + 1, conn, plain =>
    if plain.length < 4 then (conn, [])
    else if tlsHsMax < load24 plain 1 + 4 then (conn.fails tlsErrOverflow, [])
    else if plain.length < 4 + load24 plain 1 then (conn, [])
    else
      let message := plain.take (4 + load24 plain 1)
      let handled := handleHandshake primitives now conn message
      if handled.1 ≠ tlsOk then (handled.2.fails handled.1, [⟨opened, now, conn, message⟩])
      else if handled.2.state = .sendFinished then (handled.2, [⟨opened, now, conn, message⟩])
      else
        let rest := handleMessages opened now fuel handled.2 (plain.drop (4 + load24 plain 1))
        (rest.1, ⟨opened, now, conn, message⟩ :: rest.2)

/-- The keys with which the next record is read. -/
def Conn.readKeys (conn : Conn) : Option (Bytes × Bytes) :=
  if conn.encRd then some (conn.rdKey, conn.rdIv) else none

/-- An alert of the server. -/
def onAlert (conn : Conn) (plain : Bytes) : Conn :=
  if plain.length < 2 then { conn with recvClosed := true }
  else if plain.getD 1 0 ≠ 0 then
    { conn.fails tlsErrProtocol with lastAlert := plain.getD 1 0 }
  else { conn with lastAlert := 0, recvClosed := true }

/-- Application data goes to the reader once the handshake is done. -/
def onApplication (conn : Conn) (plain : Bytes) : Conn :=
  if conn.state ≠ .done then conn.fails tlsErrProtocol
  else { conn with input := conn.input ++ plain.take (tlsMaxPlain - conn.input.length) }

/-- A change_cipher_spec in the clear, which is skipped in front of the cipher. -/
def isPlainChangeCipher (header fragment : Bytes) : Bool :=
  header.getD 0 0 == recChangeCipher && fragment == [1]

/-- A record that `tls_step` has read, with the messages that it handles. -/
def onRecord (now : Nat) (conn : Conn) (header fragment : Bytes) : Conn × List Handled :=
  if tlsMaxRecord < fragment.length ∨ fragment = [] then (conn.fails tlsErrProtocol, [])
  else if isPlainChangeCipher header fragment then (conn, [])
  else
    match openRecord primitives conn header fragment with
    | .error code => (conn.fails code, [])
    | .ok (type, plain, opened) =>
      if type = recChangeCipher then (opened, [])
      else if type = recAlert then (onAlert opened plain, [])
      else if type = recHandshake then
        handleMessages primitives conn.readKeys now plain.length opened plain
      else if type = recApplication then (onApplication opened plain, [])
      else (opened.fails tlsErrProtocol, [])

/-! ### Steps -/

/-- What the transport does with the bytes it is given: it takes them, it asks to try later, or it
fails with a code. -/
inductive Sending where
  | sent
  | later
  | fails (code : Int)
  deriving DecidableEq

/-- The message of a handshake that this side sends. -/
def ownMessage (type : UInt8) (body : Bytes) : Bytes := [type] ++ store24 body.length ++ body

/-- The first part of `tls_step`: the ClientHello joins the transcript and is sent. -/
def sendClientHello (sending : Sending) (conn : Conn) (privateKey publicKey session body : Bytes) :
    Conn :=
  let conn := { conn.hash (ownMessage hsClientHello body) with
    ksPriv := privateKey
    ksPub := publicKey
    sessionId := session }
  match sending with
  | .sent => { conn with state := .waitServerHello }
  | .later => conn
  | .fails code => conn.fails code

/-- `finish_handshake`: the Finished of the client goes out, and the keys of the application are
installed. -/
def finishHandshake (sending : Sending) (conn : Conn) : Conn :=
  let hash := transcriptHash primitives conn
  let finished := { conn with
    finishedKey := derive primitives 32 conn.clientHsSecret "finished" [] }
  let conn := { finished.hash
      (ownMessage hsFinished (finishedMac primitives conn.clientHsSecret hash)) with
    wrSeq := conn.wrSeq + 1 }
  match sending with
  | .fails code => conn.fails code
  | _ => { deriveAppKeys primitives conn hash with done := true, state := .done }

/-- The part of `tls_read` that hands out bytes. -/
def readInput (conn : Conn) (length : Nat) : Conn :=
  if conn.input.length ≤ conn.inOff + length then { conn with input := [], inOff := 0 }
  else { conn with inOff := conn.inOff + length }

/-- What one turn of `tls_step` meets, or a read. -/
inductive TlsEvent where
  | clientHello (sending : Sending) (privateKey publicKey session body : Bytes)
  | noEntropy
  | record (header fragment : Bytes)
  | transportFails
  | finish (sending : Sending)
  | read (length : Nat)

/-- The connection behind an event, and the messages that were handled. An event that the state
does not ask for changes nothing. -/
def Conn.on (now : Nat) (conn : Conn) : TlsEvent → Conn × List Handled
  | .clientHello sending privateKey publicKey session body =>
    if conn.state = .start then
      (sendClientHello sending conn privateKey publicKey session body, [])
    else (conn, [])
  | .noEntropy => if conn.state = .start then (conn.fails tlsErrEntropy, []) else (conn, [])
  | .record header fragment =>
    if conn.state = .start ∨ conn.state = .sendFinished ∨ conn.state = .failed then (conn, [])
    else onRecord primitives now conn header fragment
  | .transportFails =>
    if conn.state = .start ∨ conn.state = .sendFinished ∨ conn.state = .failed then (conn, [])
    else (conn.fails tlsErrIo, [])
  | .finish sending =>
    if conn.state = .sendFinished then (finishHandshake primitives sending conn, [])
    else (conn, [])
  | .read length => (readInput conn length, [])

end MectovOS.Tls
