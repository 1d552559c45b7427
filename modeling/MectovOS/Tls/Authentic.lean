/-
This file states what the handshake of src/apps/lib/tls/tls13.c promises once it
is done: the messages of the server that were handled are one flight in its
order, each of them checked, and later messages change nothing that was settled.
-/

import Mathlib.Data.List.Chain
import MectovOS.Tls.Handshake

namespace MectovOS.Tls

open Transition

/-! ### The run -/

/-- The connection before and behind the last event, and the messages handled so far, in order. -/
structure TlsRun where
  before : Conn
  conn : Conn
  log : List Handled

variable (primitives : Primitives)

/-- The state behind an event. -/
def TlsRun.after (run : TlsRun) (now : Nat) (event : TlsEvent) : TlsRun where
  before := run.conn
  conn := (run.conn.on primitives now event).1
  log := run.log ++ (run.conn.on primitives now event).2

/-- A connection behind `tls_init`. -/
def TlsRun.Initial (run : TlsRun) : Prop :=
  (∃ host, run.conn = .init host) ∧ run.before = run.conn ∧ run.log = []

/-- The connection under any records, at any time. -/
def tlsSystem : System TlsRun (Nat × TlsEvent) where
  init := TlsRun.Initial
  step run label next := next = run.after primitives label.1 label.2

/-! ### A flight -/

def Handled.type (handled : Handled) : UInt8 := handled.message.headD 0

/-- The messages of a server, from its hello to its Finished. -/
structure Flight where
  hello : Handled
  extensions : Handled
  request : Option Handled
  certificate : Handled
  verify : Handled
  finished : Handled

/-- The messages under the keys of the handshake. -/
def Flight.protected (flight : Flight) : List Handled :=
  flight.extensions :: (flight.request.toList ++
    [flight.certificate, flight.verify, flight.finished])

def Flight.messages (flight : Flight) : List Handled := flight.hello :: flight.protected

/-- A message that is handled right behind another one: the transcript ends with that one. -/
def Follows (before after : Handled) : Prop :=
  after.conn.transcript = before.conn.transcript ++ before.message

/-- The connection behind a ServerHello. -/
def helloBehind (hello : Handled) : Conn :=
  (onServerHello primitives hello.conn hello.message).2

/-- The chain that a Certificate presents. -/
def presentedChain (certificate : Handled) : List Bytes :=
  (splitCertificates certificate.conn.certs (bodyOf certificate.message)).2

/-- A flight in which everything was checked: the hello is read in the clear and the other
messages under the keys that it gives; the chain verifies for the host; the leaf signs the
transcript up to the Certificate; and the Finished is the MAC of the transcript in front of it. -/
structure Flight.Authentic (flight : Flight) (host : Bytes) : Prop where
  hello : flight.hello.type = hsServerHello
  extensions : flight.extensions.type = hsEncryptedExt
  request : ∀ request, flight.request = some request → request.type = hsCertRequest
  certificate : flight.certificate.type = hsCertificate
  verify : flight.verify.type = hsCertVerify
  finished : flight.finished.type = hsFinished
  plain : flight.hello.opened = none
  keyed : ∀ message ∈ flight.protected,
    message.opened = some ((helloBehind primitives flight.hello).rdKey,
      (helloBehind primitives flight.hello).rdIv)
  chained : flight.messages.IsChain Follows
  chain : (primitives.verifyChain (presentedChain flight.certificate) host
    flight.certificate.now).1 = tlsOk
  signature : verifyCertificateVerify primitives ((presentedChain flight.certificate).headD [])
    (primitives.sha256 (flight.certificate.conn.transcript ++ flight.certificate.message))
    (bodyOf flight.verify.message) = tlsOk
  mac : bodyOf flight.finished.message =
    finishedMac primitives (helloBehind primitives flight.hello).serverHsSecret
      (primitives.sha256 (flight.verify.conn.transcript ++ flight.verify.message))

/-! ### The law -/

/-- The connection without what records go on to change once the handshake is done. -/
def Conn.settled (conn : Conn) : Conn :=
  { conn with
    state := .done
    err := 0
    rdSeq := 0
    transcript := []
    input := []
    inOff := 0
    lastAlert := 0
    recvClosed := false }

/-- What the handshake promises. -/
structure TlsKept (run : TlsRun) : Prop where
  authentic : run.conn.state = .done → ∃ (flight : Flight) (tickets : List Handled),
    run.log = flight.messages ++ tickets ∧ flight.Authentic primitives run.conn.host ∧
      ∀ ticket ∈ tickets, ticket.type = hsNewSessionTicket
  settled : run.before.state = .done → run.conn.settled = run.before.settled

/-- Does the handshake wait for a message of this type? -/
def waitsFor (conn : Conn) (requested : Bool) (type : UInt8) : Bool :=
  if type = hsServerHello then decide (conn.state = .waitServerHello) && !conn.encRd
  else if type = hsEncryptedExt then decide (conn.state = .waitServerHello) && conn.encRd
  else if type = hsCertRequest then decide (conn.state = .waitCert) && !requested
  else if type = hsCertificate then decide (conn.state = .waitCert)
  else if type = hsCertVerify then decide (conn.state = .waitCertVerify)
  else if type = hsFinished then decide (conn.state = .waitServerFinished)
  else if type = hsNewSessionTicket then decide (conn.state = .done)
  else true

/-- Was the client asked for a certificate? -/
def requestedIn (log : List Handled) : Bool :=
  log.any fun handled => handled.type == hsCertRequest

/-- A message comes in a record that was read with the keys in force, and when the handshake waits
for it. -/
def Expected (log : List Handled) (handled : Handled) : Prop :=
  handled.opened = handled.conn.readKeys ∧
    waitsFor handled.conn (requestedIn log) handled.type = true

/-- Every message that is handled is expected. -/
def InOrder (run : TlsRun) (label : Nat × TlsEvent) : Prop :=
  ∀ front handled back, (run.conn.on primitives label.1 label.2).2 = front ++ handled :: back →
    Expected (run.log ++ front) handled

end MectovOS.Tls
