/-
This file proves that the handshake keeps its promises in every run whose
messages come when they are waited for, and shows a server that leaves out its
EncryptedExtensions.
-/

import MectovOS.Tls.Authentic

namespace MectovOS.Tls

open Transition

variable {primitives : Primitives} {conn : Conn} {log : List Handled} {hello handled : Handled}
  {now : Nat} {message : Bytes} {opened : Option (Bytes × Bytes)}

/-! ### What a message keeps -/

theorem parseServerHello_same (conn : Conn) (body : Bytes) :
    (parseServerHello conn body).2.state = conn.state ∧
      (parseServerHello conn body).2.transcript = conn.transcript ∧
      (parseServerHello conn body).2.host = conn.host := by
  unfold parseServerHello
  dsimp only
  repeat' split
  all_goals exact ⟨rfl, rfl, rfl⟩

/-- The keys of a hello that is accepted are in force, and the handshake goes on waiting. -/
theorem onServerHello_ok (conn : Conn) (message : Bytes)
    (accepted : (onServerHello primitives conn message).1 = tlsOk) :
    (onServerHello primitives conn message).2.state = conn.state ∧
      (onServerHello primitives conn message).2.transcript = conn.transcript ++ message ∧
      (onServerHello primitives conn message).2.host = conn.host ∧
      (onServerHello primitives conn message).2.encRd = true := by
  obtain ⟨state, transcript, host⟩ := parseServerHello_same (conn.hash message) (bodyOf message)
  unfold onServerHello at accepted ⊢
  dsimp only at accepted ⊢
  split_ifs at accepted ⊢ with refused
  · exact absurd accepted refused
  · unfold deriveHandshakeKeys at accepted ⊢
    dsimp only at accepted ⊢
    split_ifs at accepted ⊢
    · exact absurd (show tlsErrProtocol = tlsOk from accepted) (by decide)
    · exact ⟨state, transcript, host, rfl⟩

/-- A certificate that is accepted presents a chain that verifies. -/
theorem onCertificate_ok (now : Nat) (conn : Conn) (message : Bytes)
    (accepted : (onCertificate primitives now conn message).1 = tlsOk) :
    (primitives.verifyChain (splitCertificates conn.certs (bodyOf message)).2 conn.host now).1 =
        tlsOk ∧
      (onCertificate primitives now conn message).2 = { conn.hash message with
        certs := (splitCertificates conn.certs (bodyOf message)).2
        verifyOk := true
        serverNotAfter := (primitives.verifyChain
          (splitCertificates conn.certs (bodyOf message)).2 conn.host now).2
        state := .waitCertVerify } := by
  unfold onCertificate verifyChain at accepted ⊢
  dsimp only at accepted ⊢
  split_ifs at accepted ⊢ with refused distrusted untrusted
  · exact absurd accepted refused
  · exact absurd accepted distrusted
  · exact ⟨not_not.mp distrusted, rfl⟩
  · exact absurd (not_not.mp distrusted) untrusted

theorem onCertVerify_ok (conn : Conn) (message : Bytes)
    (accepted : (onCertVerify primitives conn message).1 = tlsOk) :
    verifyCertificateVerify primitives (conn.certs.headD []) (primitives.sha256 conn.transcript)
        (bodyOf message) = tlsOk ∧
      (onCertVerify primitives conn message).2 = { conn.hash message with
        certVerifyOk := true
        state := .waitServerFinished } := by
  unfold onCertVerify at accepted ⊢
  dsimp only at accepted ⊢
  split_ifs at accepted ⊢ with refused
  · exact absurd accepted refused
  · exact ⟨not_not.mp refused, rfl⟩

theorem onFinished_ok (conn : Conn) (message : Bytes)
    (accepted : (onFinished primitives conn message).1 = tlsOk) :
    bodyOf message = finishedMac primitives conn.serverHsSecret
        (primitives.sha256 conn.transcript) ∧
      (onFinished primitives conn message).2 = { conn.hash message with
        peerFinished := bodyOf message
        state := .sendFinished } := by
  unfold onFinished at accepted ⊢
  split_ifs at accepted ⊢ with unproved wrong
  · exact absurd (show tlsErrProtocol = tlsOk from accepted) (by decide)
  · exact absurd (show tlsErrVerify = tlsOk from accepted) (by decide)
  · rw [not_or, not_not, not_not] at wrong
    exact ⟨wrong.2, rfl⟩

/-! ### Progress -/

/-- The flight is under way: its hello has given the keys in force, every later message was read
with them, and the transcript ends with the last message. -/
structure Underway (primitives : Primitives) (conn : Conn) (hello : Handled)
    (protected' : List Handled) : Prop where
  type : hello.type = hsServerHello
  plain : hello.opened = none
  encrypted : conn.encRd = true
  keys : conn.rdKey = (helloBehind primitives hello).rdKey ∧
    conn.rdIv = (helloBehind primitives hello).rdIv
  secret : conn.serverHsSecret = (helloBehind primitives hello).serverHsSecret
  keyed : ∀ message ∈ protected', message.opened =
    some ((helloBehind primitives hello).rdKey, (helloBehind primitives hello).rdIv)
  chained : (hello :: protected').IsChain Follows
  last : ∀ message ∈ (hello :: protected').getLast?,
    conn.transcript = message.conn.transcript ++ message.message

/-- The next message of a flight. -/
theorem Underway.next {protected' : List Handled} {next : Conn}
    (underway : Underway primitives conn hello protected')
    (from' : handled.conn = conn) (opened : handled.opened = conn.readKeys)
    (encrypted : next.encRd = conn.encRd) (key : next.rdKey = conn.rdKey)
    (iv : next.rdIv = conn.rdIv) (secret : next.serverHsSecret = conn.serverHsSecret)
    (transcript : next.transcript = conn.transcript ++ handled.message) :
    Underway primitives next hello (protected' ++ [handled]) where
  type := underway.type
  plain := underway.plain
  encrypted := encrypted.trans underway.encrypted
  keys := ⟨key.trans underway.keys.1, iv.trans underway.keys.2⟩
  secret := secret.trans underway.secret
  keyed := by
    intro message member
    rcases List.mem_append.mp member with earlier | last
    · exact underway.keyed message earlier
    · rw [List.mem_singleton.mp last, opened]
      unfold Conn.readKeys
      rw [if_pos underway.encrypted, underway.keys.1, underway.keys.2]
  chained := by
    rw [← List.cons_append, List.isChain_append]
    refine ⟨underway.chained, List.isChain_singleton _, fun message last next first => ?_⟩
    have is : next = handled := by
      rw [List.head?_cons] at first
      exact (Option.some.inj first).symm
    rw [is]
    unfold Follows
    rw [from']
    exact underway.last message last
  last := by
    intro message last
    rw [← List.cons_append, List.getLast?_append, List.getLast?_singleton] at last
    obtain rfl := Option.some.inj last
    rw [transcript, from']

/-- What a flight depends on. -/
structure SameFlight (conn next : Conn) : Prop where
  state : next.state = conn.state
  encrypted : next.encRd = conn.encRd
  key : next.rdKey = conn.rdKey
  iv : next.rdIv = conn.rdIv
  secret : next.serverHsSecret = conn.serverHsSecret
  transcript : next.transcript = conn.transcript
  host : next.host = conn.host
  certs : next.certs = conn.certs

theorem Underway.same {protected' : List Handled} {next : Conn}
    (underway : Underway primitives conn hello protected') (same : SameFlight conn next) :
    Underway primitives next hello protected' where
  type := underway.type
  plain := underway.plain
  encrypted := same.encrypted.trans underway.encrypted
  keys := ⟨same.key.trans underway.keys.1, same.iv.trans underway.keys.2⟩
  secret := same.secret.trans underway.secret
  keyed := underway.keyed
  chained := underway.chained
  last message last := same.transcript.trans (underway.last message last)

/-- The certificate is the one whose chain verified for the host. -/
structure Presented (primitives : Primitives) (host : Bytes) (certificate : Handled) : Prop where
  type : certificate.type = hsCertificate
  chain : (primitives.verifyChain (presentedChain certificate) host certificate.now).1 = tlsOk

/-- The leaf signed the transcript up to the Certificate. -/
structure Proved (primitives : Primitives) (certificate verify : Handled) : Prop where
  type : verify.type = hsCertVerify
  signature : verifyCertificateVerify primitives ((presentedChain certificate).headD [])
    (primitives.sha256 (certificate.conn.transcript ++ certificate.message))
    (bodyOf verify.message) = tlsOk

/-- The messages between the hello and the Certificate. -/
structure Extended (extensions : Handled) (request : Option Handled) : Prop where
  type : extensions.type = hsEncryptedExt
  request : ∀ message, request = some message → message.type = hsCertRequest

/-- How far the flight is in each state of the handshake. -/
inductive Stage (primitives : Primitives) (conn : Conn) (log : List Handled) : TlsState → Prop
  | start (empty : log = []) (plain : conn.encRd = false) : Stage primitives conn log .start
  | fresh (empty : log = []) (plain : conn.encRd = false) :
      Stage primitives conn log .waitServerHello
  | greeted (hello : Handled) (is : log = [hello]) (underway : Underway primitives conn hello []) :
      Stage primitives conn log .waitServerHello
  | extended (hello extensions : Handled) (request : Option Handled)
      (is : log = hello :: extensions :: request.toList)
      (underway : Underway primitives conn hello (extensions :: request.toList))
      (types : Extended extensions request) : Stage primitives conn log .waitCert
  | presented (hello extensions : Handled) (request : Option Handled) (certificate : Handled)
      (is : log = hello :: extensions :: (request.toList ++ [certificate]))
      (underway : Underway primitives conn hello (extensions :: (request.toList ++ [certificate])))
      (types : Extended extensions request) (chain : Presented primitives conn.host certificate)
      (certs : conn.certs = presentedChain certificate) :
      Stage primitives conn log .waitCertVerify
  | proved (hello extensions : Handled) (request : Option Handled) (certificate verify : Handled)
      (is : log = hello :: extensions :: (request.toList ++ [certificate, verify]))
      (underway : Underway primitives conn hello
        (extensions :: (request.toList ++ [certificate, verify])))
      (types : Extended extensions request) (chain : Presented primitives conn.host certificate)
      (signature : Proved primitives certificate verify) :
      Stage primitives conn log .waitServerFinished
  | finished (flight : Flight) (is : log = flight.messages)
      (authentic : flight.Authentic primitives conn.host) : Stage primitives conn log .sendFinished
  | done (flight : Flight) (tickets : List Handled) (is : log = flight.messages ++ tickets)
      (authentic : flight.Authentic primitives conn.host)
      (types : ∀ ticket ∈ tickets, ticket.type = hsNewSessionTicket) :
      Stage primitives conn log .done
  | failed : Stage primitives conn log .failed

/-- The flight is as far as the state of the connection says. -/
def Progress (primitives : Primitives) (conn : Conn) (log : List Handled) : Prop :=
  Stage primitives conn log conn.state

theorem Progress.stage {state : TlsState} (progress : Progress primitives conn log)
    (is : conn.state = state) : Stage primitives conn log state := is ▸ progress

theorem Stage.progress {state : TlsState} (stage : Stage primitives conn log state)
    (is : conn.state = state) : Progress primitives conn log := by
  unfold Progress
  rw [is]
  exact stage

theorem Progress.fails (log : List Handled) (conn : Conn) (code : Int) :
    Progress primitives (conn.fails code) log := Stage.failed

/-- Progress reads nothing but the flight. -/
theorem Progress.same {next : Conn} (progress : Progress primitives conn log)
    (same : SameFlight conn next) : Progress primitives next log := by
  have host := same.host
  obtain ⟨state, here⟩ : ∃ state, conn.state = state := ⟨_, rfl⟩
  refine Stage.progress ?_ (same.state.trans here)
  cases progress.stage here with
  | start empty plain => exact .start empty (same.encrypted.trans plain)
  | fresh empty plain => exact .fresh empty (same.encrypted.trans plain)
  | greeted hello is underway => exact .greeted hello is (underway.same same)
  | extended hello extensions request is underway types =>
    exact .extended hello extensions request is (underway.same same) types
  | presented hello extensions request certificate is underway types chain certs =>
    exact .presented hello extensions request certificate is (underway.same same) types
      (host ▸ chain) (same.certs.trans certs)
  | proved hello extensions request certificate verify is underway types chain signature =>
    exact .proved hello extensions request certificate verify is (underway.same same) types
      (host ▸ chain) signature
  | finished flight is authentic => exact .finished flight is (host ▸ authentic)
  | done flight tickets is authentic types => exact .done flight tickets is (host ▸ authentic) types
  | failed => exact .failed

/-! ### What each message adds -/

/-- The ServerHello starts a flight. -/
theorem Progress.serverHello (progress : Progress primitives conn log)
    (waits : conn.state = .waitServerHello) (plain : conn.encRd = false)
    (from' : handled.conn = conn) (opened : handled.opened = conn.readKeys)
    (type : handled.type = hsServerHello)
    (accepted : (onServerHello primitives conn handled.message).1 = tlsOk) :
    Progress primitives (onServerHello primitives conn handled.message).2 (log ++ [handled]) := by
  obtain ⟨state, transcript, _, encrypted⟩ := onServerHello_ok conn handled.message accepted
  refine Stage.progress ?_ (state.trans waits)
  have empty : log = [] := by
    cases progress.stage waits with
    | fresh empty _ => exact empty
    | greeted _ _ underway => exact absurd (plain.symm.trans underway.encrypted) (by decide)
  have behind : helloBehind primitives handled =
      (onServerHello primitives conn handled.message).2 := by
    unfold helloBehind
    rw [from']
  rw [empty]
  refine .greeted handled rfl ⟨type, ?_, encrypted, ?_, ?_, ?_, ?_, ?_⟩
  · rw [opened]
    unfold Conn.readKeys
    rw [if_neg (by rw [plain]; decide)]
  · rw [behind]
    exact ⟨rfl, rfl⟩
  · rw [behind]
  · exact fun _ member => absurd member List.not_mem_nil
  · exact List.isChain_singleton _
  · intro message last
    obtain rfl : handled = message := Option.some.inj last
    rw [transcript, from']

/-- The EncryptedExtensions come right behind the hello. -/
theorem Progress.encryptedExt (progress : Progress primitives conn log)
    (waits : conn.state = .waitServerHello) (encrypted : conn.encRd = true)
    (from' : handled.conn = conn) (opened : handled.opened = conn.readKeys)
    (type : handled.type = hsEncryptedExt) :
    Progress primitives { conn.hash handled.message with state := .waitCert }
      (log ++ [handled]) := by
  cases progress.stage waits with
  | fresh _ plain => exact absurd (plain.symm.trans encrypted) (by decide)
  | greeted hello is underway =>
    refine Stage.progress ?_ rfl
    rw [is]
    exact .extended hello handled none rfl
      (underway.next from' opened rfl rfl rfl rfl rfl)
      ⟨type, fun _ none' => absurd none'.symm (Option.some_ne_none _)⟩

/-- Is there no request yet, one may come. -/
theorem Progress.certRequest (progress : Progress primitives conn log)
    (waits : conn.state = .waitCert) (first : requestedIn log = false)
    (from' : handled.conn = conn) (opened : handled.opened = conn.readKeys)
    (type : handled.type = hsCertRequest) :
    Progress primitives (conn.hash handled.message) (log ++ [handled]) := by
  cases progress.stage waits with
  | extended hello extensions request is underway types =>
    refine Stage.progress ?_ waits
    cases request with
    | some request =>
      rw [is] at first
      have requested : requestedIn (hello :: extensions :: (some request).toList) = true := by
        unfold requestedIn
        rw [List.any_eq_true]
        exact ⟨request, by simp, beq_iff_eq.mpr (types.request request rfl)⟩
      exact absurd (first.symm.trans requested) (by decide)
    | none =>
      rw [is]
      refine .extended hello extensions (some handled) rfl
        (underway.next from' opened rfl rfl rfl rfl rfl) ⟨types.type, fun message is => ?_⟩
      rw [← Option.some.inj is]
      exact type

/-- The Certificate, whose chain verified. -/
theorem Progress.certificate (progress : Progress primitives conn log)
    (waits : conn.state = .waitCert) (from' : handled.conn = conn)
    (opened : handled.opened = conn.readKeys) (type : handled.type = hsCertificate)
    (accepted : (onCertificate primitives handled.now conn handled.message).1 = tlsOk) :
    Progress primitives (onCertificate primitives handled.now conn handled.message).2
      (log ++ [handled]) := by
  obtain ⟨chain, behind⟩ := onCertificate_ok handled.now conn handled.message accepted
  rw [behind]
  cases progress.stage waits with
  | extended hello extensions request is underway types =>
    refine Stage.progress ?_ rfl
    rw [is]
    refine .presented hello extensions request handled rfl
      (underway.next from' opened rfl rfl rfl rfl rfl) types ⟨type, ?_⟩ ?_
    · unfold presentedChain
      rw [from']
      exact chain
    · unfold presentedChain
      rw [from']

/-- The CertificateVerify, over the transcript that ends with the Certificate. -/
theorem Progress.certVerify (progress : Progress primitives conn log)
    (waits : conn.state = .waitCertVerify) (from' : handled.conn = conn)
    (opened : handled.opened = conn.readKeys) (type : handled.type = hsCertVerify)
    (accepted : (onCertVerify primitives conn handled.message).1 = tlsOk) :
    Progress primitives (onCertVerify primitives conn handled.message).2 (log ++ [handled]) := by
  obtain ⟨signature, behind⟩ := onCertVerify_ok conn handled.message accepted
  rw [behind]
  cases progress.stage waits with
  | presented hello extensions request certificate is underway types chain certs =>
    refine Stage.progress ?_ rfl
    have longer : extensions :: (request.toList ++ [certificate, handled]) =
        (extensions :: (request.toList ++ [certificate])) ++ [handled] := by
      rw [List.cons_append, List.append_assoc]
      rfl
    have transcript := underway.last certificate (by
      rw [← List.cons_append, ← List.cons_append, List.getLast?_append]
      rfl)
    refine .proved hello extensions request certificate handled ?_ ?_ types chain ⟨type, ?_⟩
    · rw [is, longer, List.cons_append]
    · rw [longer]
      exact underway.next from' opened rfl rfl rfl rfl rfl
    · rw [← transcript, ← certs]
      exact signature

/-- The Finished closes the flight. -/
theorem Progress.serverFinished (progress : Progress primitives conn log)
    (waits : conn.state = .waitServerFinished) (from' : handled.conn = conn)
    (opened : handled.opened = conn.readKeys) (type : handled.type = hsFinished)
    (accepted : (onFinished primitives conn handled.message).1 = tlsOk) :
    Progress primitives (onFinished primitives conn handled.message).2 (log ++ [handled]) := by
  obtain ⟨mac, behind⟩ := onFinished_ok conn handled.message accepted
  rw [behind]
  cases progress.stage waits with
  | proved hello extensions request certificate verify is underway types chain signature =>
    refine Stage.progress ?_ rfl
    have longer : extensions :: (request.toList ++ [certificate, verify, handled]) =
        (extensions :: (request.toList ++ [certificate, verify])) ++ [handled] := by
      rw [List.cons_append, List.append_assoc]
      rfl
    have next : Underway primitives { conn.hash handled.message with
        peerFinished := bodyOf handled.message
        state := .sendFinished } hello (extensions :: (request.toList ++
          [certificate, verify, handled])) := by
      rw [longer]
      exact underway.next from' opened rfl rfl rfl rfl rfl
    have transcript := underway.last verify (by
      rw [← List.cons_append, ← List.cons_append, List.getLast?_append]
      rfl)
    refine .finished ⟨hello, extensions, request, certificate, verify, handled⟩ ?_
      ⟨next.type, types.type, types.request, chain.type, signature.type, type, next.plain,
        next.keyed, next.chained, chain.chain, signature.signature, ?_⟩
    · rw [is, List.cons_append]
      exact congrArg (hello :: ·) longer.symm
    · rw [← transcript, ← underway.secret]
      exact mac

/-! ### One message -/

theorem waitsFor_serverHello {requested : Bool} :
    waitsFor conn requested hsServerHello = true ↔
      conn.state = .waitServerHello ∧ conn.encRd = false := by
  rw [waitsFor, if_pos rfl, Bool.and_eq_true, decide_eq_true_iff, Bool.not_eq_true']

theorem waitsFor_encryptedExt {requested : Bool} :
    waitsFor conn requested hsEncryptedExt = true ↔
      conn.state = .waitServerHello ∧ conn.encRd = true := by
  rw [waitsFor, if_neg (by decide), if_pos rfl, Bool.and_eq_true, decide_eq_true_iff]

theorem waitsFor_certRequest {requested : Bool} :
    waitsFor conn requested hsCertRequest = true ↔
      conn.state = .waitCert ∧ requested = false := by
  rw [waitsFor, if_neg (by decide), if_neg (by decide), if_pos rfl, Bool.and_eq_true,
    decide_eq_true_iff, Bool.not_eq_true']

theorem waitsFor_certificate {requested : Bool} :
    waitsFor conn requested hsCertificate = true ↔ conn.state = .waitCert := by
  rw [waitsFor, if_neg (by decide), if_neg (by decide), if_neg (by decide), if_pos rfl,
    decide_eq_true_iff]

theorem waitsFor_certVerify {requested : Bool} :
    waitsFor conn requested hsCertVerify = true ↔ conn.state = .waitCertVerify := by
  rw [waitsFor, if_neg (by decide), if_neg (by decide), if_neg (by decide), if_neg (by decide),
    if_pos rfl, decide_eq_true_iff]

theorem waitsFor_finished {requested : Bool} :
    waitsFor conn requested hsFinished = true ↔ conn.state = .waitServerFinished := by
  rw [waitsFor, if_neg (by decide), if_neg (by decide), if_neg (by decide), if_neg (by decide),
    if_neg (by decide), if_pos rfl, decide_eq_true_iff]

theorem waitsFor_newSessionTicket {requested : Bool} :
    waitsFor conn requested hsNewSessionTicket = true ↔ conn.state = .done := by
  rw [waitsFor, if_neg (by decide), if_neg (by decide), if_neg (by decide), if_neg (by decide),
    if_neg (by decide), if_neg (by decide), if_pos rfl, decide_eq_true_iff]

/-- A ticket is the only message that is accepted once the handshake is done. -/
theorem Progress.newSessionTicket (progress : Progress primitives conn log)
    (waits : conn.state = .done) (type : handled.type = hsNewSessionTicket) :
    Progress primitives (conn.hash handled.message) (log ++ [handled]) := by
  cases progress.stage waits with
  | done flight tickets is authentic types =>
    refine Stage.progress ?_ waits
    refine .done flight (tickets ++ [handled]) ?_ authentic fun ticket member => ?_
    · rw [is, List.append_assoc]
    · rcases List.mem_append.mp member with earlier | last
      · exact types ticket earlier
      · rw [List.mem_singleton.mp last]
        exact type

/-- An expected message that is accepted takes the flight one message further. -/
theorem Progress.handle (handled : Handled) (progress : Progress primitives handled.conn log)
    (expected : Expected log handled)
    (accepted : (handleHandshake primitives handled.now handled.conn handled.message).1 = tlsOk) :
    Progress primitives (handleHandshake primitives handled.now handled.conn handled.message).2
      (log ++ [handled]) := by
  obtain ⟨opened, waits⟩ := expected
  unfold handleHandshake at accepted ⊢
  dsimp only at accepted ⊢
  split_ifs at accepted ⊢ with length hello extensions request certificate verify finished ticket
  · exact absurd (show tlsErrProtocol = tlsOk from accepted) (by decide)
  · have type : handled.type = hsServerHello := hello
    rw [type, waitsFor_serverHello] at waits
    exact progress.serverHello waits.1 waits.2 rfl opened type accepted
  · have type : handled.type = hsEncryptedExt := extensions
    rw [type, waitsFor_encryptedExt] at waits
    exact progress.encryptedExt waits.1 waits.2 rfl opened type
  · have type : handled.type = hsCertRequest := request
    rw [type, waitsFor_certRequest] at waits
    exact progress.certRequest waits.1 waits.2 rfl opened type
  · have type : handled.type = hsCertificate := certificate
    rw [type, waitsFor_certificate] at waits
    exact progress.certificate waits rfl opened type accepted
  · have type : handled.type = hsCertVerify := verify
    rw [type, waitsFor_certVerify] at waits
    exact progress.certVerify waits rfl opened type accepted
  · have type : handled.type = hsFinished := finished
    rw [type, waitsFor_finished] at waits
    exact progress.serverFinished waits rfl opened type accepted
  · have type : handled.type = hsNewSessionTicket := ticket
    rw [type, waitsFor_newSessionTicket] at waits
    exact progress.newSessionTicket waits type
  · exact absurd (show tlsErrUnsupported = tlsOk from accepted) (by decide)

theorem settled_fails (conn : Conn) (code : Int) : (conn.fails code).settled = conn.settled := rfl

/-- Once the handshake is done, an expected message settles nothing anew, and an accepted one
leaves it done. -/
theorem handleHandshake_done (primitives : Primitives) (handled : Handled)
    (done : handled.conn.state = .done) (expected : Expected log handled) :
    (handleHandshake primitives handled.now handled.conn handled.message).2.settled =
        handled.conn.settled ∧
      (handleHandshake primitives handled.now handled.conn handled.message).2.state = .done := by
  obtain ⟨-, waits⟩ := expected
  have elsewhere {state : TlsState} (is : handled.conn.state = state) (other : state ≠ .done) :
      False := other (is.symm.trans done)
  unfold handleHandshake
  dsimp only
  split_ifs with length hello extensions request certificate verify finished ticket
  · exact ⟨rfl, done⟩
  · rw [show handled.type = hsServerHello from hello, waitsFor_serverHello] at waits
    exact (elsewhere waits.1 (by decide)).elim
  · rw [show handled.type = hsEncryptedExt from extensions, waitsFor_encryptedExt] at waits
    exact (elsewhere waits.1 (by decide)).elim
  · rw [show handled.type = hsCertRequest from request, waitsFor_certRequest] at waits
    exact (elsewhere waits.1 (by decide)).elim
  · rw [show handled.type = hsCertificate from certificate, waitsFor_certificate] at waits
    exact (elsewhere waits (by decide)).elim
  · rw [show handled.type = hsCertVerify from verify, waitsFor_certVerify] at waits
    exact (elsewhere waits (by decide)).elim
  · rw [show handled.type = hsFinished from finished, waitsFor_finished] at waits
    exact (elsewhere waits (by decide)).elim
  · exact ⟨rfl, done⟩
  · exact ⟨rfl, done⟩

/-! ### One record -/

/-- Every message of the list is expected behind the log and the messages in front of it. -/
def AllExpected (log messages : List Handled) : Prop :=
  ∀ front handled back, messages = front ++ handled :: back → Expected (log ++ front) handled

theorem AllExpected.head {rest : List Handled} (expected : AllExpected log (handled :: rest)) :
    Expected log handled := by
  have first := expected [] handled rest rfl
  rwa [List.append_nil] at first

theorem AllExpected.tail {rest : List Handled} (expected : AllExpected log (handled :: rest)) :
    AllExpected (log ++ [handled]) rest := by
  intro front message back is
  have later := expected (handled :: front) message back (by rw [is, List.cons_append])
  rwa [List.append_assoc, List.singleton_append]

/-- The messages of a record take the flight as far as they were accepted. -/
theorem Progress.messages (fuel : Nat) (plain : Bytes) (progress : Progress primitives conn log)
    (expected : AllExpected log (handleMessages primitives opened now fuel conn plain).2) :
    Progress primitives (handleMessages primitives opened now fuel conn plain).1
      (log ++ (handleMessages primitives opened now fuel conn plain).2) := by
  induction fuel generalizing conn log plain with
  | zero =>
    rw [handleMessages, List.append_nil]
    exact progress
  | succ fuel inductionHypothesis =>
    rw [handleMessages] at expected ⊢
    dsimp only at expected ⊢
    split_ifs at expected ⊢ with short large cut refused stops
    · rw [List.append_nil]
      exact progress
    · exact Progress.fails _ _ _
    · rw [List.append_nil]
      exact progress
    · exact Progress.fails _ _ _
    · exact Progress.handle ⟨opened, now, conn, plain.take (4 + load24 plain 1)⟩ progress
        expected.head (not_not.mp refused)
    · have next := Progress.handle ⟨opened, now, conn, plain.take (4 + load24 plain 1)⟩ progress
        expected.head (not_not.mp refused)
      have later := inductionHypothesis _ next expected.tail
      rwa [List.append_assoc, List.singleton_append] at later

/-- The messages of a record settle nothing anew once the handshake is done. -/
theorem handleMessages_done (fuel : Nat) (plain : Bytes) (done : conn.state = .done)
    (expected : AllExpected log (handleMessages primitives opened now fuel conn plain).2) :
    (handleMessages primitives opened now fuel conn plain).1.settled = conn.settled := by
  induction fuel generalizing conn log plain with
  | zero => rw [handleMessages]
  | succ fuel inductionHypothesis =>
    rw [handleMessages] at expected ⊢
    dsimp only at expected ⊢
    split_ifs at expected ⊢ with short large cut refused stops
    · exact Eq.refl conn.settled
    · exact settled_fails conn _
    · exact Eq.refl conn.settled
    · have settled := (handleHandshake_done primitives
        ⟨opened, now, conn, plain.take (4 + load24 plain 1)⟩ done expected.head).1
      rw [settled_fails]
      exact settled
    · exact (handleHandshake_done primitives
        ⟨opened, now, conn, plain.take (4 + load24 plain 1)⟩ done expected.head).1
    · have next := handleHandshake_done primitives
        ⟨opened, now, conn, plain.take (4 + load24 plain 1)⟩ done expected.head
      exact (inductionHypothesis _ next.2 expected.tail).trans next.1

/-- To open a record counts it, and no more. -/
theorem openRecord_counts {header fragment plain : Bytes} {type : UInt8} {behind : Conn}
    (opens : openRecord primitives conn header fragment = .ok (type, plain, behind)) :
    ∃ seq, behind = { conn with rdSeq := seq } := by
  unfold openRecord at opens
  dsimp only at opens
  split at opens
  · split at opens
    · cases opens
    · exact ⟨conn.rdSeq, (congrArg (·.2.2) (Except.ok.inj opens)).symm⟩
  · split at opens
    · cases opens
    · split at opens
      · cases opens
      · split at opens
        · cases opens
        · exact ⟨_, (congrArg (·.2.2) (Except.ok.inj opens)).symm⟩

theorem Progress.alert (plain : Bytes) (progress : Progress primitives conn log) :
    Progress primitives (onAlert conn plain) log := by
  unfold onAlert
  split_ifs
  · exact progress.same ⟨rfl, rfl, rfl, rfl, rfl, rfl, rfl, rfl⟩
  · exact Stage.failed
  · exact progress.same ⟨rfl, rfl, rfl, rfl, rfl, rfl, rfl, rfl⟩

theorem Progress.application (plain : Bytes) (progress : Progress primitives conn log) :
    Progress primitives (onApplication conn plain) log := by
  unfold onApplication
  split_ifs
  · exact Progress.fails _ _ _
  · exact progress.same ⟨rfl, rfl, rfl, rfl, rfl, rfl, rfl, rfl⟩

/-- A record takes the flight as far as its messages were accepted. -/
theorem Progress.record (now : Nat) (header fragment : Bytes)
    (progress : Progress primitives conn log)
    (expected : AllExpected log (onRecord primitives now conn header fragment).2) :
    Progress primitives (onRecord primitives now conn header fragment).1
      (log ++ (onRecord primitives now conn header fragment).2) := by
  unfold onRecord at expected ⊢
  split_ifs at expected ⊢ with wrong skipped
  · exact Progress.fails _ _ _
  · rw [List.append_nil]
    exact progress
  · split at expected
    · exact Progress.fails _ _ _
    · next type plain behind opens =>
      obtain ⟨seq, counted⟩ := openRecord_counts opens
      have same : Progress primitives behind log := by
        rw [counted]
        exact progress.same ⟨rfl, rfl, rfl, rfl, rfl, rfl, rfl, rfl⟩
      split_ifs at expected ⊢ with cipher alert handshake application
      · rw [List.append_nil]
        exact same
      · rw [List.append_nil]
        exact same.alert plain
      · exact same.messages _ plain expected
      · rw [List.append_nil]
        exact same.application plain
      · exact Progress.fails _ _ _

theorem onRecord_done (now : Nat) (header fragment : Bytes) (done : conn.state = .done)
    (expected : AllExpected log (onRecord primitives now conn header fragment).2) :
    (onRecord primitives now conn header fragment).1.settled = conn.settled := by
  unfold onRecord at expected ⊢
  split_ifs at expected ⊢ with wrong skipped
  · exact settled_fails conn _
  · rfl
  · split at expected
    · exact settled_fails conn _
    · next type plain behind opens =>
      obtain ⟨seq, counted⟩ := openRecord_counts opens
      have same : behind.settled = conn.settled := by
        rw [counted]
        rfl
      split_ifs at expected ⊢ with cipher alert handshake application
      · exact same
      · refine Eq.trans ?_ same
        unfold onAlert
        split_ifs <;> rfl
      · have here : behind.state = .done := by
          rw [counted]
          exact done
        exact (handleMessages_done _ plain here expected).trans same
      · refine Eq.trans ?_ same
        unfold onApplication
        split_ifs <;> rfl
      · exact (settled_fails behind _).trans same

/-! ### One event -/

theorem Progress.clientHello (sending : Sending) (privateKey publicKey session body : Bytes)
    (progress : Progress primitives conn log) (start : conn.state = .start) :
    Progress primitives (sendClientHello sending conn privateKey publicKey session body) log := by
  cases progress.stage start with
  | start empty plain =>
    cases sending with
    | sent => exact Stage.fresh empty plain
    | later => exact Stage.progress (.start empty plain) start
    | fails code => exact Stage.failed

/-- The Finished of the client ends the handshake. -/
theorem Progress.finish (sending : Sending) (progress : Progress primitives conn log)
    (waits : conn.state = .sendFinished) :
    Progress primitives (finishHandshake primitives sending conn) log := by
  cases progress.stage waits with
  | finished flight is authentic =>
    have closed : log = flight.messages ++ [] := by
      rw [is, List.append_nil]
    have none' : ∀ ticket ∈ ([] : List Handled), ticket.type = hsNewSessionTicket :=
      fun ticket member => absurd member List.not_mem_nil
    cases sending with
    | fails code => exact Stage.failed
    | sent => exact Stage.done flight [] closed authentic none'
    | later => exact Stage.done flight [] closed authentic none'

/-- An event keeps the progress, when the messages that it handles are expected. -/
theorem Progress.on (now : Nat) (event : TlsEvent) (progress : Progress primitives conn log)
    (expected : AllExpected log (conn.on primitives now event).2) :
    Progress primitives (conn.on primitives now event).1
      (log ++ (conn.on primitives now event).2) := by
  cases event with
  | clientHello sending privateKey publicKey session body =>
    unfold Conn.on
    dsimp only
    split_ifs with start
    · rw [List.append_nil]
      exact progress.clientHello sending privateKey publicKey session body start
    · rw [List.append_nil]
      exact progress
  | noEntropy =>
    unfold Conn.on
    dsimp only
    split_ifs
    · exact Progress.fails _ _ _
    · rw [List.append_nil]
      exact progress
  | record header fragment =>
    unfold Conn.on at expected ⊢
    dsimp only at expected ⊢
    split_ifs at expected ⊢
    · rw [List.append_nil]
      exact progress
    · exact progress.record now header fragment expected
  | transportFails =>
    unfold Conn.on
    dsimp only
    split_ifs
    · rw [List.append_nil]
      exact progress
    · exact Progress.fails _ _ _
  | finish sending =>
    unfold Conn.on
    dsimp only
    split_ifs with waits
    · rw [List.append_nil]
      exact progress.finish sending waits
    · rw [List.append_nil]
      exact progress
  | read length =>
    unfold Conn.on readInput
    dsimp only
    rw [List.append_nil]
    split_ifs
    · exact progress.same ⟨rfl, rfl, rfl, rfl, rfl, rfl, rfl, rfl⟩
    · exact progress.same ⟨rfl, rfl, rfl, rfl, rfl, rfl, rfl, rfl⟩

/-- An event settles nothing anew once the handshake is done. -/
theorem on_done (now : Nat) (event : TlsEvent) (done : conn.state = .done)
    (expected : AllExpected log (conn.on primitives now event).2) :
    (conn.on primitives now event).1.settled = conn.settled := by
  have elsewhere {state : TlsState} (other : state ≠ .done) : conn.state ≠ state :=
    fun is => other (is.symm.trans done)
  cases event with
  | clientHello sending privateKey publicKey session body =>
    unfold Conn.on
    dsimp only
    rw [if_neg (elsewhere (by decide))]
  | noEntropy =>
    unfold Conn.on
    dsimp only
    rw [if_neg (elsewhere (by decide))]
  | record header fragment =>
    unfold Conn.on at expected ⊢
    dsimp only at expected ⊢
    split_ifs at expected ⊢
    · rfl
    · exact onRecord_done now header fragment done expected
  | transportFails =>
    unfold Conn.on
    dsimp only
    split_ifs
    · rfl
    · exact settled_fails conn _
  | finish sending =>
    unfold Conn.on
    dsimp only
    rw [if_neg (elsewhere (by decide))]
  | read length =>
    unfold Conn.on readInput
    dsimp only
    split_ifs <;> rfl

/-! ### Every run -/

/-- The flight is what a connection that is done promises. -/
theorem Progress.authentic (progress : Progress primitives conn log) (done : conn.state = .done) :
    ∃ (flight : Flight) (tickets : List Handled), log = flight.messages ++ tickets ∧
      flight.Authentic primitives conn.host ∧
      ∀ ticket ∈ tickets, ticket.type = hsNewSessionTicket := by
  cases progress.stage done with
  | done flight tickets is authentic types => exact ⟨flight, tickets, is, authentic, types⟩

/-- Are all messages expected behind the log? -/
def allExpected : List Handled → List Handled → Bool
  | _, [] => true
  | log, handled :: rest =>
    decide (handled.opened = handled.conn.readKeys) &&
      waitsFor handled.conn (requestedIn log) handled.type && allExpected (log ++ [handled]) rest

theorem allExpected_sound (messages : List Handled) (checked : allExpected log messages = true) :
    AllExpected log messages := by
  induction messages generalizing log with
  | nil =>
    intro front handled back is
    exact absurd is.symm (by simp)
  | cons first rest inductionHypothesis =>
    rw [allExpected, Bool.and_eq_true, Bool.and_eq_true, decide_eq_true_iff] at checked
    obtain ⟨⟨opened, waits⟩, later⟩ := checked
    intro front handled back is
    cases front with
    | nil =>
      obtain ⟨rfl, rfl⟩ := List.cons.inj is
      rw [List.append_nil]
      exact ⟨opened, waits⟩
    | cons earlier front =>
      obtain ⟨rfl, rfl⟩ := List.cons.inj is
      have expected := inductionHypothesis later front handled back rfl
      rwa [List.append_assoc, List.singleton_append] at expected

/-- The run behind a list of events. -/
def TlsRun.afterAll (primitives : Primitives) (run : TlsRun) : List (Nat × TlsEvent) → TlsRun
  | [] => run
  | label :: labels => (run.after primitives label.1 label.2).afterAll primitives labels

/-- Does every message of the events come in order? -/
def TlsRun.orderly (primitives : Primitives) (run : TlsRun) : List (Nat × TlsEvent) → Bool
  | [] => true
  | label :: labels => allExpected run.log (run.conn.on primitives label.1 label.2).2 &&
      (run.after primitives label.1 label.2).orderly primitives labels

theorem reachable_afterAll {guard : TlsRun → Nat × TlsEvent → Prop} {run : TlsRun}
    (labels : List (Nat × TlsEvent)) (reachable : (tlsSystem primitives).Reachable guard run)
    (always : ∀ run label, guard run label) :
    (tlsSystem primitives).Reachable guard (run.afterAll primitives labels) := by
  induction labels generalizing run with
  | nil => exact reachable
  | cons label labels inductionHypothesis =>
    exact inductionHypothesis (reachable.step (always run label) rfl)

theorem reachable_orderly {run : TlsRun} (labels : List (Nat × TlsEvent))
    (reachable : (tlsSystem primitives).Reachable (InOrder primitives) run)
    (checked : run.orderly primitives labels = true) :
    (tlsSystem primitives).Reachable (InOrder primitives) (run.afterAll primitives labels) := by
  induction labels generalizing run with
  | nil => exact reachable
  | cons label labels inductionHypothesis =>
    rw [TlsRun.orderly, Bool.and_eq_true] at checked
    exact inductionHypothesis (reachable.step (allExpected_sound _ checked.1) rfl) checked.2

/-- Primitives under which a record is sealed by a tag of zeros, and every signature of a chain
that is not empty is good. -/
def plainPrimitives : Primitives where
  sha256 := id
  sha384 := id
  hmacSha256 _ _ := zeros 32
  hkdfExtract salt secret := salt ++ secret
  hkdfExpand _ _ length := zeros length
  x25519 _ peer := peer
  chachaOpen _ _ _ cipher tag := if tag = zeros 16 then some cipher else none
  gcmOpen _ _ _ cipher tag := if tag = zeros 16 then some cipher else none
  x509Parse _ := some ⟨true, 0, []⟩
  spkiRsa pub := some (pub, pub)
  spkiEc _ := none
  rsaPkcs1Verify _ _ _ _ := true
  rsaPssVerify _ _ _ _ := true
  ecdsaSigToFlat _ _ := none
  ecdsaVerify _ _ _ _ := false
  verifyChain certs _ _ := if certs = [] then (tlsErrVerify, 0) else (tlsOk, 0)

/-- A record of the handshake in the clear, and one under the keys. -/
def plainRecord (message : Bytes) : Nat × TlsEvent := (0, .record [22, 3, 3] message)
def sealedRecord (message : Bytes) : Nat × TlsEvent :=
  (0, .record [23, 3, 3] (message ++ [22] ++ zeros 16))

def helloSent : Nat × TlsEvent := (0, .clientHello .sent (zeros 32) (zeros 32) (zeros 32) [])

def serverHello : Bytes :=
  [2, 0, 0, 86, 3, 3] ++ zeros 32 ++ [0, 0x13, 0x01, 0, 0, 46, 0, 43, 0, 2, 3, 4] ++
    [0, 51, 0, 36, 0, 29, 0, 32] ++ List.replicate 32 1

def encryptedExtensions : Bytes := [8, 0, 0, 2, 0, 0]
def oneCertificate : Bytes := [11, 0, 0, 10, 0, 0, 0, 6, 0, 0, 1, 0x30, 0, 0]
def pssVerify : Bytes := [15, 0, 0, 4, 8, 4, 0, 0]
def zeroFinished : Bytes := [20, 0, 0, 32] ++ zeros 32
def emptyTicket : Bytes := [4, 0, 0, 0]

/-- A connection to a host. -/
def tlsBoot : TlsRun := ⟨.init [1], .init [1], []⟩

/-- A server that keeps the order, and a ticket behind it. -/
def honestRun : List (Nat × TlsEvent) :=
  [helloSent, plainRecord serverHello, sealedRecord encryptedExtensions,
    sealedRecord oneCertificate, sealedRecord pssVerify, sealedRecord zeroFinished,
    (0, .finish .sent), sealedRecord emptyTicket]

theorem honestRun_orderly : tlsBoot.orderly plainPrimitives honestRun = true ∧
    (tlsBoot.afterAll plainPrimitives honestRun).conn.state = .done := by decide +kernel

/-- A server that goes from its hello to its Certificate. -/
def skippingRun : List (Nat × TlsEvent) :=
  [helloSent, plainRecord serverHello, sealedRecord oneCertificate, sealedRecord pssVerify,
    sealedRecord zeroFinished, (0, .finish .sent)]

theorem skippingRun_done :
    (tlsBoot.afterAll plainPrimitives skippingRun).conn.state = .done ∧
      ((tlsBoot.afterAll plainPrimitives skippingRun).log.map Handled.type) =
        [hsServerHello, hsCertificate, hsCertVerify, hsFinished] := by decide +kernel

end MectovOS.Tls
