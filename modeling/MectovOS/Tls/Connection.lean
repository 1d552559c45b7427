/-
This file models the connection of src/apps/lib/tls/tls13.c: the key schedule,
the record layer on the way in, and the messages of the server that it parses.
The primitives (hashes, key derivation, ciphers, signatures, and the parser and
the chain rule of asn1_x509.c) are parameters; nothing is assumed of them.
-/

import Mathlib.Data.BitVec
import Mathlib.Data.List.Basic

namespace MectovOS.Tls

abbrev Bytes := List UInt8

/-! ### Primitives -/

/-- The fields of a parsed certificate that the client reads: `is_rsa`, `ec_curve` and the whole
SubjectPublicKeyInfo. -/
structure Leaf where
  isRsa : Bool
  ecCurve : Nat
  pub : Bytes

/-- The functions of tls_hash.c, tls_cipher.c, tls_pubkey.c and asn1_x509.c that the client
calls. -/
structure Primitives where
  sha256 : Bytes → Bytes
  sha384 : Bytes → Bytes
  hmacSha256 : Bytes → Bytes → Bytes
  hkdfExtract : Bytes → Bytes → Bytes
  hkdfExpand : Bytes → Bytes → Nat → Bytes
  x25519 : Bytes → Bytes → Bytes
  chachaOpen : Bytes → Bytes → Bytes → Bytes → Bytes → Option Bytes
  gcmOpen : Bytes → Bytes → Bytes → Bytes → Bytes → Option Bytes
  x509Parse : Bytes → Option Leaf
  spkiRsa : Bytes → Option (Bytes × Bytes)
  spkiEc : Bytes → Option (Nat × Bytes)
  rsaPkcs1Verify : Bytes → Bytes → Bytes → Bytes → Bool
  rsaPssVerify : Bytes → Bytes → Bytes → Bytes → Bool
  ecdsaSigToFlat : Bytes → Nat → Option Bytes
  ecdsaVerify : Nat → Bytes → Bytes → Bytes → Bool
  verifyChain : List Bytes → Bytes → Nat → Int × Nat

/-! ### Codes -/

/-- `TLS_OK`, `TLS_WANT_WRITE` and the errors. -/
def tlsOk : Int := 0
def tlsWantWrite : Int := 2
def tlsErrIo : Int := -1
def tlsErrProtocol : Int := -2
def tlsErrVerify : Int := -3
def tlsErrUnsupported : Int := -4
def tlsErrEntropy : Int := -5
def tlsErrOverflow : Int := -6

/-- `TLS_MAX_RECORD`, `TLS_MAX_PLAIN`, `TLS_HS_MAX` and `TLS_CHAIN_MAX`. -/
def tlsMaxRecord : Nat := 16640
def tlsMaxPlain : Nat := 16384
def tlsHsMax : Nat := 12288
def tlsChainMax : Nat := 5

/-- The cipher suites, and the group of the key share. -/
def tlsChacha20Poly1305Sha256 : Nat := 0x1303
def tlsAes128GcmSha256 : Nat := 0x1301
def groupX25519 : Nat := 0x001d

/-- The types of records and of handshake messages. -/
def recChangeCipher : UInt8 := 20
def recAlert : UInt8 := 21
def recHandshake : UInt8 := 22
def recApplication : UInt8 := 23
def hsClientHello : UInt8 := 1
def hsServerHello : UInt8 := 2
def hsNewSessionTicket : UInt8 := 4
def hsEncryptedExt : UInt8 := 8
def hsCertificate : UInt8 := 11
def hsCertRequest : UInt8 := 13
def hsCertVerify : UInt8 := 15
def hsFinished : UInt8 := 20

/-! ### The connection -/

/-- The states of the handshake. -/
inductive TlsState where
  | start
  | waitServerHello
  | waitEncryptedExt
  | waitCert
  | waitCertVerify
  | waitServerFinished
  | sendFinished
  | done
  | failed
  deriving DecidableEq

/-- The connection: the running transcript is kept as the bytes that were hashed, the presented
chain as a list, and `input` are the first `in_len` bytes for the reader. -/
structure Conn where
  host : Bytes
  state : TlsState
  suite : Nat
  done : Bool
  err : Int
  verifyOk : Bool
  serverNotAfter : Nat
  handshakeSecret : Bytes
  clientHsSecret : Bytes
  serverHsSecret : Bytes
  clientApSecret : Bytes
  serverApSecret : Bytes
  rdSeq : BitVec 64
  wrSeq : BitVec 64
  transcript : Bytes
  input : Bytes
  inOff : Nat
  ksPriv : Bytes
  ksPub : Bytes
  ksPeer : Bytes
  sessionId : Bytes
  rdKey : Bytes
  rdIv : Bytes
  wrKey : Bytes
  wrIv : Bytes
  encRd : Bool
  encWr : Bool
  certs : List Bytes
  finishedKey : Bytes
  peerFinished : Bytes
  certVerifyOk : Bool
  lastAlert : UInt8
  recvClosed : Bool
  deriving DecidableEq

def zeros (length : Nat) : Bytes := List.replicate length 0

/-- `tls_init`. -/
def Conn.init (host : Bytes) : Conn where
  host := host
  state := .start
  suite := 0
  done := false
  err := 0
  verifyOk := false
  serverNotAfter := 0
  handshakeSecret := zeros 32
  clientHsSecret := zeros 32
  serverHsSecret := zeros 32
  clientApSecret := zeros 32
  serverApSecret := zeros 32
  rdSeq := 0
  wrSeq := 0
  transcript := []
  input := []
  inOff := 0
  ksPriv := zeros 32
  ksPub := zeros 32
  ksPeer := zeros 32
  sessionId := zeros 32
  rdKey := zeros 32
  rdIv := zeros 12
  wrKey := zeros 32
  wrIv := zeros 12
  encRd := false
  encWr := false
  certs := []
  finishedKey := zeros 32
  peerFinished := zeros 32
  certVerifyOk := false
  lastAlert := 0
  recvClosed := false

/-- The connection fails with a code. -/
def Conn.fails (conn : Conn) (code : Int) : Conn := { conn with err := code, state := .failed }

/-! ### Numbers -/

def byteAt (bytes : Bytes) (offset : Nat) : Nat := (bytes.getD offset 0).toNat
def rd16 (bytes : Bytes) (offset : Nat) : Nat :=
  byteAt bytes offset * 256 + byteAt bytes (offset + 1)
def load24 (bytes : Bytes) (offset : Nat) : Nat :=
  byteAt bytes offset * 65536 + byteAt bytes (offset + 1) * 256 + byteAt bytes (offset + 2)
def store16 (value : Nat) : Bytes := [UInt8.ofNat (value / 256), UInt8.ofNat value]
def store24 (value : Nat) : Bytes :=
  [UInt8.ofNat (value / 65536), UInt8.ofNat (value / 256), UInt8.ofNat value]

/-- The bytes of `length` from `offset` on. -/
def slice (bytes : Bytes) (offset length : Nat) : Bytes := (bytes.drop offset).take length

def ascii (text : String) : Bytes := text.toList.map fun letter => UInt8.ofNat letter.toNat

/-! ### The key schedule -/

variable (primitives : Primitives)

/-- `hkdf_label`. -/
def hkdfLabel (label : String) (context : Bytes) (length : Nat) : Bytes :=
  store16 length ++ [UInt8.ofNat (6 + (ascii label).length)] ++ ascii "tls13 " ++ ascii label ++
    [UInt8.ofNat context.length] ++ context

/-- `derive`. -/
def derive (length : Nat) (secret : Bytes) (label : String) (context : Bytes) : Bytes :=
  primitives.hkdfExpand secret (hkdfLabel label context length) length

/-- `derive_empty`: the context is the hash of an empty transcript. -/
def deriveEmpty (length : Nat) (secret : Bytes) (label : String) : Bytes :=
  derive primitives length secret label (primitives.sha256 [])

def transcriptHash (conn : Conn) : Bytes := primitives.sha256 conn.transcript

/-- `install_keys`: the key and the nonce base of a secret. -/
def installKeys (secret : Bytes) (suite : Nat) : Bytes × Bytes :=
  (derive primitives (if suite = tlsChacha20Poly1305Sha256 then 32 else 16) secret "key" [],
    derive primitives 12 secret "iv" [])

/-- The handshake secret of a shared secret. -/
def handshakeSecretOf (shared : Bytes) : Bytes :=
  let early := primitives.hkdfExtract [] (zeros 32)
  primitives.hkdfExtract (deriveEmpty primitives 32 early "derived") shared

/-- `derive_handshake_keys`: both directions are encrypted from here on. -/
def deriveHandshakeKeys (conn : Conn) : Int × Conn :=
  let shared := primitives.x25519 conn.ksPriv conn.ksPeer
  if shared = zeros 32 then (tlsErrProtocol, conn)
  else
    let secret := handshakeSecretOf primitives shared
    let hash := transcriptHash primitives conn
    let clientSecret := derive primitives 32 secret "c hs traffic" hash
    let serverSecret := derive primitives 32 secret "s hs traffic" hash
    let writeKeys := installKeys primitives clientSecret conn.suite
    let readKeys := installKeys primitives serverSecret conn.suite
    (tlsOk, { conn with
      handshakeSecret := secret
      clientHsSecret := clientSecret
      serverHsSecret := serverSecret
      wrKey := writeKeys.1
      wrIv := writeKeys.2
      rdKey := readKeys.1
      rdIv := readKeys.2
      encWr := true
      encRd := true
      wrSeq := 0
      rdSeq := 0 })

/-- `derive_app_keys`, with the transcript hash through the Finished of the server. -/
def deriveAppKeys (conn : Conn) (hash : Bytes) : Conn :=
  let master := primitives.hkdfExtract
    (deriveEmpty primitives 32 conn.handshakeSecret "derived") (zeros 32)
  let clientSecret := derive primitives 32 master "c ap traffic" hash
  let serverSecret := derive primitives 32 master "s ap traffic" hash
  let writeKeys := installKeys primitives clientSecret conn.suite
  let readKeys := installKeys primitives serverSecret conn.suite
  { conn with
    clientApSecret := clientSecret
    serverApSecret := serverSecret
    wrKey := writeKeys.1
    wrIv := writeKeys.2
    rdKey := readKeys.1
    rdIv := readKeys.2
    wrSeq := 0
    rdSeq := 0 }

/-! ### Records -/

/-- `nonce_for`. -/
def nonceFor (iv : Bytes) (seq : BitVec 64) : Bytes :=
  (List.range 12).map fun index =>
    let byte := iv.getD index 0
    if index < 4 then byte else byte ^^^ UInt8.ofNat (seq.toNat / 256 ^ (11 - index))

/-- The bytes in front of the zero padding. -/
def unpad (bytes : Bytes) : Bytes := (bytes.reverse.dropWhile (· = 0)).reverse

/-- `open_record`: the content type and the content of a record, and the connection behind it. -/
def openRecord (conn : Conn) (header fragment : Bytes) : Except Int (UInt8 × Bytes × Conn) :=
  if conn.encRd = false then
    if fragment.length < 1 then .error tlsErrProtocol
    else .ok (header.getD 0 0, fragment, conn)
  else if fragment.length < 17 then .error tlsErrProtocol
  else
    let length := fragment.length - 16
    let nonce := nonceFor conn.rdIv conn.rdSeq
    let decrypt := if conn.suite = tlsChacha20Poly1305Sha256 then primitives.chachaOpen
      else primitives.gcmOpen
    match decrypt conn.rdKey nonce header (fragment.take length) (fragment.drop length) with
    | none => .error tlsErrProtocol
    | some inner =>
      match (unpad inner).getLast? with
      | none => .error tlsErrProtocol
      | some type => .ok (type, (unpad inner).dropLast, { conn with rdSeq := conn.rdSeq + 1 })

/-! ### ServerHello -/

/-- The walk over the extensions of a ServerHello: the key share, and whether the version was
seen. -/
def helloExtensions (body : Bytes) :
    Nat → Nat → Option Bytes → Bool → Except Int (Option Bytes × Bool)
  | 0, _, share, version => .ok (share, version)
  | fuel + 1, offset, share, version =>
    if body.length < offset + 4 then .ok (share, version)
    else
      let type := rd16 body offset
      let length := rd16 body (offset + 2)
      let start := offset + 4
      if body.length < start + length then .error tlsErrProtocol
      else if type = 43 then
        if length ≠ 2 ∨ rd16 body start ≠ 0x0304 then .error tlsErrUnsupported
        else helloExtensions body fuel (start + length) share true
      else if type = 51 then
        if length < 4 then .error tlsErrProtocol
        else if rd16 body start ≠ groupX25519 then .error tlsErrUnsupported
        else if rd16 body (start + 2) ≠ 32 ∨ 4 + rd16 body (start + 2) ≠ length then
          .error tlsErrProtocol
        else helloExtensions body fuel (start + length) (some (slice body (start + 4) 32)) version
      else helloExtensions body fuel (start + length) share version

/-- `parse_server_hello`. -/
def parseServerHello (conn : Conn) (body : Bytes) : Int × Conn :=
  if body.length < 42 then (tlsErrProtocol, conn)
  else
    let offset := 35 + byteAt body 34
    let conn := { conn with suite := rd16 body offset }
    if byteAt body (offset + 2) ≠ 0 then (tlsErrProtocol, conn)
    else if body.length < offset + 5 then (tlsErrProtocol, conn)
    else if offset + 5 + rd16 body (offset + 3) ≠ body.length then (tlsErrProtocol, conn)
    else
      match helloExtensions body body.length (offset + 5) none false with
      | .error code => (code, conn)
      | .ok (share, version) =>
        let conn := { conn with ksPeer := share.getD conn.ksPeer }
        if version = false then (tlsErrProtocol, conn)
        else if share = none then (tlsErrUnsupported, conn)
        else if conn.suite ≠ tlsAes128GcmSha256 ∧ conn.suite ≠ tlsChacha20Poly1305Sha256 then
          (tlsErrUnsupported, conn)
        else (tlsOk, conn)

/-! ### Certificate -/

/-- The walk over the entries of a certificate list: the certificates so far, and its code. -/
def splitEntries (entries : Bytes) : Nat → Nat → List Bytes → Int × List Bytes
  | 0, _, certs => (tlsOk, certs)
  | fuel + 1, offset, certs =>
    if entries.length < offset + 3 then
      if offset ≠ entries.length then (tlsErrProtocol, certs) else (tlsOk, certs)
    else
      let length := load24 entries offset
      let start := offset + 3
      if entries.length < start + length then (tlsErrProtocol, certs)
      else if tlsChainMax ≤ certs.length then (tlsErrProtocol, certs)
      else if tlsHsMax < (certs.map List.length).sum + length then (tlsErrOverflow, certs)
      else
        let certs := certs ++ [slice entries start length]
        let behind := start + length
        if entries.length < behind + 2 then (tlsErrProtocol, certs)
        else if entries.length < behind + 2 + rd16 entries behind then (tlsErrProtocol, certs)
        else splitEntries entries fuel (behind + 2 + rd16 entries behind) certs

/-- `split_certificates`: its code, and the chain it leaves in place of `certs`. -/
def splitCertificates (certs : List Bytes) (body : Bytes) : Int × List Bytes :=
  if body.length < 4 then (tlsErrProtocol, certs)
  else if body.length < 1 + byteAt body 0 + 3 then (tlsErrProtocol, certs)
  else
    let start := 1 + byteAt body 0
    let total := load24 body start
    if start + 3 + total ≠ body.length then (tlsErrProtocol, certs)
    else if tlsHsMax < total then (tlsErrOverflow, certs)
    else
      let split := splitEntries (slice body (start + 3) total) (total + 1) 0 []
      if split.1 = tlsOk ∧ split.2 = [] then (tlsErrProtocol, split.2) else split

/-- `verify_chain`. -/
def verifyChain (conn : Conn) (now : Nat) : Int × Conn :=
  let verdict := primitives.verifyChain conn.certs conn.host now
  (verdict.1,
    if verdict.1 = tlsOk then { conn with verifyOk := true, serverNotAfter := verdict.2 }
    else conn)

/-! ### CertificateVerify -/

/-- What the signature of the server covers. -/
def signedData (hash : Bytes) : Bytes :=
  List.replicate 64 0x20 ++ ascii "TLS 1.3, server CertificateVerify" ++ [0] ++ hash

/-- An RSA signature under one of the two paddings. -/
def verifyRsa (leaf : Leaf) (pkcs1 : Bool) (signature digest : Bytes) : Int :=
  if leaf.isRsa = false then tlsErrVerify
  else
    match primitives.spkiRsa leaf.pub with
    | none => tlsErrUnsupported
    | some (modulus, exponent) =>
      let verify := if pkcs1 then primitives.rsaPkcs1Verify else primitives.rsaPssVerify
      if verify modulus exponent signature digest then tlsOk else tlsErrVerify

/-- An ECDSA signature over a field of `width` bytes. -/
def verifyEcdsa (leaf : Leaf) (width : Nat) (signature digest : Bytes) : Int :=
  match primitives.spkiEc leaf.pub with
  | none => tlsErrUnsupported
  | some (curve, point) =>
    match primitives.ecdsaSigToFlat signature width with
    | none => tlsErrProtocol
    | some flat => if primitives.ecdsaVerify curve point digest flat then tlsOk else tlsErrVerify

/-- `verify_certificate_verify`: the signature is over the hash that its algorithm names. -/
def verifyCertificateVerify (leafDer hash body : Bytes) : Int :=
  if body.length < 4 then tlsErrProtocol
  else
    let algorithm := rd16 body 0
    let signature := body.drop 4
    if 4 + rd16 body 2 ≠ body.length then tlsErrProtocol
    else
      match primitives.x509Parse leafDer with
      | none => tlsErrProtocol
      | some leaf =>
        let digest256 := primitives.sha256 (signedData hash)
        let digest384 := primitives.sha384 (signedData hash)
        if algorithm = 0x0401 ∨ algorithm = 0x0804 ∨ algorithm = 0x0809 then
          verifyRsa primitives leaf (algorithm = 0x0401) signature digest256
        else if algorithm = 0x0501 ∨ algorithm = 0x0805 ∨ algorithm = 0x080a then
          verifyRsa primitives leaf (algorithm = 0x0501) signature digest384
        else if algorithm = 0x0403 ∧ leaf.ecCurve = 1 then
          verifyEcdsa primitives leaf 32 signature digest256
        else if algorithm = 0x0503 ∧ leaf.ecCurve = 2 then
          verifyEcdsa primitives leaf 48 signature digest384
        else tlsErrUnsupported

end MectovOS.Tls
