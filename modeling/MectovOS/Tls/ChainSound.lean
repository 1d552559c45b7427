/-
This file states what an accepted chain is worth: certificates inside their
validity, a leaf that names the host, and a path of signatures from the leaf to an
anchor of the store. It also states what `tls_verify_chain` leaves unchecked.
-/

import MectovOS.Tls.X509

namespace MectovOS.Tls

variable (crypto : Crypto)

/-! ### Times -/

/-- The days in front of a month of the calendar. -/
def daysBefore (year month : Nat) : Int :=
  365 * ((year : Int) - 1) + ((year : Int) - 1) / 4 - ((year : Int) - 1) / 100 +
    ((year : Int) - 1) / 400 + ((monthDays.take (month - 1)).sum : Nat) +
    if 2 < month ∧ isLeap year then 1 else 0

/-- The seconds from 1970 to a time of the calendar. -/
def civilTime (year : Nat) (civil : Civil) : Int :=
  (daysBefore year civil.month - daysBefore 1970 1 + civil.day - 1) * 86400 + civil.hour * 3600 +
    civil.min * 60 + civil.sec

/-- A time of the calendar with fields from an offset on. -/
def namedCivil (body : Bytes) (offset year : Nat) : Option Int :=
  match readCivil body offset with
  | none => none
  | some civil => if civil.inRange year then some (civilTime year civil) else none

/-- The time that a UTCTime or a GeneralizedTime names. -/
def namedTime (time : DerTlv) : Option Int :=
  if time.tag = 0x17 then
    if time.body.length ≠ 13 ∨ time.body.getD 12 0 ≠ 0x5a then none
    else (two time.body 0).bind fun yy => namedCivil time.body 2 (utcYear yy)
  else if time.tag = 0x18 then
    if time.body.length ≠ 15 ∨ time.body.getD 14 0 ≠ 0x5a then none
    else (two time.body 0).bind fun hi => (two time.body 2).bind fun lo =>
      namedCivil time.body 4 (hi * 100 + lo)
  else none

/-- The fields of a certificate. -/
def certificateFields (der : Bytes) : Option TbsFields :=
  (readCertificate der).bind fun parts => tbsFields parts.tbs

/-- A certificate is inside the validity that its times name. -/
def InsideValidity (now : BitVec 32) (der : Bytes) : Prop :=
  ∃ fields before after notBefore notAfter, certificateFields der = some fields ∧
    validityTimes fields.validity = some (before, after) ∧ namedTime before = some notBefore ∧
    namedTime after = some notAfter ∧ notBefore ≤ (now.toNat : Int) ∧ (now.toNat : Int) ≤ notAfter

/-! ### Links -/

/-- The signature algorithms that the client knows. -/
def knownAlgs : List (Bytes × SigAlg) :=
  [(oidRsaSha256, ⟨.rsaPkcs1, 32, 0⟩), (oidRsaSha384, ⟨.rsaPkcs1, 48, 0⟩),
    (oidRsaSha512, ⟨.rsaPkcs1, 64, 0⟩), (oidRsaEncryption, ⟨.rsaPkcs1, 0, 0⟩),
    (oidEcdsaSha256, ⟨.ecdsa, 32, 1⟩), (oidEcdsaSha384, ⟨.ecdsa, 48, 2⟩)]

/-- An AlgorithmIdentifier names an algorithm. -/
def Names (element : DerTlv) (alg : SigAlg) : Prop :=
  ∃ oid rest, derExpect 0x06 element.body = some (oid, rest) ∧ (oid.body, alg) ∈ knownAlgs

/-- A signature verifies under a key: an RSA signature is as long as the modulus. -/
def SignatureVerifies (alg : SigAlg) (pub tbs signature : Bytes) : Prop :=
  match alg.kind with
  | .ecdsa => ecdsaSigned crypto alg pub tbs signature = tlsOk
  | _ => ∃ modulus exponent, spkiRsa pub = some (modulus, exponent) ∧
      signature.length = modulus.length ∧ rsaSigned crypto alg pub tbs (fun _ => signature) = tlsOk

/-- The basic constraints of a certificate say that it is a CA. -/
def CaTrue (fields : TbsFields) : Prop :=
  ∃ ext ∈ extensionElements fields.rest, ∃ oid value, extensionOf ext = some (oid, value) ∧
    oidIs oid oidBasicCons = true ∧ basicConsOf value = some true

/-- The key usage that an extension holds, whatever its unused bits are. -/
def keyUsageIn (ext : DerTlv) : Option (UInt8 × Bytes) :=
  match extensionOf ext with
  | none => none
  | some (oid, value) => if oidIs oid oidKeyUsage then keyUsageOf value else none

/-- The bit 5 of a BIT STRING, keyCertSign, is there and set. -/
def assertsCertSign (usage : UInt8 × Bytes) : Bool :=
  decide (5 < 8 * usage.2.length - usage.1.toNat) && usage.2.headD 0 &&& 0x04 != 0

/-- Every key usage that is present allows to sign certificates. -/
def KeyCertSign (fields : TbsFields) : Prop :=
  ∀ ext ∈ extensionElements fields.rest, ∀ usage, keyUsageIn ext = some usage →
    assertsCertSign usage = true

/-- A certificate is signed under the next one, which may sign certificates. -/
def Link (child issuer : Bytes) : Prop :=
  ∃ parts element alg fields, readCertificate child = some parts ∧
    innerElement parts = some element ∧ Names parts.alg alg ∧ Names element alg ∧
    certificateFields issuer = some fields ∧
    SignatureVerifies crypto alg fields.spki.whole parts.tbs.whole parts.signature ∧
    CaTrue fields ∧ KeyCertSign fields

/-! ### Chains -/

/-- The same subject and the same key. -/
def SameIdentity (root der : Bytes) : Prop :=
  ∃ anchor fields, certificateFields root = some anchor ∧ certificateFields der = some fields ∧
    anchor.subject.whole = fields.subject.whole ∧ anchor.spki.whole = fields.spki.whole

/-- The certificate at an index is an anchor of the store. For the leaf only a copy counts. -/
def Anchored (roots : List Bytes) (index : Nat) (der : Bytes) : Prop :=
  der ∈ roots ∨ 0 < index ∧ ∃ root ∈ roots, SameIdentity root der

/-- What an accepted chain is worth. -/
structure ChainSound (roots certs : List Bytes) (host : Bytes) (now : BitVec 32) : Prop where
  parsed : ∀ der ∈ certs, x509Parse der ≠ none
  valid : ∀ der ∈ certs, InsideValidity now der
  named : ∃ leaf, x509Parse (certs.getD 0 []) = some leaf ∧ matchHost leaf host = true
  path : ∃ top < certs.length, Anchored roots top (certs.getD top []) ∧
    ∀ index < top, Link crypto (certs.getD index []) (certs.getD (index + 1) [])

/-! ### What is left unchecked -/

/-- The times are not before 1970, or the clock of the client is right about them. -/
def TimesPlain (now : BitVec 32) (der : Bytes) : Prop :=
  ∃ fields before after notBefore notAfter, certificateFields der = some fields ∧
    validityTimes fields.validity = some (before, after) ∧ namedTime before = some notBefore ∧
    namedTime after = some notAfter ∧ 0 ≤ notAfter ∧
    (notBefore = 0 → notAfter = 0 → now.toNat = 0)

/-- The extensions that the client reads, in front of the first element that is none. -/
def readElements (fields : TbsFields) : List DerTlv :=
  (extensionElements fields.rest).takeWhile fun ext => (extensionOf ext).isSome

/-- The key usages that the client takes note of. -/
def readUsages (fields : TbsFields) : List (UInt8 × Bytes) :=
  ((readElements fields).filterMap keyUsageIn).filter fun usage => usage.1 == 0

/-- A key usage that the client passes over allows to sign certificates, and so does each one when
it reads several. -/
structure UsagePlain (fields : TbsFields) : Prop where
  unread : ∀ ext ∈ (extensionElements fields.rest).dropWhile fun ext => (extensionOf ext).isSome,
    ∀ usage, keyUsageIn ext = some usage → assertsCertSign usage = true
  unused : ∀ ext ∈ readElements fields, ∀ usage, keyUsageIn ext = some usage → usage.1 ≠ 0 →
    assertsCertSign usage = true
  several : (readUsages fields).length ≤ 1 ∨ ∀ usage ∈ readUsages fields, assertsCertSign usage = true

/-- The two algorithms of a certificate are read as one, an RSA signature is as long as the
modulus, and the key usages of the issuer are plain. -/
def LinkPlain (child issuer : Bytes) : Prop :=
  ∃ parts element alg fields, readCertificate child = some parts ∧
    innerElement parts = some element ∧ readAlg parts.alg = some alg ∧ readAlg element = some alg ∧
    certificateFields issuer = some fields ∧
    (∀ modulus exponent, alg.kind ≠ .ecdsa → spkiRsa fields.spki.whole = some (modulus, exponent) →
      parts.signature.length = modulus.length) ∧
    UsagePlain fields

/-- The checks in front of the walk. -/
structure Checked (certs : List Bytes) (host : Bytes) (now : BitVec 32) : Prop where
  count : 1 ≤ certs.length ∧ certs.length ≤ tlsChainMax
  valid : ∀ der ∈ certs, ∃ cert, x509Parse der = some cert ∧ timeValid cert now = true
  named : ∃ leaf, x509Parse (certs.getD 0 []) = some leaf ∧ matchHost leaf host = true

/-- The walk may stop at an index: the certificate there passes for an anchor, and the signatures
below it verify. -/
structure Stops (beyond : Nat → UInt8) (roots certs : List Bytes) (stop : Nat) : Prop where
  inside : stop < certs.length
  anchor : ∃ cert, x509Parse (certs.getD stop []) = some cert ∧
    isAnchor roots (certs.getD stop []) cert = true
  signed : ∀ index < stop, ∃ issuer, x509Parse (certs.getD (index + 1) []) = some issuer ∧
    verifySignedBy crypto (certs.drop (index + 1)).flatten beyond (certs.getD index []) issuer =
      tlsOk

/-- The chain is plain up to where the walk stops, and sound behind it: the times are plain, and
there is an anchor, by a copy or above the leaf by subject and key, with plain links below it. -/
structure ChainPlain (roots certs : List Bytes) (now : BitVec 32) (stop : Nat) : Prop where
  times : ∀ der ∈ certs, TimesPlain now der
  path : ∃ top < certs.length, Anchored roots top (certs.getD top []) ∧
    ∀ index < top,
      (index < stop → LinkPlain (certs.getD index []) (certs.getD (index + 1) [])) ∧
      (stop ≤ index → Link crypto (certs.getD index []) (certs.getD (index + 1) []))

end MectovOS.Tls
