/-
This file models the certificates of src/apps/lib/tls/asn1_x509.c: the parser with
its extensions, the signature of one certificate under another, the host name, and
the walk up a presented chain. Hashes and verifiers are parameters; nothing is
assumed of them.
-/

import MectovOS.Tls.Der

namespace MectovOS.Tls

/-- The hashes and the verifiers of tls_hash.c and tls_pubkey.c: the modulus, the exponent, the
signature and the digest, or the curve, the point, the digest and the signature. -/
structure Crypto where
  sha256 : Bytes → Bytes
  sha384 : Bytes → Bytes
  sha512 : Bytes → Bytes
  rsaPkcs1Verify : Bytes → Bytes → Bytes → Bytes → Bool
  rsaPssVerify : Bytes → Bytes → Bytes → Bytes → Bool
  ecdsaVerify : Nat → Bytes → Bytes → Bytes → Bool

/-! ### Extensions -/

/-- What the client reads of the extensions, the fields of `ext_t`. -/
structure Ext where
  isCa : Bool
  keyCertSign : Bool
  hasKeyUsage : Bool
  san : Option Bytes
  deriving DecidableEq

/-- The identifier and the value of an extension. A BOOLEAN between the two is skipped. -/
def extensionOf (ext : DerTlv) : Option (DerTlv × Bytes) :=
  if ext.tag ≠ 0x30 then none
  else do
    let (oid, rest) ← derExpect 0x06 ext.body
    let rest := match derNext rest with
      | none => rest
      | some (maybeBool, behind) => if maybeBool.tag = 0x01 then behind else rest
    let (value, last) ← derExpect 0x04 rest
    if last ≠ [] then none else some (oid, value.body)

/-- The basic constraints that a value holds: what its BOOLEAN says. -/
def basicConsOf (value : Bytes) : Option Bool := do
  let (constraints, _) ← derExpect 0x30 value
  let (flag, _) ← derNext constraints.body
  if flag.tag = 0x01 then some (decide (flag.body.headD 0 ≠ 0)) else none

/-- The BIT STRING of a key usage: its unused bits, and its bytes. -/
def keyUsageOf (value : Bytes) : Option (UInt8 × Bytes) :=
  match derExpect 0x03 value with
  | none => none
  | some (usage, _) =>
    match usage.body with
    | [] => none
    | unused :: bits => some (unused, bits)

/-- The GeneralNames of a value. -/
def sanOf (value : Bytes) : Option Bytes := (derExpect 0x30 value).map fun names => names.1.body

/-- One extension. A key usage with unused bits is passed over. -/
def readExtension (oid : DerTlv) (value : Bytes) (out : Ext) : Ext :=
  if oidIs oid oidBasicCons then
    match basicConsOf value with
    | none => out
    | some isCa => { out with isCa := isCa }
  else if oidIs oid oidKeyUsage then
    match keyUsageOf value with
    | none => out
    | some (unused, bits) =>
      if unused ≠ 0 then out
      else { out with
        keyCertSign := out.keyCertSign || bits.headD 0 &&& 0x04 != 0
        hasKeyUsage := true }
  else if oidIs oid oidSan then
    match sanOf value with
    | none => out
    | some names => { out with san := some names }
  else out

/-- `read_extensions`: an element that is no extension ends the walk. -/
def readExtensions : List DerTlv → Ext → Ext
  | [], out => out
  | ext :: rest, out =>
    match extensionOf ext with
    | none => out
    | some (oid, value) => readExtensions rest (readExtension oid value out)

/-! ### A certificate -/

/-- The three parts of a certificate, what is behind them inside it, and what is behind it. -/
structure SignedParts where
  tbs : DerTlv
  alg : DerTlv
  bits : DerTlv
  signature : Bytes
  inside : Bytes
  behind : Bytes

def readCertificate (der : Bytes) : Option SignedParts := do
  let (cert, behind) ← derExpect 0x30 der
  let (tbs, rest) ← derExpect 0x30 cert.body
  let (alg, rest) ← derExpect 0x30 rest
  let (bits, inside) ← derExpect 0x03 rest
  let signature ← wholeBits bits
  some ⟨tbs, alg, bits, signature, inside, behind⟩

/-- The bytes behind the version and the serial number. -/
def skipSerial (tbs : Bytes) : Option Bytes := do
  let (first, rest) ← derNext tbs
  if first.tag = 0xa0 then (derNext rest).map (·.2) else some rest

/-- The fields of a tbsCertificate, and the bytes behind its key. -/
structure TbsFields where
  alg : DerTlv
  validity : DerTlv
  subject : DerTlv
  spki : DerTlv
  rest : Bytes

def tbsFields (tbs : DerTlv) : Option TbsFields := do
  let rest ← skipSerial tbs.body
  let (alg, rest) ← derExpect 0x30 rest
  let (_, rest) ← derExpect 0x30 rest
  let (validity, rest) ← derExpect 0x30 rest
  let (subject, rest) ← derExpect 0x30 rest
  let (spki, rest) ← derExpect 0x30 rest
  some ⟨alg, validity, subject, spki, rest⟩

/-- The two times of a validity. -/
def validityTimes (validity : DerTlv) : Option (DerTlv × DerTlv) := do
  let (notBefore, rest) ← derNext validity.body
  let (notAfter, last) ← derNext rest
  if last ≠ [] then none else some (notBefore, notAfter)

/-- The elements of the extensions behind the key. -/
def extensionElements (rest : Bytes) : List DerTlv :=
  match (derElements rest).1.find? (fun field => field.tag == 0xa3) with
  | none => []
  | some field =>
    match derExpect 0x30 field.body with
    | none => []
    | some (seq, _) => (derElements seq.body).1

/-- `tls_cert_t`. -/
structure Cert where
  pub : Bytes
  isCa : Bool
  isRsa : Bool
  ecCurve : Nat
  notBefore : Nat
  notAfter : Nat
  san : Option Bytes
  cn : Option Bytes

/-- The certificate of its fields. A key usage without keyCertSign takes the CA flag away. -/
def certOf (fields : TbsFields) (notBefore notAfter : Nat) : Cert :=
  let pub := fields.spki.whole
  let ext := readExtensions (extensionElements fields.rest) ⟨false, false, false, none⟩
  { pub := pub
    isCa := ext.isCa && !(ext.hasKeyUsage && !ext.keyCertSign)
    isRsa := (spkiRsa pub).isSome
    ecCurve := if (spkiRsa pub).isSome then 0 else ((spkiEc pub).map (·.1)).getD 0
    notBefore := notBefore
    notAfter := notAfter
    san := ext.san
    cn := findCn fields.subject }

/-- `tls_x509_parse`. -/
def x509Parse (der : Bytes) : Option Cert := do
  let parts ← readCertificate der
  if parts.inside ≠ [] ∨ parts.behind ≠ [] then none
  else do
    let fields ← tbsFields parts.tbs
    let (before, after) ← validityTimes fields.validity
    let notBefore ← asn1Time before
    let notAfter ← asn1Time after
    some (certOf fields notBefore notAfter)

/-- `tls_x509_time_valid`. -/
def timeValid (cert : Cert) (now : BitVec 32) : Bool :=
  if cert.notBefore = 0 ∧ cert.notAfter = 0 then true
  else decide (cert.notBefore ≤ now.toNat ∧ now.toNat ≤ cert.notAfter)

/-- `tls_x509_is_same_anchor`: the common name and the key. -/
def isSameAnchor (root : Bytes) (cert : Cert) : Bool :=
  match x509Parse root with
  | none => false
  | some anchor =>
    match anchor.cn, cert.cn with
    | some anchorName, some name => anchorName == name && anchor.pub == cert.pub
    | _, _ => false

/-! ### Signatures -/

variable (crypto : Crypto)

/-- The hash of a length. -/
def Crypto.digest (length : Nat) (bytes : Bytes) : Bytes :=
  if length = 32 then crypto.sha256 bytes
  else if length = 48 then crypto.sha384 bytes
  else crypto.sha512 bytes

/-- The bytes that an RSA verifier reads: as many as the modulus has, from the signature on. -/
def signatureMemory (bytes : Bytes) (beyond : Nat → UInt8) (length : Nat) : Bytes :=
  (List.range length).map fun index => bytes.getD index (beyond (index - bytes.length))

/-- Do the two algorithms of a certificate go together? -/
def algsAgree (outer inner : SigAlg) : Bool :=
  decide (outer.kind = inner.kind) && !(outer.kind == .ecdsa && outer.curve != inner.curve) &&
    !(outer.digest != 0 && inner.digest != 0 && outer.digest != inner.digest)

/-- An RSA signature. Without a digest in the algorithm each of the three hashes is tried. -/
def rsaSigned (alg : SigAlg) (pub tbs : Bytes) (memory : Nat → Bytes) : Int :=
  match spkiRsa pub with
  | none => tlsErrUnsupported
  | some (modulus, exponent) =>
    let signature := memory modulus.length
    let verifies := match alg.kind with
      | .rsaPss => crypto.rsaPssVerify modulus exponent signature (crypto.digest alg.digest tbs)
      | _ =>
        if alg.digest = 0 then
          [32, 48, 64].any fun length =>
            crypto.rsaPkcs1Verify modulus exponent signature (crypto.digest length tbs)
        else crypto.rsaPkcs1Verify modulus exponent signature (crypto.digest alg.digest tbs)
    if verifies then tlsOk else tlsErrVerify

/-- An ECDSA signature. -/
def ecdsaSigned (alg : SigAlg) (pub tbs signature : Bytes) : Int :=
  match spkiEc pub with
  | none => tlsErrUnsupported
  | some (curve, point) =>
    if curve ≠ alg.curve then tlsErrUnsupported
    else
      match ecdsaNumbers signature with
      | none => tlsErrProtocol
      | some (r, s) =>
        let width := if alg.curve = 1 then 32 else 48
        match flatNumber width r, flatNumber width s with
        | some first, some second =>
          if crypto.ecdsaVerify alg.curve point (crypto.digest alg.digest tbs) (first ++ second) then
            tlsOk
          else tlsErrVerify
        | _, _ => tlsErrVerify

/-- The two algorithms of a certificate. -/
def outerAlg (parts : SignedParts) : Option SigAlg := readAlg parts.alg
def innerElement (parts : SignedParts) : Option DerTlv := do
  let rest ← skipSerial parts.tbs.body
  let (alg, _) ← derExpect 0x30 rest
  some alg

/-- `tls_x509_verify_signed_by`, with the bytes behind the child in memory. -/
def verifySignedBy (behind : Bytes) (beyond : Nat → UInt8) (child : Bytes) (issuer : Cert) : Int :=
  if x509Parse child = none then tlsErrProtocol
  else if issuer.isCa = false then tlsErrVerify
  else
    match readCertificate child with
    | none => tlsErrProtocol
    | some parts =>
      match outerAlg parts with
      | none => tlsErrUnsupported
      | some outer =>
        match innerElement parts with
        | none => tlsErrProtocol
        | some element =>
          match readAlg element with
          | none => tlsErrUnsupported
          | some inner =>
            if algsAgree outer inner = false then tlsErrVerify
            else if outer.kind = .ecdsa then
              ecdsaSigned crypto outer issuer.pub parts.tbs.whole parts.signature
            else
              rsaSigned crypto outer issuer.pub parts.tbs.whole
                (signatureMemory (parts.signature ++ behind) beyond)

/-! ### The host -/

def lower (letter : UInt8) : UInt8 := if 65 ≤ letter ∧ letter ≤ 90 then letter + 32 else letter

/-- `str_ieq`. -/
def strIeq (first second : Bytes) : Bool := first.map lower == second.map lower

/-- `dns_match`: a star in front stands for one label. -/
def dnsMatch (pattern host : Bytes) : Bool :=
  if 2 < pattern.length ∧ byteAt pattern 0 = 42 ∧ byteAt pattern 1 = 46 then
    match host.dropWhile (· ≠ 46) with
    | [] => false
    | _ :: labels => strIeq (pattern.drop 2) labels
  else strIeq pattern host

/-- The loop of `parse_ipv4`. -/
def ipv4Loop : Bytes → List Nat → Nat → Nat → Option (List Nat)
  | [], parts, acc, digits =>
    if digits = 0 ∨ 4 ≤ parts.length then none else some (parts ++ [acc])
  | letter :: rest, parts, acc, digits =>
    if 48 ≤ letter ∧ letter ≤ 57 then
      let acc := acc * 10 + (letter.toNat - 48)
      if 3 < digits + 1 ∨ 255 < acc then none else ipv4Loop rest parts acc (digits + 1)
    else if letter = 46 then
      if digits = 0 ∨ 4 ≤ parts.length then none else ipv4Loop rest (parts ++ [acc]) 0 0
    else none

/-- `parse_ipv4`. -/
def parseIpv4 (text : Bytes) : Option Bytes :=
  match ipv4Loop text [] 0 0 with
  | none => none
  | some parts => if parts.length ≠ 4 then none else some (parts.map UInt8.ofNat)

/-- `host_is_ipv4`. -/
def hostIsIpv4 (host : Bytes) : Bool :=
  host.all (fun letter => letter == 46 || (48 ≤ letter && letter ≤ 57)) && host.count 46 == 3

/-- Does a GeneralName name the host? -/
def generalNameMatches (host : Bytes) (name : DerTlv) : Bool :=
  if name.tag = 0x82 then dnsMatch name.body host
  else if name.tag = 0x87 then
    hostIsIpv4 host && name.body.length == 4 && parseIpv4 host == some name.body
  else false

/-- `tls_x509_match_host`: the common name counts only without a SAN. -/
def matchHost (cert : Cert) (host : Bytes) : Bool :=
  if host = [] then false
  else
    match cert.san with
    | some names => (derElements names).1.any (generalNameMatches host)
    | none =>
      match cert.cn with
      | none => false
      | some name => dnsMatch name host

/-! ### The chain -/

/-- The certificates of a chain, each inside its validity. -/
def readChain (now : BitVec 32) : List Bytes → Except Int (List (Bytes × Cert))
  | [] => .ok []
  | der :: rest =>
    match x509Parse der with
    | none => .error tlsErrProtocol
    | some cert =>
      if timeValid cert now = false then .error tlsErrVerify
      else
        match readChain now rest with
        | .error code => .error code
        | .ok later => .ok ((der, cert) :: later)

/-- Is a certificate an anchor of the store? -/
def isAnchor (roots : List Bytes) (der : Bytes) (cert : Cert) : Bool :=
  roots.any fun root => root == der || isSameAnchor root cert

/-- The walk up the chain as presented. -/
def walkChain (beyond : Nat → UInt8) (roots : List Bytes) : List (Bytes × Cert) → Int
  | [] => tlsErrVerify
  | (der, cert) :: rest =>
    if isAnchor roots der cert then tlsOk
    else
      match rest with
      | [] => tlsErrVerify
      | (_, issuer) :: _ =>
        if verifySignedBy crypto (rest.map (·.1)).flatten beyond der issuer ≠ tlsOk then
          tlsErrVerify
        else walkChain beyond roots rest

/-- `tls_verify_chain`, with its code and the expiry of the leaf. -/
def tlsVerifyChain (beyond : Nat → UInt8) (roots : List Bytes) (certs : List Bytes) (host : Bytes)
    (now : BitVec 32) : Int × Option Nat :=
  if certs.length < 1 ∨ tlsChainMax < certs.length then (tlsErrProtocol, none)
  else
    match readChain now certs with
    | .error code => (code, none)
    | .ok [] => (tlsErrProtocol, none)
    | .ok ((der, leaf) :: rest) =>
      if matchHost leaf host = false then (tlsErrVerify, none)
      else (walkChain crypto beyond roots ((der, leaf) :: rest), some leaf.notAfter)

end MectovOS.Tls
