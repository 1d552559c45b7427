/-
This file models the readers of src/apps/lib/tls/asn1_x509.c below a certificate:
DER elements, object identifiers, times, signature algorithms, public keys and
names. A reader takes the bytes from its offset on and hands back the bytes
behind what it read.
-/

import MectovOS.Tls.Connection

namespace MectovOS.Tls

/-! ### Elements -/

/-- An element: its tag, the bytes of tag and length, and its body. -/
structure DerTlv where
  tag : UInt8
  head : Bytes
  body : Bytes
  deriving DecidableEq

/-- The element with its tag and length. -/
def DerTlv.whole (tlv : DerTlv) : Bytes := tlv.head ++ tlv.body

/-- The length in front of a body, and the bytes that encode it. The long form takes one to four
bytes and never a length below 128. -/
def derLength : Bytes → Option (Bytes × Nat)
  | [] => none
  | first :: rest =>
    if first &&& 0x80 = 0 then some ([first], first.toNat)
    else
      let count := (first &&& 0x7f).toNat
      if count = 0 ∨ 4 < count then none
      else if rest.length < count then none
      else
        let length := (rest.take count).foldl (fun length byte => length * 256 + byte.toNat) 0
        if length < 0x80 then none else some (first :: rest.take count, length)

/-- `der_next`: an element, and the bytes behind it. -/
def derNext : Bytes → Option (DerTlv × Bytes)
  | [] => none
  | tag :: rest =>
    if tag &&& 0x1f = 0x1f then none
    else
      match derLength rest with
      | none => none
      | some (lengthBytes, length) =>
        let body := rest.drop lengthBytes.length
        if body.length < length then none
        else some (⟨tag, tag :: lengthBytes, body.take length⟩, body.drop length)

/-- `der_expect`: an element of one tag. -/
def derExpect (tag : UInt8) (bytes : Bytes) : Option (DerTlv × Bytes) :=
  match derNext bytes with
  | none => none
  | some (tlv, rest) => if tlv.tag = tag then some (tlv, rest) else none

/-- The loop that reads one element after another: those it reads, and whether it comes to the end
of the bytes. -/
def derLoop : Nat → Bytes → List DerTlv × Bool
  | 0, bytes => ([], bytes.isEmpty)
  | fuel + 1, bytes =>
    if bytes = [] then ([], true)
    else
      match derNext bytes with
      | none => ([], false)
      | some (tlv, rest) => (tlv :: (derLoop fuel rest).1, (derLoop fuel rest).2)

def derElements (bytes : Bytes) : List DerTlv × Bool := derLoop bytes.length bytes

theorem derNext_shorter {bytes rest : Bytes} {tlv : DerTlv}
    (reads : derNext bytes = some (tlv, rest)) : rest.length < bytes.length := by
  cases bytes with
  | nil => cases reads
  | cons tag behind =>
    unfold derNext at reads
    dsimp only at reads
    split at reads
    · cases reads
    · split at reads
      · cases reads
      · split at reads
        · cases reads
        · obtain ⟨-, rfl⟩ := Prod.mk.inj (Option.some.inj reads)
          rw [List.length_drop, List.length_drop, List.length_cons]
          omega

/-- The loop is never cut short: more turns read no more. -/
theorem derLoop_enough {fuel : Nat} {bytes : Bytes} (enough : bytes.length ≤ fuel) :
    derLoop fuel bytes = derElements bytes := by
  have same : ∀ first second : Nat, ∀ bytes : Bytes, bytes.length ≤ first →
      bytes.length ≤ second → derLoop first bytes = derLoop second bytes := by
    intro first
    induction first with
    | zero =>
      intro second bytes short _
      obtain rfl := List.length_eq_zero_iff.mp (Nat.le_zero.mp short)
      cases second <;> rfl
    | succ first inductionHypothesis =>
      intro second bytes small large
      cases second with
      | zero =>
        obtain rfl := List.length_eq_zero_iff.mp (Nat.le_zero.mp large)
        rfl
      | succ second =>
        rw [derLoop, derLoop]
        split
        · rfl
        · split
          · rfl
          · next tlv rest reads =>
            have shorter := derNext_shorter reads
            rw [inductionHypothesis second rest (by omega) (by omega)]
  exact same _ _ _ enough (le_refl _)

/-! ### Object identifiers -/

/-- The bodies of the tables `OID_*`. -/
def oidRsaEncryption : Bytes := [0x2a, 0x86, 0x48, 0x86, 0xf7, 0x0d, 0x01, 0x01, 0x01]
def oidRsaSha256 : Bytes := [0x2a, 0x86, 0x48, 0x86, 0xf7, 0x0d, 0x01, 0x01, 0x0b]
def oidRsaSha384 : Bytes := [0x2a, 0x86, 0x48, 0x86, 0xf7, 0x0d, 0x01, 0x01, 0x0c]
def oidRsaSha512 : Bytes := [0x2a, 0x86, 0x48, 0x86, 0xf7, 0x0d, 0x01, 0x01, 0x0d]
def oidRsaPss : Bytes := [0x2a, 0x86, 0x86, 0xf7, 0x0d, 0x01, 0x01, 0x0a]
def oidMgf1 : Bytes := [0x2a, 0x86, 0x48, 0x86, 0xf7, 0x0d, 0x01, 0x01, 0x08]
def oidEcPublicKey : Bytes := [0x2a, 0x86, 0x48, 0xce, 0x3d, 0x02, 0x01]
def oidEcP256 : Bytes := [0x2a, 0x86, 0x48, 0xce, 0x3d, 0x03, 0x01, 0x07]
def oidEcP384 : Bytes := [0x2b, 0x81, 0x04, 0x00, 0x22]
def oidEcdsaSha256 : Bytes := [0x2a, 0x86, 0x48, 0xce, 0x3d, 0x04, 0x03, 0x02]
def oidEcdsaSha384 : Bytes := [0x2a, 0x86, 0x48, 0xce, 0x3d, 0x04, 0x03, 0x03]
def oidEcdsaSha512 : Bytes := [0x2a, 0x86, 0x48, 0xce, 0x3d, 0x04, 0x03, 0x04]
def oidBasicCons : Bytes := [0x55, 0x1d, 0x13]
def oidKeyUsage : Bytes := [0x55, 0x1d, 0x0f]
def oidSan : Bytes := [0x55, 0x1d, 0x11]
def oidCommonName : Bytes := [0x55, 0x04, 0x03]

/-- `oid_is`. -/
def oidIs (tlv : DerTlv) (oid : Bytes) : Bool := tlv.tag == 0x06 && tlv.body == oid

/-! ### Times -/

/-- A number as 32 bits hold it. -/
def wrap32 (value : Int) : Nat := (value % 2 ^ 32).toNat

/-- `days_from_civil`. -/
def daysFromCivil (year month day : Nat) : Nat :=
  let y := wrap32 ((year : Int) - if month ≤ 2 then 1 else 0)
  let era := y / 400
  let yoe := y - era * 400
  let doy := (153 * (if 2 < month then month - 3 else month + 9) + 2) / 5 + day - 1
  let doe := yoe * 365 + yoe / 4 - yoe / 100 + doy
  wrap32 ((era : Int) * 146097 + doe - 719468)

/-- `two`: a number of two digits. -/
def two (bytes : Bytes) (offset : Nat) : Option Nat :=
  let tens := byteAt bytes offset
  let ones := byteAt bytes (offset + 1)
  if tens < 48 ∨ 57 < tens ∨ ones < 48 ∨ 57 < ones then none
  else some ((tens - 48) * 10 + (ones - 48))

def isLeap (year : Nat) : Bool := (year % 4 == 0 && year % 100 != 0) || year % 400 == 0

/-- The days of the months of a year. -/
def monthDays : List Nat := [31, 28, 31, 30, 31, 30, 31, 31, 30, 31, 30, 31]

/-- The fields of a time behind its year. -/
structure Civil where
  month : Nat
  day : Nat
  hour : Nat
  min : Nat
  sec : Nat

def readCivil (body : Bytes) (offset : Nat) : Option Civil := do
  let month ← two body offset
  let day ← two body (offset + 2)
  let hour ← two body (offset + 4)
  let min ← two body (offset + 6)
  let sec ← two body (offset + 8)
  return ⟨month, day, hour, min, sec⟩

/-- The month, the day and the clock are those of a calendar. -/
def Civil.inRange (civil : Civil) (year : Nat) : Bool :=
  let days := if civil.month = 2 ∧ isLeap year then 29 else monthDays.getD (civil.month - 1) 0
  decide (1 ≤ civil.month ∧ civil.month ≤ 12 ∧ 1 ≤ civil.day ∧ civil.hour ≤ 23 ∧ civil.min ≤ 59 ∧
    civil.sec ≤ 60 ∧ civil.day ≤ days)

/-- The seconds of a time, as 32 bits hold them. -/
def civilSeconds (year : Nat) (civil : Civil) : Option Nat :=
  if civil.inRange year then
    some (wrap32 ((daysFromCivil year civil.month civil.day : Int) * 86400 + civil.hour * 3600 +
      civil.min * 60 + civil.sec))
  else none

/-- The year of a UTCTime. -/
def utcYear (yy : Nat) : Nat := if yy < 50 then 2000 + yy else 1900 + yy

/-- `asn1_time`. The fields of a GeneralizedTime are read from the seventh byte on. -/
def asn1Time (time : DerTlv) : Option Nat :=
  if time.tag = 0x17 then
    if time.body.length ≠ 13 ∨ time.body.getD 12 0 ≠ 0x5a then none
    else do
      let yy ← two time.body 0
      let civil ← readCivil time.body 2
      civilSeconds (utcYear yy) civil
  else if time.tag = 0x18 then
    if time.body.length ≠ 15 ∨ time.body.getD 14 0 ≠ 0x5a then none
    else do
      let hi ← two time.body 0
      let lo ← two time.body 2
      let civil ← readCivil time.body 6
      civilSeconds (hi * 100 + lo) civil
  else none

/-! ### Signature algorithms -/

/-- `kind` of `sig_alg_t`. -/
inductive SigKind where
  | rsaPkcs1
  | rsaPss
  | ecdsa
  deriving DecidableEq

/-- `sig_alg_t`: a digest of length 0 is left to the DigestInfo. -/
structure SigAlg where
  kind : SigKind
  digest : Nat
  curve : Nat
  deriving DecidableEq

/-- `digest_len_of_oid`, of an identifier with the two bytes in front of its body. -/
def digestLenOfOid (oid : DerTlv) : Nat :=
  let bytes := oid.head.drop (oid.head.length - 2) ++ oid.body
  if bytes = 0x06 :: 0x09 :: oidRsaSha256 then 32
  else if bytes = 0x06 :: 0x09 :: oidRsaSha384 then 48
  else if bytes = 0x06 :: 0x09 :: oidRsaSha512 then 64
  else if bytes = 0x06 :: 0x08 :: oidEcdsaSha256 then 32
  else if bytes = 0x06 :: 0x08 :: oidEcdsaSha384 then 48
  else if bytes = 0x06 :: 0x08 :: oidEcdsaSha512 then 64
  else 0

/-- A field of the parameters of RSASSA-PSS: the hash so far, and whether the mask generation names
the same one. The hash of the mask is looked for where its identifier stands. -/
def pssField (field : DerTlv) (hash : Nat) (mask : Bool) : Option (Nat × Bool) :=
  if field.tag ≠ 0xa0 ∧ field.tag ≠ 0xa1 then some (hash, mask)
  else do
    let (alg, _) ← derExpect 0x30 field.body
    let (oid, rest) ← derExpect 0x06 alg.body
    if field.tag = 0xa0 then
      if digestLenOfOid oid = 0 then none else some (digestLenOfOid oid, mask)
    else if oidIs oid oidMgf1 = false ∨ rest = [] then none
    else do
      let (hashAlg, _) ← derExpect 0x30 alg.body
      let (hashOid, _) ← derExpect 0x06 hashAlg.body
      some (hash, decide (digestLenOfOid hashOid ≠ 0 ∧ digestLenOfOid hashOid = hash))

def pssFields : List DerTlv → Nat → Bool → Option (Nat × Bool)
  | [], hash, mask => some (hash, mask)
  | field :: fields, hash, mask =>
    match pssField field hash mask with
    | none => none
    | some (hash, mask) => pssFields fields hash mask

/-- `pss_hash`. -/
def pssHash (params : DerTlv) : Option Nat :=
  if params.tag ≠ 0x30 then none
  else if (derElements params.body).2 = false then none
  else
    match pssFields (derElements params.body).1 0 false with
    | none => none
    | some (hash, mask) => if hash = 0 ∨ mask = false then none else some hash

/-- `read_alg` behind its parameters. -/
def algOf (oid : DerTlv) (params : Option DerTlv) : Option SigAlg :=
  if oidIs oid oidRsaSha256 || oidIs oid oidRsaSha384 || oidIs oid oidRsaSha512 then
    if digestLenOfOid oid = 0 then none else some ⟨.rsaPkcs1, digestLenOfOid oid, 0⟩
  else if oidIs oid oidRsaPss then
    match params with
    | none => none
    | some params => (pssHash params).map fun digest => ⟨.rsaPss, digest, 0⟩
  else if oidIs oid oidEcdsaSha256 || oidIs oid oidEcdsaSha384 || oidIs oid oidEcdsaSha512 then
    if digestLenOfOid oid = 32 then some ⟨.ecdsa, 32, 1⟩
    else if digestLenOfOid oid = 48 then some ⟨.ecdsa, 48, 2⟩
    else none
  else if oidIs oid oidRsaEncryption then some ⟨.rsaPkcs1, 0, 0⟩
  else none

/-- `read_alg`. -/
def readAlg (alg : DerTlv) : Option SigAlg :=
  if alg.tag ≠ 0x30 then none
  else
    match derExpect 0x06 alg.body with
    | none => none
    | some (oid, []) => algOf oid none
    | some (oid, rest) =>
      match derNext rest with
      | none => none
      | some (params, behind) => if behind = [] then algOf oid (some params) else none

/-! ### Public keys -/

/-- Zeros in front of a number, which keeps its last byte. -/
def stripZeros : Bytes → Bytes
  | 0 :: byte :: rest => stripZeros (byte :: rest)
  | bytes => bytes

/-- The body of a BIT STRING without unused bits. -/
def wholeBits (bits : DerTlv) : Option Bytes :=
  match bits.body with
  | 0 :: bytes => some bytes
  | _ => none

/-- `tls_spki_rsa`: the modulus and the exponent. -/
def spkiRsa (spki : Bytes) : Option (Bytes × Bytes) := do
  let (seq, behind) ← derExpect 0x30 spki
  if behind ≠ [] then none
  else do
    let (alg, rest) ← derExpect 0x30 seq.body
    let (oid, _) ← derExpect 0x06 alg.body
    if oidIs oid oidRsaEncryption = false then none
    else do
      let (bits, last) ← derExpect 0x03 rest
      let key ← wholeBits bits
      if last ≠ [] then none
      else do
        let (inner, _) ← derExpect 0x30 key
        let (modulus, rest) ← derExpect 0x02 inner.body
        let (exponent, last) ← derExpect 0x02 rest
        if last ≠ [] then none
        else some (stripZeros modulus.body, stripZeros exponent.body)

/-- The curve that an identifier names. -/
def curveOf (params : DerTlv) : Option Nat :=
  if oidIs params oidEcP256 then some 1 else if oidIs params oidEcP384 then some 2 else none

/-- The point of a key, as it stands or in an OCTET STRING. -/
def pointOf (raw : Nat) (key : Bytes) : Option Bytes :=
  if key.length = raw + 1 ∧ byteAt key 0 = 4 then some (key.drop 1)
  else if key.length = raw + 3 ∧ byteAt key 0 = 4 ∧ byteAt key 1 = raw then
    some ((key.drop 2).take raw)
  else none

/-- `tls_spki_ec`: the curve and the point. -/
def spkiEc (spki : Bytes) : Option (Nat × Bytes) := do
  let (seq, behind) ← derExpect 0x30 spki
  if behind ≠ [] then none
  else do
    let (alg, rest) ← derExpect 0x30 seq.body
    let (oid, algRest) ← derExpect 0x06 alg.body
    if oidIs oid oidEcPublicKey = false then none
    else do
      let (params, _) ← derExpect 0x06 algRest
      let curve ← curveOf params
      let (bits, _) ← derExpect 0x03 rest
      let key ← wholeBits bits
      let point ← pointOf (if curve = 1 then 64 else 96) key
      some (curve, point)

/-- One of the two numbers of a signature, in a field of `width` bytes. -/
def flatNumber (width : Nat) (number : Bytes) : Option Bytes :=
  let number := if number.length = width + 1 ∧ byteAt number 0 = 0 then number.drop 1 else number
  if width < number.length then none else some (zeros (width - number.length) ++ number)

/-- The two numbers of an ECDSA signature. -/
def ecdsaNumbers (signature : Bytes) : Option (Bytes × Bytes) := do
  let (seq, _) ← derExpect 0x30 signature
  let (r, rest) ← derExpect 0x02 seq.body
  let (s, _) ← derExpect 0x02 rest
  some (r.body, s.body)

/-! ### Names -/

/-- The value of a common name, `none` when the attribute cannot be read. -/
def readAttribute (atv : DerTlv) : Option (Option Bytes) := do
  let (oid, rest) ← derExpect 0x06 atv.body
  let (value, _) ← derNext rest
  some (if oidIs oid oidCommonName then some value.body else none)

/-- The attributes of one RDN: the last common name, and whether the walk goes on. -/
def findAttributes : List DerTlv → Option Bytes → Option Bytes × Bool
  | [], name => (name, true)
  | atv :: rest, name =>
    match readAttribute atv with
    | none => (name, false)
    | some found => findAttributes rest (found.or name)

def findNames : List DerTlv → Option Bytes → Option Bytes
  | [], name => name
  | rdn :: rest, name =>
    let found := findAttributes (derElements rdn.body).1 name
    if found.2 = false ∨ (derElements rdn.body).2 = false then found.1
    else findNames rest found.1

/-- `find_cn`: the last common name of a Name. -/
def findCn (name : DerTlv) : Option Bytes := findNames (derElements name.body).1 none

end MectovOS.Tls
