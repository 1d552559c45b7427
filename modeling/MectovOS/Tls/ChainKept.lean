/-
This file proves when a chain that `tls_verify_chain` accepts is sound, and shows a
copy of the name and the key of an anchor that is accepted as a leaf.
-/

import MectovOS.Tls.CertificateRead

namespace MectovOS.Tls

/-! ### Links -/

variable {crypto : Crypto} {beyond : Nat → UInt8} {behind child issuer : Bytes} {cert : Cert}

/-- What a signature that is accepted was checked for. -/
structure SignedBy (crypto : Crypto) (beyond : Nat → UInt8) (behind child : Bytes) (cert : Cert)
    where
  parts : SignedParts
  outer : SigAlg
  inner : SigAlg
  element : DerTlv
  read : readCertificate child = some parts
  outerRead : readAlg parts.alg = some outer
  elementRead : innerElement parts = some element
  innerRead : readAlg element = some inner
  isCa : cert.isCa = true
  ecdsa : outer.kind = .ecdsa →
    ecdsaSigned crypto outer cert.pub parts.tbs.whole parts.signature = tlsOk
  rsa : outer.kind ≠ .ecdsa → rsaSigned crypto outer cert.pub parts.tbs.whole
    (signatureMemory (parts.signature ++ behind) beyond) = tlsOk

theorem verifySignedBy_ok (accepted : verifySignedBy crypto behind beyond child cert = tlsOk) :
    Nonempty (SignedBy crypto beyond behind child cert) := by
  unfold verifySignedBy at accepted
  split at accepted
  · exact absurd accepted (by decide)
  split at accepted
  · exact absurd accepted (by decide)
  next ca =>
  split at accepted
  · exact absurd accepted (by decide)
  next parts read =>
  split at accepted
  · exact absurd accepted (by decide)
  next outer outerRead =>
  split at accepted
  · exact absurd accepted (by decide)
  next element elementRead =>
  split at accepted
  · exact absurd accepted (by decide)
  next inner innerRead =>
  split at accepted
  · exact absurd accepted (by decide)
  split at accepted
  · next kind =>
    exact ⟨⟨parts, outer, inner, element, read, outerRead, elementRead, innerRead,
      Bool.not_eq_false _ ▸ ca, fun _ => accepted, fun other => absurd kind other⟩⟩
  · next kind =>
    exact ⟨⟨parts, outer, inner, element, read, outerRead, elementRead, innerRead,
      Bool.not_eq_false _ ▸ ca, fun other => absurd other kind, fun _ => accepted⟩⟩

/-- A signature of the right length is read as it stands. -/
theorem signatureMemory_append (signature behind : Bytes) (beyond : Nat → UInt8) :
    signatureMemory (signature ++ behind) beyond signature.length = signature := by
  unfold signatureMemory
  refine List.ext_getElem (by rw [List.length_map, List.length_range]) fun index inside here => ?_
  rw [List.getElem_map, List.getElem_range, List.getD_eq_getElem?_getD,
    List.getElem?_append_left here, List.getElem?_eq_getElem here]
  rfl

/-- An RSA verifier reads as many bytes as the modulus has. -/
theorem rsaSigned_ok {alg : SigAlg} {pub tbs : Bytes} {memory : Nat → Bytes}
    (accepted : rsaSigned crypto alg pub tbs memory = tlsOk) :
    ∃ modulus exponent, spkiRsa pub = some (modulus, exponent) ∧
      ∀ other : Nat → Bytes, other modulus.length = memory modulus.length →
        rsaSigned crypto alg pub tbs other = tlsOk := by
  unfold rsaSigned at accepted
  split at accepted
  · exact absurd accepted (by decide)
  · next modulus exponent key =>
    refine ⟨modulus, exponent, key, fun other same => ?_⟩
    unfold rsaSigned
    rw [key]
    dsimp only
    rw [same]
    exact accepted

/-- A signature that is accepted is a link of the chain when it is plain. -/
theorem link_iff (accepted : verifySignedBy crypto behind beyond child cert = tlsOk)
    (parses : x509Parse issuer = some cert) :
    Link crypto child issuer ↔ LinkPlain child issuer := by
  obtain ⟨signed⟩ := verifySignedBy_ok accepted
  obtain ⟨parsed⟩ := x509Parse_parsed parses
  have isCa := signed.isCa
  rw [parsed.is] at isCa
  have pub : cert.pub = parsed.fields.spki.whole := congrArg Cert.pub parsed.is
  constructor
  · rintro ⟨parts, element, alg, fields, read, elementRead, outer, inner, are, verifies, -, signs⟩
    obtain rfl := Option.some.inj (signed.read.symm.trans read)
    obtain rfl := Option.some.inj (signed.elementRead.symm.trans elementRead)
    obtain rfl := Option.some.inj (parsed.fields_eq.symm.trans are)
    have first := (readAlg_names signed.outerRead).unique outer
    have second := (readAlg_names signed.innerRead).unique inner
    refine ⟨_, _, alg, _, read, elementRead, first ▸ signed.outerRead, second ▸ signed.innerRead,
      are, fun modulus exponent kind key => ?_, (keyCertSign_iff isCa).mp signs⟩
    unfold SignatureVerifies at verifies
    split at verifies
    · next ecdsa => exact absurd ecdsa kind
    · obtain ⟨modulus', exponent', key', length, -⟩ := verifies
      obtain ⟨rfl, -⟩ := Prod.mk.inj (Option.some.inj (key'.symm.trans key))
      exact length
  · rintro ⟨parts, element, alg, fields, read, elementRead, outer, inner, are, length, plain⟩
    obtain rfl := Option.some.inj (signed.read.symm.trans read)
    obtain rfl := Option.some.inj (signed.elementRead.symm.trans elementRead)
    obtain rfl := Option.some.inj (parsed.fields_eq.symm.trans are)
    obtain rfl := Option.some.inj (signed.outerRead.symm.trans outer)
    refine ⟨_, _, _, _, read, elementRead, readAlg_names outer, readAlg_names inner, are, ?_,
      caTrue_of_isCa isCa, (keyCertSign_iff isCa).mpr plain⟩
    rw [← pub]
    unfold SignatureVerifies
    split
    · next ecdsa => exact signed.ecdsa ecdsa
    · next kind =>
      obtain ⟨modulus, exponent, key, verifies⟩ := rsaSigned_ok (signed.rsa kind)
      have same := length modulus exponent kind (pub ▸ key)
      refine ⟨modulus, exponent, key, same, verifies _ ?_⟩
      rw [← same, signatureMemory_append]

/-! ### The walk -/

variable {roots certs : List Bytes} {host : Bytes} {now : BitVec 32}

theorem Stops.nil (stop : Nat) : ¬ Stops crypto beyond roots [] stop :=
  fun stops => absurd stops.inside (Nat.not_lt_zero _)

theorem stops_zero {der : Bytes} (parses : x509Parse der = some cert) :
    Stops crypto beyond roots (der :: certs) 0 ↔ isAnchor roots der cert = true := by
  constructor
  · rintro ⟨-, ⟨other, again, anchor⟩, -⟩
    obtain rfl := Option.some.inj (parses.symm.trans again)
    exact anchor
  · intro anchor
    exact ⟨Nat.zero_lt_succ _, ⟨cert, parses, anchor⟩, fun index inside =>
      absurd inside (Nat.not_lt_zero _)⟩

/-- The walk goes on behind a signature that is accepted. -/
theorem stops_succ {der next : Bytes} {stop : Nat} (parses : x509Parse next = some cert) :
    Stops crypto beyond roots (der :: next :: certs) (stop + 1) ↔
      verifySignedBy crypto (next :: certs).flatten beyond der cert = tlsOk ∧
        Stops crypto beyond roots (next :: certs) stop := by
  constructor
  · rintro ⟨inside, anchor, signed⟩
    refine ⟨?_, Nat.lt_of_succ_lt_succ inside, anchor, fun index below => ?_⟩
    · obtain ⟨other, again, accepted⟩ := signed 0 (Nat.zero_lt_succ _)
      obtain rfl := Option.some.inj (parses.symm.trans again)
      exact accepted
    · exact signed (index + 1) (Nat.succ_lt_succ below)
  · rintro ⟨first, inside, anchor, signed⟩
    refine ⟨Nat.succ_lt_succ inside, anchor, fun index below => ?_⟩
    cases index with
    | zero => exact ⟨cert, parses, first⟩
    | succ index => exact signed index (Nat.lt_of_succ_lt_succ below)

/-- The walk accepts a chain when it may stop somewhere. -/
theorem walkChain_ok {pairs : List (Bytes × Cert)}
    (parsed : ∀ pair ∈ pairs, x509Parse pair.1 = some pair.2) :
    walkChain crypto beyond roots pairs = tlsOk ↔
      ∃ stop, Stops crypto beyond roots (pairs.map (·.1)) stop := by
  induction pairs with
  | nil =>
    refine iff_of_false (show tlsErrVerify ≠ tlsOk by decide) ?_
    rintro ⟨stop, stops⟩
    exact Stops.nil stop stops
  | cons pair rest inductionHypothesis =>
    obtain ⟨der, leaf⟩ := pair
    have parses : x509Parse der = some leaf := parsed _ List.mem_cons_self
    have later := inductionHypothesis fun pair member => parsed pair (List.mem_cons_of_mem _ member)
    cases rest with
    | nil =>
      rw [walkChain]
      split
      · next anchor => exact iff_of_true rfl ⟨0, (stops_zero parses).mpr anchor⟩
      · next noAnchor =>
        refine iff_of_false (show tlsErrVerify ≠ tlsOk by decide) ?_
        rintro ⟨stop, stops⟩
        obtain rfl := Nat.lt_one_iff.mp stops.inside
        exact noAnchor ((stops_zero parses).mp stops)
    | cons next rest =>
      obtain ⟨nextDer, issuer⟩ := next
      have nextParses : x509Parse nextDer = some issuer :=
        parsed _ (List.mem_cons_of_mem _ List.mem_cons_self)
      have shift (stop : Nat) : Stops crypto beyond roots
          (((der, leaf) :: (nextDer, issuer) :: rest).map (·.1)) (stop + 1) ↔ _ :=
        stops_succ nextParses
      rw [walkChain]
      split
      · next anchor => exact iff_of_true rfl ⟨0, (stops_zero parses).mpr anchor⟩
      · next noAnchor =>
        split
        · next refused =>
          refine iff_of_false (show tlsErrVerify ≠ tlsOk by decide) ?_
          rintro ⟨stop, stops⟩
          cases stop with
          | zero => exact noAnchor ((stops_zero parses).mp stops)
          | succ stop => exact refused ((shift stop).mp stops).1
        · next accepted =>
          rw [later]
          constructor
          · rintro ⟨stop, stops⟩
            exact ⟨stop + 1, (shift stop).mpr ⟨not_not.mp accepted, stops⟩⟩
          · rintro ⟨stop, stops⟩
            cases stop with
            | zero => exact absurd ((stops_zero parses).mp stops) noAnchor
            | succ stop => exact ⟨stop, ((shift stop).mp stops).2⟩

theorem readChain_ok {pairs : List (Bytes × Cert)} (reads : readChain now certs = .ok pairs) :
    pairs.map (·.1) = certs ∧
      ∀ pair ∈ pairs, x509Parse pair.1 = some pair.2 ∧ timeValid pair.2 now = true := by
  induction certs generalizing pairs with
  | nil =>
    obtain rfl := Except.ok.inj reads
    exact ⟨rfl, fun pair member => absurd member List.not_mem_nil⟩
  | cons der rest inductionHypothesis =>
    rw [readChain] at reads
    split at reads
    · cases reads
    · next cert parses =>
      split at reads
      · cases reads
      · next valid =>
        split at reads
        · cases reads
        · next later found =>
          obtain rfl := Except.ok.inj reads
          obtain ⟨same, all⟩ := inductionHypothesis found
          refine ⟨by rw [List.map_cons, same], fun pair member => ?_⟩
          rcases List.mem_cons.mp member with rfl | behind
          · exact ⟨parses, Bool.not_eq_false _ ▸ valid⟩
          · exact all pair behind

theorem readChain_of_valid
    (valid : ∀ der ∈ certs, ∃ cert, x509Parse der = some cert ∧ timeValid cert now = true) :
    ∃ pairs, readChain now certs = .ok pairs := by
  induction certs with
  | nil => exact ⟨[], rfl⟩
  | cons der rest inductionHypothesis =>
    obtain ⟨cert, parses, inside⟩ := valid der List.mem_cons_self
    obtain ⟨pairs, later⟩ :=
      inductionHypothesis fun other member => valid other (List.mem_cons_of_mem _ member)
    refine ⟨(der, cert) :: pairs, ?_⟩
    rw [readChain, parses]
    dsimp only
    rw [if_neg (by rw [inside]; decide), later]

/-- A chain is accepted when its checks pass and the walk may stop somewhere. -/
theorem tlsVerifyChain_ok :
    (tlsVerifyChain crypto beyond roots certs host now).1 = tlsOk ↔
      Checked certs host now ∧ ∃ stop, Stops crypto beyond roots certs stop := by
  unfold tlsVerifyChain
  split
  · next outside =>
    refine iff_of_false (show tlsErrProtocol ≠ tlsOk by decide) ?_
    rintro ⟨checked, -⟩
    exact outside.elim (fun empty => absurd checked.count.1 (Nat.not_le.mpr empty))
      fun long => absurd checked.count.2 (Nat.not_le.mpr long)
  · next inside =>
    rw [not_or, Nat.not_lt, Nat.not_lt] at inside
    split
    · next code failed =>
      refine iff_of_false ?_ ?_
      · have refused : ∀ certs code, readChain now certs = .error code → code ≠ tlsOk := by
          intro certs
          induction certs with
          | nil => exact fun code never => by cases never
          | cons der rest inductionHypothesis =>
            intro code fails
            rw [readChain] at fails
            split at fails
            · obtain rfl := Except.error.inj fails
              decide
            · split at fails
              · obtain rfl := Except.error.inj fails
                decide
              · split at fails
                · next other later =>
                  obtain rfl := Except.error.inj fails
                  exact inductionHypothesis _ later
                · cases fails
        exact refused certs code failed
      · rintro ⟨checked, -⟩
        obtain ⟨pairs, reads⟩ := readChain_of_valid checked.valid
        have never := failed.symm.trans reads
        cases never
    · next empty =>
      obtain ⟨same, -⟩ := readChain_ok empty
      rw [← same] at inside
      exact absurd inside.1 (by decide)
    · next der leaf rest reads =>
      obtain ⟨same, all⟩ := readChain_ok reads
      have first : certs.getD 0 [] = der := by
        rw [← same]
        rfl
      have parses := (all _ List.mem_cons_self).1
      split
      · next other =>
        refine iff_of_false (show tlsErrVerify ≠ tlsOk by decide) ?_
        rintro ⟨checked, -⟩
        obtain ⟨named, again, matches'⟩ := checked.named
        rw [first] at again
        obtain rfl := Option.some.inj (parses.symm.trans again)
        exact absurd (other.symm.trans matches') (by decide)
      · next named =>
        have walk : walkChain crypto beyond roots ((der, leaf) :: rest) = tlsOk ↔ _ :=
          walkChain_ok fun pair member => (all pair member).1
        rw [same] at walk
        refine walk.trans ⟨fun stops => ⟨⟨inside, fun other member => ?_,
          leaf, first ▸ parses, Bool.not_eq_false _ ▸ named⟩, stops⟩, And.right⟩
        rw [← same] at member
        obtain ⟨pair, belongs, rfl⟩ := List.mem_map.mp member
        exact ⟨pair.2, all pair belongs⟩

/-! ### The law -/

/-- What is accepted is sound when it is plain. -/
theorem chainSound_iff_chainPlain {stop : Nat} (checked : Checked certs host now)
    (stops : Stops crypto beyond roots certs stop) :
    ChainSound crypto roots certs host now ↔ ChainPlain crypto roots certs now stop := by
  have times : (∀ der ∈ certs, InsideValidity now der) ↔ ∀ der ∈ certs, TimesPlain now der :=
    forall₂_congr fun der member => by
      obtain ⟨cert, parses, valid⟩ := checked.valid der member
      exact insideValidity_iff parses valid
  have links (index : Nat) (below : index < stop) :
      Link crypto (certs.getD index []) (certs.getD (index + 1) []) ↔
        LinkPlain (certs.getD index []) (certs.getD (index + 1) []) := by
    obtain ⟨issuer, parses, accepted⟩ := stops.signed index below
    exact link_iff accepted parses
  constructor
  · rintro ⟨-, valid, -, top, inside, anchored, path⟩
    exact ⟨times.mp valid, top, inside, anchored, fun index below =>
      ⟨fun walked => (links index walked).mp (path index below), fun _ => path index below⟩⟩
  · rintro ⟨plain, top, inside, anchored, path⟩
    refine ⟨fun der member => ?_, times.mpr plain, checked.named, top, inside, anchored,
      fun index below => ?_⟩
    · obtain ⟨cert, parses, -⟩ := checked.valid der member
      rw [parses]
      exact Option.some_ne_none cert
    · rcases Nat.lt_or_ge index stop with walked | behind
      · exact (links index walked).mpr ((path index below).1 walked)
      · exact (path index below).2 behind

/-- A certificate for the key of an anchor named "root", valid from 2020 to 2040, with the serial
number and the extensions that are given. Its signature is empty. -/
def rootNamed (serial length inner : UInt8) (extensions : Bytes) : Bytes :=
  let alg : Bytes := [0x30, 10] ++ [0x06, 8] ++ oidEcdsaSha256
  let name : Bytes :=
    [0x30, 15, 0x31, 13, 0x30, 11, 0x06, 3] ++ oidCommonName ++ [0x0c, 4, 0x72, 0x6f, 0x6f, 0x74]
  let validity : Bytes := [0x30, 30] ++
    [0x17, 13, 0x32, 0x30, 0x30, 0x31, 0x30, 0x31, 0x30, 0x30, 0x30, 0x30, 0x30, 0x30, 0x5a] ++
    [0x17, 13, 0x34, 0x30, 0x30, 0x31, 0x30, 0x31, 0x30, 0x30, 0x30, 0x30, 0x30, 0x30, 0x5a]
  let key : Bytes := [0x30, 89, 0x30, 19, 0x06, 7] ++ oidEcPublicKey ++ [0x06, 8] ++ oidEcP256 ++
    [0x03, 66, 0, 4] ++ (List.range 64).map UInt8.ofNat
  [0x30, 0x81, length, 0x30, 0x81, inner, 0x02, 1, serial] ++ alg ++ name ++ validity ++ name ++
    key ++ extensions ++ alg ++ [0x03, 1, 0]

/-- The anchor of the store, and an unsigned certificate of its name and key for the host
"bank". -/
def storeAnchor : Bytes := rootNamed 1 0xbe 0xac []
def bankClone : Bytes := rootNamed 2 0xd3 0xc1 ([0xa3, 19, 0x30, 17, 0x30, 15, 0x06, 3] ++ oidSan ++
  [0x04, 8, 0x30, 6, 0x82, 4, 0x62, 0x61, 0x6e, 0x6b])
def bankHost : Bytes := [0x62, 0x61, 0x6e, 0x6b]

theorem bankClone_reads :
    (match x509Parse bankClone with
      | none => false
      | some cert => timeValid cert 1700000000 && matchHost cert bankHost &&
          isAnchor [storeAnchor] bankClone cert) = true := by decide +kernel

theorem bankClone_differs : bankClone ∉ [storeAnchor] := by decide +kernel

end MectovOS.Tls
