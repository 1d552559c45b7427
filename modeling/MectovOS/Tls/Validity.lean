/-
This file proves when the client reads the validity of a certificate right: when
`tls_x509_parse` takes the two times exactly if they denote instants of UTC, and
when the comparison of `tls_x509_time_valid` with the clock of `now_unix` is the
comparison of the instants. The fields of a GeneralizedTime are read two bytes
too late, so none is ever taken; and the seconds are kept modulo `2 ^ 32`.
-/

import MectovOS.Tls.CertificateRead

namespace MectovOS.Tls

/-! ### The clock -/

/-- `rtc_time_t`, a time of the calendar; `rtc_decode_regs` gives no year below 1000. -/
structure RtcTime where
  year : Nat
  civil : Civil
  some : 1 ≤ year
  small : year < 2 ^ 32
  inRange : civil.inRange year = true

/-- The days from 1970 on, as `now_unix` spells them out once more. -/
def nowDays (year month day : Nat) : Nat :=
  let y := wrap32 ((year : Int) - if month < 3 then 1 else 0)
  let era := y / 400
  let yoe := y - era * 400
  let doy := (153 * (if 2 < month then month - 3 else month + 9) + 2) / 5 + day - 1
  let doe := yoe * 365 + yoe / 4 - yoe / 100 + doy
  wrap32 ((era : Int) * 146097 + doe - 719468)

/-- `now_unix` -/
def nowUnix (clock : RtcTime) : BitVec 32 :=
  BitVec.ofNat 32 (wrap32 ((nowDays clock.year clock.civil.month clock.civil.day : Int) * 86400 +
    clock.civil.hour * 3600 + clock.civil.min * 60 + clock.civil.sec))

/-- The instant of a clock, in seconds from 1970 on. -/
def RtcTime.instant (clock : RtcTime) : Int := civilTime clock.year clock.civil

theorem nowDays_eq (year month day : Nat) :
    nowDays year month day = daysFromCivil year month day := by
  unfold nowDays daysFromCivil
  simp only [Nat.lt_succ_iff]

/-- The clock of the client is the instant, as 32 bits hold it. -/
theorem nowUnix_mod (clock : RtcTime) :
    ((nowUnix clock).toNat : Int) = clock.instant % 2 ^ 32 := by
  have days := daysFromCivil_mod clock.some clock.small clock.inRange
  have instant : clock.instant = civilDays clock.year clock.civil * 86400 +
      clock.civil.hour * 3600 + clock.civil.min * 60 + clock.civil.sec := rfl
  rw [nowUnix, nowDays_eq, BitVec.toNat_ofNat]
  have wraps := cast_wrap32 ((daysFromCivil clock.year clock.civil.month clock.civil.day : Int) *
    86400 + clock.civil.hour * 3600 + clock.civil.min * 60 + clock.civil.sec)
  rw [days] at wraps ⊢
  rw [instant]
  omega

/-! ### Instants -/

/-- A second 60 is a leap second only at the end of a month, in UTC. -/
def leapPlaced (year : Nat) (civil : Civil) : Bool :=
  let days := if civil.month = 2 ∧ isLeap year then 29 else monthDays.getD (civil.month - 1) 0
  decide (civil.sec ≤ 59 ∨ (civil.hour = 23 ∧ civil.min = 59 ∧ civil.day = days))

/-- The instant of the fields from an offset on. -/
def realCivil (body : Bytes) (offset year : Nat) : Option Int :=
  match readCivil body offset with
  | none => none
  | some civil =>
    if civil.inRange year && leapPlaced year civil then some (civilTime year civil) else none

/-- The instant of UTC that a UTCTime or a GeneralizedTime denotes. -/
def realTime (time : DerTlv) : Option Int :=
  if time.tag = 0x17 then
    if time.body.length ≠ 13 ∨ time.body.getD 12 0 ≠ 0x5a then none
    else (two time.body 0).bind fun yy => realCivil time.body 2 (utcYear yy)
  else if time.tag = 0x18 then
    if time.body.length ≠ 15 ∨ time.body.getD 14 0 ≠ 0x5a then none
    else (two time.body 0).bind fun hi => (two time.body 2).bind fun lo =>
      realCivil time.body 4 (hi * 100 + lo)
  else none

theorem realCivil_named {body : Bytes} {offset year : Nat} {instant : Int}
    (real : realCivil body offset year = some instant) :
    namedCivil body offset year = some instant := by
  unfold realCivil at real
  unfold namedCivil
  cases fields : readCivil body offset with
  | none =>
    rw [fields] at real
    cases real
  | some civil =>
    rw [fields] at real
    dsimp only at real ⊢
    split at real
    · next both =>
      rw [if_pos (Bool.and_eq_true _ _ ▸ both).1]
      exact real
    · cases real

/-- An encoding that denotes an instant names it. -/
theorem realTime_named {time : DerTlv} {instant : Int} (real : realTime time = some instant) :
    namedTime time = some instant := by
  unfold realTime at real
  unfold namedTime
  split at real
  · next utc =>
    rw [if_pos utc]
    split at real
    · cases real
    · next form =>
      rw [if_neg form]
      obtain ⟨yy, year, real⟩ := Option.bind_eq_some_iff.mp real
      exact Option.bind_eq_some_iff.mpr ⟨yy, year, realCivil_named real⟩
  · next other =>
    rw [if_neg other]
    split at real
    · next generalized =>
      rw [if_pos generalized]
      split at real
      · cases real
      · next form =>
        rw [if_neg form]
        obtain ⟨hi, high, real⟩ := Option.bind_eq_some_iff.mp real
        obtain ⟨lo, low, real⟩ := Option.bind_eq_some_iff.mp real
        exact Option.bind_eq_some_iff.mpr
          ⟨hi, high, Option.bind_eq_some_iff.mpr ⟨lo, low, realCivil_named real⟩⟩
    · cases real

/-- The client takes exactly the UTCTimes whose fields are in range. -/
theorem asn1Time_isSome (time : DerTlv) :
    (asn1Time time).isSome = true ↔ time.tag = 0x17 ∧ (namedTime time).isSome = true := by
  constructor
  · intro taken
    obtain ⟨value, reads⟩ := Option.isSome_iff_exists.mp taken
    obtain ⟨named, names, -⟩ := asn1Time_read reads
    exact ⟨asn1Time_utc reads, Option.isSome_iff_exists.mpr ⟨named, names⟩⟩
  · rintro ⟨utc, names⟩
    obtain ⟨named, names⟩ := Option.isSome_iff_exists.mp names
    unfold namedTime at names
    unfold asn1Time
    rw [if_pos utc] at names ⊢
    split at names
    · cases names
    · next form =>
      rw [if_neg form]
      obtain ⟨yy, year, names⟩ := Option.bind_eq_some_iff.mp names
      unfold namedCivil at names
      split at names
      · cases names
      · next civil fields =>
        split at names
        · next inRange =>
          obtain ⟨value, reads⟩ : ∃ value, civilSeconds (utcYear yy) civil = some value :=
            ⟨_, if_pos inRange⟩
          exact Option.isSome_iff_exists.mpr ⟨value, Option.bind_eq_some_iff.mpr
            ⟨yy, year, Option.bind_eq_some_iff.mpr ⟨civil, fields, reads⟩⟩⟩
        · cases names

/-! ### Certificates with two times -/

/-- A certificate is in order but for its two times, which are these. -/
def Carries (der : Bytes) (before after : DerTlv) : Prop :=
  ∃ parts fields, readCertificate der = some parts ∧ parts.inside = [] ∧ parts.behind = [] ∧
    tbsFields parts.tbs = some fields ∧ validityTimes fields.validity = some (before, after)

/-- Such a certificate parses exactly when its two times are taken. -/
theorem x509Parse_carries {der : Bytes} {before after : DerTlv} (carries : Carries der before after)
    {cert : Cert} :
    x509Parse der = some cert → asn1Time before = some cert.notBefore ∧
      asn1Time after = some cert.notAfter := by
  obtain ⟨parts, fields, read, -, -, tbs, times⟩ := carries
  intro parses
  obtain ⟨parsed⟩ := x509Parse_parsed parses
  obtain rfl := Option.some.inj (read.symm.trans parsed.read)
  obtain rfl := Option.some.inj (tbs.symm.trans parsed.tbs)
  obtain ⟨rfl, rfl⟩ := Prod.mk.inj (Option.some.inj (times.symm.trans parsed.validity))
  exact ⟨parsed.notBefore, parsed.notAfter⟩

theorem x509Parse_isSome {der : Bytes} {before after : DerTlv}
    (carries : Carries der before after) :
    (x509Parse der).isSome = true ↔
      (asn1Time before).isSome = true ∧ (asn1Time after).isSome = true := by
  constructor
  · intro parses
    obtain ⟨cert, parses⟩ := Option.isSome_iff_exists.mp parses
    obtain ⟨early, late⟩ := x509Parse_carries carries parses
    exact ⟨Option.isSome_iff_exists.mpr ⟨_, early⟩, Option.isSome_iff_exists.mpr ⟨_, late⟩⟩
  · rintro ⟨early, late⟩
    obtain ⟨notBefore, early⟩ := Option.isSome_iff_exists.mp early
    obtain ⟨notAfter, late⟩ := Option.isSome_iff_exists.mp late
    obtain ⟨parts, fields, read, inside, behind, tbs, times⟩ := carries
    refine Option.isSome_iff_exists.mpr ⟨certOf fields notBefore notAfter, ?_⟩
    unfold x509Parse
    refine Option.bind_eq_some_iff.mpr ⟨parts, read, ?_⟩
    rw [if_neg (not_or.mpr ⟨not_not.mpr inside, not_not.mpr behind⟩)]
    exact Option.bind_eq_some_iff.mpr ⟨fields, tbs, Option.bind_eq_some_iff.mpr
      ⟨(before, after), times, Option.bind_eq_some_iff.mpr ⟨notBefore, early,
        Option.bind_eq_some_iff.mpr ⟨notAfter, late, rfl⟩⟩⟩⟩

/-! ### Right readings -/

/-- The validity of a certificate is read right by a clock: the certificate parses exactly when its
times denote instants, and then it passes for valid exactly when the clock lies between them. -/
structure ValidityRight (der : Bytes) (before after : DerTlv) (clock : RtcTime) : Prop where
  parses : (x509Parse der).isSome = true ↔
    (realTime before).isSome = true ∧ (realTime after).isSome = true
  compares : ∀ cert notBefore notAfter, x509Parse der = some cert →
    realTime before = some notBefore → realTime after = some notAfter →
      (timeValid cert (nowUnix clock) = true ↔
        notBefore ≤ clock.instant ∧ clock.instant ≤ notAfter)

/-- Two times are read right: if both denote instants they are UTCTimes, and if both are UTCTimes
with fields in range they denote instants. -/
def TimesReadable (before after : DerTlv) : Prop :=
  ((realTime before).isSome = true → (realTime after).isSome = true →
      before.tag = 0x17 ∧ after.tag = 0x17) ∧
    (before.tag = 0x17 → (namedTime before).isSome = true → after.tag = 0x17 →
      (namedTime after).isSome = true →
        (realTime before).isSome = true ∧ (realTime after).isSome = true)

/-- A clock compares with two instants as its remainder does with theirs: where it lies between
them, they lie on one side of 1970; where it does not, they are not both the start of 1970, and its
remainder does not lie between theirs. -/
def Comparable (notBefore now notAfter : Int) : Prop :=
  (notBefore ≤ now → now ≤ notAfter → 0 ≤ notBefore ∨ notAfter < 0) ∧
    (now < notBefore ∨ notAfter < now → ¬ (notBefore = 0 ∧ notAfter = 0) ∧
      ¬ (notBefore % 2 ^ 32 ≤ now % 2 ^ 32 ∧ now % 2 ^ 32 ≤ notAfter % 2 ^ 32))

/-- What the comparison of 32-bit seconds is worth. -/
theorem comparable_iff {notBefore now notAfter : Int} {early late clock : Nat}
    (readEarly : TimeRead early notBefore) (readLate : TimeRead late notAfter)
    (wrapped : (clock : Int) = now % 2 ^ 32) :
    ((early = 0 ∧ late = 0 ∨ early ≤ clock ∧ clock ≤ late) ↔ notBefore ≤ now ∧ now ≤ notAfter) ↔
      Comparable notBefore now notAfter := by
  obtain ⟨wrapEarly, lowEarly, highEarly⟩ := readEarly
  obtain ⟨wrapLate, lowLate, highLate⟩ := readLate
  unfold Comparable
  rw [← wrapEarly, ← wrapLate, ← wrapped]
  by_cases inside : notBefore ≤ now ∧ now ≤ notAfter
  · have taken : (early = 0 ∧ late = 0 ∨ early ≤ clock ∧ clock ≤ late) ↔
        (0 ≤ notBefore ∨ notAfter < 0) := by omega
    rw [taken]
    constructor
    · exact fun same => ⟨fun _ _ => same.mpr inside, fun out => absurd inside (by omega)⟩
    · exact fun cond => ⟨fun _ => inside, fun _ => cond.1 inside.1 inside.2⟩
  · have zero : (early = 0 ∧ late = 0) ↔ (notBefore = 0 ∧ notAfter = 0) := by omega
    rw [zero]
    constructor
    · refine fun same => ⟨fun since till => absurd ⟨since, till⟩ inside, fun _ => ⟨?_, ?_⟩⟩
      · exact fun epoch => inside (same.mp (Or.inl epoch))
      · exact fun between => inside (same.mp (Or.inr (by omega)))
    · intro cond
      obtain ⟨epoch, between⟩ := cond.2 (by omega)
      refine ⟨fun taken => ?_, fun both => absurd both inside⟩
      rcases taken with zero | between'
      · exact absurd zero epoch
      · exact absurd (by omega) between

/-- The validity of a certificate is read right exactly when its two times are read right and,
where the certificate parses, the clock compares with them. -/
theorem validityRight_iff {der : Bytes} {before after : DerTlv}
    (carries : Carries der before after) (clock : RtcTime) :
    ValidityRight der before after clock ↔ TimesReadable before after ∧
      ∀ notBefore notAfter, before.tag = 0x17 → after.tag = 0x17 →
        realTime before = some notBefore → realTime after = some notAfter →
          Comparable notBefore clock.instant notAfter := by
  have accepts := x509Parse_isSome carries
  rw [asn1Time_isSome, asn1Time_isSome] at accepts
  have named : ∀ time : DerTlv, (realTime time).isSome = true →
      (namedTime time).isSome = true := by
    intro time real
    obtain ⟨instant, real⟩ := Option.isSome_iff_exists.mp real
    exact Option.isSome_iff_exists.mpr ⟨instant, realTime_named real⟩
  have compare : ∀ cert notBefore notAfter, x509Parse der = some cert →
      realTime before = some notBefore → realTime after = some notAfter →
        ((timeValid cert (nowUnix clock) = true ↔
          notBefore ≤ clock.instant ∧ clock.instant ≤ notAfter) ↔
            Comparable notBefore clock.instant notAfter) := by
    intro cert notBefore notAfter parses early late
    obtain ⟨readsEarly, readsLate⟩ := x509Parse_carries carries parses
    obtain ⟨_, nameEarly, readEarly⟩ := asn1Time_read readsEarly
    obtain ⟨_, nameLate, readLate⟩ := asn1Time_read readsLate
    obtain rfl := Option.some.inj (nameEarly.symm.trans (realTime_named early))
    obtain rfl := Option.some.inj (nameLate.symm.trans (realTime_named late))
    rw [← comparable_iff readEarly readLate (nowUnix_mod clock)]
    have valid : timeValid cert (nowUnix clock) = true ↔
        (cert.notBefore = 0 ∧ cert.notAfter = 0 ∨
          cert.notBefore ≤ (nowUnix clock).toNat ∧ (nowUnix clock).toNat ≤ cert.notAfter) := by
      unfold timeValid
      split
      · next zero => exact ⟨fun _ => Or.inl zero, fun _ => rfl⟩
      · next other =>
        rw [decide_eq_true_iff]
        exact ⟨Or.inr, fun both => both.resolve_left other⟩
    rw [valid]
  constructor
  · rintro ⟨parses, compares⟩
    rw [accepts] at parses
    refine ⟨⟨fun early late => ?_, fun utc early utc' late => ?_⟩, ?_⟩
    · obtain ⟨⟨utc, -⟩, utc', -⟩ := parses.mpr ⟨early, late⟩
      exact ⟨utc, utc'⟩
    · exact parses.mp ⟨⟨utc, early⟩, utc', late⟩
    · intro notBefore notAfter utc utc' early late
      have real : (realTime before).isSome = true ∧ (realTime after).isSome = true :=
        ⟨Option.isSome_iff_exists.mpr ⟨_, early⟩, Option.isSome_iff_exists.mpr ⟨_, late⟩⟩
      obtain ⟨cert, parsed⟩ := Option.isSome_iff_exists.mp (accepts.mpr (parses.mpr real))
      exact (compare cert _ _ parsed early late).mp (compares cert _ _ parsed early late)
  · rintro ⟨⟨utcs, reals⟩, comparable⟩
    refine ⟨?_, fun cert notBefore notAfter parsed early late => ?_⟩
    · rw [accepts]
      constructor
      · rintro ⟨⟨utc, early⟩, utc', late⟩
        exact reals utc early utc' late
      · rintro ⟨early, late⟩
        obtain ⟨utc, utc'⟩ := utcs early late
        exact ⟨⟨utc, named _ early⟩, utc', named _ late⟩
    · obtain ⟨⟨utc, -⟩, utc', -⟩ := accepts.mp (Option.isSome_iff_exists.mpr ⟨cert, parsed⟩)
      exact (compare cert _ _ parsed early late).mpr
        (comparable _ _ utc utc' early late)

/-! ### Two certificates -/

/-- A certificate with nothing but a serial number and two times. -/
def certificateWith (before after : Bytes) : Bytes :=
  let validity := before ++ after
  let tbs := [0x02, 1, 1, 0x30, 0, 0x30, 0, 0x30, UInt8.ofNat validity.length] ++ validity ++
    [0x30, 0, 0x30, 0]
  [0x30, UInt8.ofNat (tbs.length + 7), 0x30, UInt8.ofNat tbs.length] ++ tbs ++ [0x30, 0, 0x03, 1, 0]

/-- The digits of a text. -/
def digits (text : List Nat) : Bytes := text.map fun digit => UInt8.ofNat (48 + digit)

/-- The UTCTime 250101000000Z. -/
def newYear2025 : Bytes := digits [2, 5, 0, 1, 0, 1, 0, 0, 0, 0, 0, 0] ++ [0x5a]

/-- The UTCTime 491231235959Z. -/
def endOf2049 : Bytes := digits [4, 9, 1, 2, 3, 1, 2, 3, 5, 9, 5, 9] ++ [0x5a]

/-- The GeneralizedTime 20500101000000Z. -/
def newYear2050 : Bytes := digits [2, 0, 5, 0, 0, 1, 0, 1, 0, 0, 0, 0, 0, 0] ++ [0x5a]

/-- A clock at the start of May 2026. -/
def may2026 : RtcTime := ⟨2026, ⟨5, 1, 0, 0, 0⟩, by decide, by decide, by decide⟩

/-- A certificate for 2025 to 2049 is read right in 2026. -/
theorem validityRight_2025 :
    ValidityRight (certificateWith ([0x17, 13] ++ newYear2025) ([0x17, 13] ++ endOf2049))
      ⟨0x17, [0x17, 13], newYear2025⟩ ⟨0x17, [0x17, 13], endOf2049⟩ may2026 := by
  refine (validityRight_iff ⟨_, _, rfl, rfl, rfl, rfl, rfl⟩ may2026).mpr ⟨?_, ?_⟩
  · exact ⟨fun _ _ => ⟨rfl, rfl⟩, fun _ _ _ _ => ⟨by decide, by decide⟩⟩
  · intro notBefore notAfter _ _ early late
    have isEarly : realTime ⟨0x17, [0x17, 13], newYear2025⟩ = some 1735689600 := by decide
    have isLate : realTime ⟨0x17, [0x17, 13], endOf2049⟩ = some 2524607999 := by decide
    obtain rfl := Option.some.inj (isEarly.symm.trans early)
    obtain rfl := Option.some.inj (isLate.symm.trans late)
    have now : may2026.instant = 1777593600 := by decide
    rw [now]
    unfold Comparable
    omega

/-- A certificate that runs into 2050 does not parse. -/
theorem validityRight_2050 :
    ¬ ∀ (der : Bytes) (before after : DerTlv) (clock : RtcTime),
      Carries der before after → ValidityRight der before after clock := by
  intro all
  have right := all (certificateWith ([0x17, 13] ++ newYear2025) ([0x18, 15] ++ newYear2050))
    ⟨0x17, [0x17, 13], newYear2025⟩ ⟨0x18, [0x18, 15], newYear2050⟩ may2026
    ⟨_, _, rfl, rfl, rfl, rfl, rfl⟩
  have real : (realTime ⟨0x17, [0x17, 13], newYear2025⟩).isSome = true ∧
      (realTime ⟨0x18, [0x18, 15], newYear2050⟩).isSome = true := by decide
  exact absurd (right.parses.mpr real) (by decide)

end MectovOS.Tls
