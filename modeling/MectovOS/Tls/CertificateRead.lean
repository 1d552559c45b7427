/-
This file proves what the parser of src/apps/lib/tls/asn1_x509.c has read when it
accepts a certificate: its times as 32 bits hold them, its extensions up to the
first element that is none, and its algorithms.
-/

import Mathlib.Tactic.NormNum
import Mathlib.Tactic.Zify
import MectovOS.Tls.ChainSound

namespace MectovOS.Tls

/-! ### Times -/

theorem cast_wrap32 (value : Int) : (wrap32 value : Int) = value % 2 ^ 32 := by
  unfold wrap32
  exact Int.toNat_of_nonneg (Int.emod_nonneg _ (by norm_num))

theorem isLeap_iff (year : Nat) :
    isLeap year = true ↔ (year % 4 = 0 ∧ year % 100 ≠ 0) ∨ year % 400 = 0 := by
  unfold isLeap
  rw [Bool.or_eq_true, Bool.and_eq_true, beq_iff_eq, beq_iff_eq, bne_iff_ne]

theorem two_lt {bytes : Bytes} {offset value : Nat} (reads : two bytes offset = some value) :
    value < 100 := by
  unfold two at reads
  dsimp only at reads
  split at reads
  · cases reads
  · next digits =>
    obtain rfl := Option.some.inj reads
    omega

/-- The days from 1970 on to a day of the calendar. -/
def civilDays (year : Nat) (civil : Civil) : Int :=
  daysBefore year civil.month - daysBefore 1970 1 + civil.day - 1

theorem civil_ranges {civil : Civil} {year : Nat} (inRange : civil.inRange year = true) :
    1 ≤ civil.month ∧ civil.month ≤ 12 ∧ 1 ≤ civil.day ∧ civil.hour ≤ 23 ∧ civil.min ≤ 59 ∧
      civil.sec ≤ 60 ∧ civil.day ≤ 31 := by
  unfold Civil.inRange at inRange
  dsimp only at inRange
  obtain ⟨first, last, day, hour, min, sec, length⟩ := decide_eq_true_iff.mp inRange
  refine ⟨first, last, day, hour, min, sec, length.trans ?_⟩
  split
  · decide
  · have months : ∀ index < 12, monthDays.getD index 0 ≤ 31 := by decide
    exact months _ (by omega)

/-- The days in front of a month, by the formula of the code. -/
theorem monthDays_sum : ∀ month < 13, 1 ≤ month →
    (monthDays.take (month - 1)).sum + (if 2 < month then 0 else 306) =
      (153 * (if 2 < month then month - 3 else month + 9) + 2) / 5 +
        if 2 < month then 59 else 0 := by decide

/-- The days in front of a year of the code, which starts in March. -/
theorem eraDays (y : Nat) :
    y / 400 * 146097 + ((y - y / 400 * 400) * 365 + (y - y / 400 * 400) / 4 -
      (y - y / 400 * 400) / 100) = 365 * y + y / 4 - y / 100 + y / 400 := by
  omega

/-- A leap year adds its day to the days in front of it. -/
theorem leapDays (year : Nat) :
    (year : Int) / 4 - (year : Int) / 100 + (year : Int) / 400 =
      ((year : Int) - 1) / 4 - ((year : Int) - 1) / 100 + ((year : Int) - 1) / 400 +
        if isLeap year then 1 else 0 := by
  by_cases leaps : isLeap year = true
  · have leap := (isLeap_iff year).mp leaps
    rw [if_pos leaps]
    omega
  · have leap := (not_congr (isLeap_iff year)).mp leaps
    rw [if_neg leaps]
    omega

/-- The days of the code, for a year that starts in March. -/
theorem daysFromCivil_march {year month day y : Nat} (one : 1 ≤ day)
    (is : wrap32 ((year : Int) - if month ≤ 2 then 1 else 0) = y) :
    (daysFromCivil year month day : Int) =
      ((365 * y + y / 4 - y / 100 + y / 400 : Nat) +
        (((153 * (if 2 < month then month - 3 else month + 9) + 2) / 5 : Nat) : Int) + day - 1 -
          719468) % 2 ^ 32 := by
  unfold daysFromCivil
  rw [is, cast_wrap32, ← eraDays y]
  refine congrArg (· % (2 ^ 32 : Int)) ?_
  generalize (153 * (if 2 < month then month - 3 else month + 9) + 2) / 5 = days
  generalize y / 400 = era
  generalize (y - era * 400) * 365 + (y - era * 400) / 4 - (y - era * 400) / 100 = within
  push_cast
  omega

/-- The days of the code are the days of the calendar, as 32 bits hold them. -/
theorem daysFromCivil_mod {year : Nat} {civil : Civil} (some : 1 ≤ year) (small : year < 2 ^ 32)
    (inRange : civil.inRange year = true) :
    (daysFromCivil year civil.month civil.day : Int) = civilDays year civil % 2 ^ 32 := by
  obtain ⟨month, day, hour, min, sec⟩ := civil
  obtain ⟨first, last, one, -, -, -, month31⟩ := civil_ranges inRange
  dsimp only at first last one month31 ⊢
  have sum := monthDays_sum month (by omega) first
  have leap := leapDays year
  have start : daysBefore 1970 1 = 719162 := by decide
  unfold civilDays
  rw [start]
  unfold daysBefore
  generalize (monthDays.take (month - 1)).sum = days at sum ⊢
  by_cases march : 2 < month
  · have y : wrap32 ((year : Int) - if month ≤ 2 then 1 else 0) = year := by
      have cast := cast_wrap32 ((year : Int) - if month ≤ 2 then 1 else 0)
      rw [if_neg (by omega)] at cast ⊢
      omega
    rw [daysFromCivil_march one y]
    simp only [march, if_true, true_and] at sum ⊢
    generalize (if isLeap year = true then (1 : Int) else 0) = extra at leap ⊢
    refine congrArg (· % (2 ^ 32 : Int)) ?_
    omega
  · have y : wrap32 ((year : Int) - if month ≤ 2 then 1 else 0) = year - 1 := by
      have cast := cast_wrap32 ((year : Int) - if month ≤ 2 then 1 else 0)
      rw [if_pos (by omega)] at cast ⊢
      omega
    rw [daysFromCivil_march one y]
    simp only [march, if_false, false_and] at sum ⊢
    refine congrArg (· % (2 ^ 32 : Int)) ?_
    omega

/-- The days in front of a month fit in a year. -/
theorem monthDays_fit : ∀ month < 13, 1 ≤ month →
    (monthDays.take (month - 1)).sum ≤ 334 := by decide

/-- Between 1950 and 2049 the days of the code are the days of the calendar, as 32 bits hold
them. -/
theorem daysFromCivil_eq {year : Nat} {civil : Civil} (early : 1950 ≤ year) (late : year ≤ 2049)
    (inRange : civil.inRange year = true) :
    (daysFromCivil year civil.month civil.day : Int) = civilDays year civil % 2 ^ 32 ∧
      -7305 ≤ civilDays year civil ∧ civilDays year civil ≤ 29250 := by
  refine ⟨daysFromCivil_mod (by omega) (by omega) inRange, ?_⟩
  obtain ⟨month, day, hour, min, sec⟩ := civil
  obtain ⟨first, last, one, -, -, -, month31⟩ := civil_ranges inRange
  dsimp only at first last one month31 ⊢
  have fit := monthDays_fit month (by omega) first
  have start : daysBefore 1970 1 = 719162 := by decide
  unfold civilDays
  rw [start]
  unfold daysBefore
  dsimp only
  generalize (monthDays.take (month - 1)).sum = days at fit ⊢
  split
  · omega
  · omega

/-- A time that the client reads is the time that is named, as 32 bits hold it. -/
structure TimeRead (value : Nat) (named : Int) : Prop where
  wrapped : (value : Int) = named % 2 ^ 32
  early : -631152000 ≤ named
  late : named ≤ 2 ^ 32 - 631152001

theorem civilSeconds_read {year : Nat} {civil : Civil} {value : Nat} (early : 1950 ≤ year)
    (late : year ≤ 2049) (reads : civilSeconds year civil = some value) :
    civil.inRange year = true ∧ TimeRead value (civilTime year civil) := by
  unfold civilSeconds at reads
  split at reads
  · next inRange =>
    obtain rfl := Option.some.inj reads
    obtain ⟨days, first, last⟩ := daysFromCivil_eq early late inRange
    obtain ⟨-, -, -, hour, min, sec, -⟩ := civil_ranges inRange
    have time : civilTime year civil = civilDays year civil * 86400 + civil.hour * 3600 +
        civil.min * 60 + civil.sec := rfl
    refine ⟨inRange, ⟨?_, ?_, ?_⟩⟩
    · rw [cast_wrap32, days, time]
      omega
    · rw [time]
      omega
    · rw [time]
      omega
  · cases reads

/-- No GeneralizedTime is read: what is taken for its seconds starts with the `Z`. -/
theorem asn1Time_utc {time : DerTlv} {value : Nat} (reads : asn1Time time = some value) :
    time.tag = 0x17 := by
  unfold asn1Time at reads
  split at reads
  · next utc => exact utc
  · split at reads
    · split at reads
      · cases reads
      · next form =>
        obtain ⟨hi, -, reads⟩ := Option.bind_eq_some_iff.mp reads
        obtain ⟨lo, -, reads⟩ := Option.bind_eq_some_iff.mp reads
        obtain ⟨civil, fields, -⟩ := Option.bind_eq_some_iff.mp reads
        have zone : byteAt time.body 14 = 90 := by
          unfold byteAt
          rw [not_or, not_not, not_not] at form
          rw [form.2]
          rfl
        have sec : two time.body 14 = none := by
          unfold two
          dsimp only
          rw [zone]
          exact if_pos (by omega)
        unfold readCivil at fields
        obtain ⟨_, -, fields⟩ := Option.bind_eq_some_iff.mp fields
        obtain ⟨_, -, fields⟩ := Option.bind_eq_some_iff.mp fields
        obtain ⟨_, -, fields⟩ := Option.bind_eq_some_iff.mp fields
        obtain ⟨_, -, fields⟩ := Option.bind_eq_some_iff.mp fields
        obtain ⟨_, last, -⟩ := Option.bind_eq_some_iff.mp fields
        exact absurd (sec.symm.trans last) (Option.some_ne_none _).symm
    · cases reads

/-- The client reads the UTCTimes, and no other time. -/
theorem asn1Time_read {time : DerTlv} {value : Nat} (reads : asn1Time time = some value) :
    ∃ named, namedTime time = some named ∧ TimeRead value named := by
  have utc := asn1Time_utc reads
  unfold asn1Time at reads
  rw [if_pos utc] at reads
  split at reads
  · cases reads
  · next form =>
    obtain ⟨yy, year, reads⟩ := Option.bind_eq_some_iff.mp reads
    obtain ⟨civil, fields, reads⟩ := Option.bind_eq_some_iff.mp reads
    have small := two_lt year
    have early : 1950 ≤ utcYear yy := by
      unfold utcYear
      split <;> omega
    have late : utcYear yy ≤ 2049 := by
      unfold utcYear
      split <;> omega
    obtain ⟨inRange, read⟩ := civilSeconds_read early late reads
    refine ⟨civilTime (utcYear yy) civil, ?_, read⟩
    unfold namedTime namedCivil
    rw [if_pos utc, if_neg form, year, Option.bind_some, fields]
    exact if_pos inRange

/-! ### A parsed certificate -/

/-- What a certificate that parses is made of. -/
structure Parsed (der : Bytes) (cert : Cert) where
  parts : SignedParts
  fields : TbsFields
  before : DerTlv
  after : DerTlv
  read : readCertificate der = some parts
  tbs : tbsFields parts.tbs = some fields
  validity : validityTimes fields.validity = some (before, after)
  notBefore : asn1Time before = some cert.notBefore
  notAfter : asn1Time after = some cert.notAfter
  is : cert = certOf fields cert.notBefore cert.notAfter

theorem x509Parse_parsed {der : Bytes} {cert : Cert} (parses : x509Parse der = some cert) :
    Nonempty (Parsed der cert) := by
  unfold x509Parse at parses
  obtain ⟨parts, read, parses⟩ := Option.bind_eq_some_iff.mp parses
  split at parses
  · cases parses
  · obtain ⟨fields, tbs, parses⟩ := Option.bind_eq_some_iff.mp parses
    obtain ⟨⟨before, after⟩, validity, parses⟩ := Option.bind_eq_some_iff.mp parses
    obtain ⟨notBefore, early, parses⟩ := Option.bind_eq_some_iff.mp parses
    obtain ⟨notAfter, late, parses⟩ := Option.bind_eq_some_iff.mp parses
    obtain rfl := Option.some.inj parses
    exact ⟨⟨parts, fields, before, after, read, tbs, validity, early, late, rfl⟩⟩

theorem Parsed.fields_eq {der : Bytes} {cert : Cert} (parsed : Parsed der cert) :
    certificateFields der = some parsed.fields := by
  unfold certificateFields
  rw [parsed.read, Option.bind_some]
  exact parsed.tbs

/-- A certificate that passes for valid is inside its validity when its times are plain. -/
theorem insideValidity_iff {der : Bytes} {cert : Cert} {now : BitVec 32}
    (parses : x509Parse der = some cert) (valid : timeValid cert now = true) :
    InsideValidity now der ↔ TimesPlain now der := by
  obtain ⟨parsed⟩ := x509Parse_parsed parses
  obtain ⟨early, namedEarly, ⟨wrapEarly, lowEarly, highEarly⟩⟩ := asn1Time_read parsed.notBefore
  obtain ⟨late, namedLate, ⟨wrapLate, lowLate, highLate⟩⟩ := asn1Time_read parsed.notAfter
  have clock : now.toNat < 2 ^ 32 := now.isLt
  have accepted : (cert.notBefore = 0 ∧ cert.notAfter = 0) ∨
      (cert.notBefore ≤ now.toNat ∧ now.toNat ≤ cert.notAfter) := by
    unfold timeValid at valid
    split at valid
    · next zero => exact Or.inl zero
    · exact Or.inr (decide_eq_true_iff.mp valid)
  have arithmetic : (early ≤ (now.toNat : Int) ∧ (now.toNat : Int) ≤ late) ↔
      (0 ≤ late ∧ (early = 0 → late = 0 → now.toNat = 0)) := by
    constructor
    · rintro ⟨since, till⟩
      exact ⟨by omega, fun _ _ => by omega⟩
    · rintro ⟨positive, epoch⟩
      rcases accepted with ⟨zeroEarly, zeroLate⟩ | ⟨since, till⟩
      · have atEpoch := epoch (by omega) (by omega)
        omega
      · omega
  constructor
  · rintro ⟨fields, before, after, notBefore, notAfter, are, times, isBefore, isAfter, since, till⟩
    obtain rfl := Option.some.inj (parsed.fields_eq.symm.trans are)
    obtain ⟨rfl, rfl⟩ := Prod.mk.inj (Option.some.inj (parsed.validity.symm.trans times))
    obtain rfl := Option.some.inj (namedEarly.symm.trans isBefore)
    obtain rfl := Option.some.inj (namedLate.symm.trans isAfter)
    obtain ⟨positive, epoch⟩ := arithmetic.mp ⟨since, till⟩
    exact ⟨_, _, _, _, _, are, times, isBefore, isAfter, positive, epoch⟩
  · rintro ⟨fields, before, after, notBefore, notAfter, are, times, isBefore, isAfter, positive, epoch⟩
    obtain rfl := Option.some.inj (parsed.fields_eq.symm.trans are)
    obtain ⟨rfl, rfl⟩ := Prod.mk.inj (Option.some.inj (parsed.validity.symm.trans times))
    obtain rfl := Option.some.inj (namedEarly.symm.trans isBefore)
    obtain rfl := Option.some.inj (namedLate.symm.trans isAfter)
    obtain ⟨since, till⟩ := arithmetic.mpr ⟨positive, epoch⟩
    exact ⟨_, _, _, _, _, are, times, isBefore, isAfter, since, till⟩

/-! ### Extensions -/

theorem oidIs_iff {tlv : DerTlv} {oid : Bytes} :
    oidIs tlv oid = true ↔ tlv.tag = 0x06 ∧ tlv.body = oid := by
  unfold oidIs
  rw [Bool.and_eq_true, beq_iff_eq, beq_iff_eq]

theorem oidIs_other {tlv : DerTlv} {first second : Bytes} (is : oidIs tlv first = true)
    (differ : first ≠ second) : oidIs tlv second = false := by
  rw [← Bool.not_eq_true, oidIs_iff]
  exact fun other => differ ((oidIs_iff.mp is).2.symm.trans other.2)

/-- The key usages that are taken note of among elements. -/
def usagesOf (elements : List DerTlv) : List (UInt8 × Bytes) :=
  (elements.filterMap keyUsageIn).filter fun usage => usage.1 == 0

theorem usagesOf_cons_none {ext : DerTlv} {rest : List DerTlv} (none' : keyUsageIn ext = none) :
    usagesOf (ext :: rest) = usagesOf rest := by
  unfold usagesOf
  rw [List.filterMap_cons_none none']

theorem usagesOf_cons_some {ext : DerTlv} {rest : List DerTlv} {usage : UInt8 × Bytes}
    (some' : keyUsageIn ext = some usage) :
    usagesOf (ext :: rest) = if usage.1 = 0 then usage :: usagesOf rest else usagesOf rest := by
  unfold usagesOf
  rw [List.filterMap_cons_some some', List.filter_cons]
  exact if_congr beq_iff_eq rfl rfl

/-- The bit that the client looks at. -/
def certSignBit (usage : UInt8 × Bytes) : Bool := usage.2.headD 0 &&& 0x04 != 0

/-- What one extension adds to the key usage. -/
theorem readExtension_usage {ext oid : DerTlv} {value : Bytes} (rest : List DerTlv) (out : Ext)
    (reads : extensionOf ext = some (oid, value)) :
    (((readExtension oid value out).hasKeyUsage || !(usagesOf rest).isEmpty) =
        (out.hasKeyUsage || !(usagesOf (ext :: rest)).isEmpty)) ∧
      (((readExtension oid value out).keyCertSign || (usagesOf rest).any certSignBit) =
        (out.keyCertSign || (usagesOf (ext :: rest)).any certSignBit)) := by
  have usage : keyUsageIn ext = if oidIs oid oidKeyUsage then keyUsageOf value else none := by
    unfold keyUsageIn
    rw [reads]
  have skipped (none' : keyUsageIn ext = none) (same : Ext)
      (usageSame : same.hasKeyUsage = out.hasKeyUsage)
      (signSame : same.keyCertSign = out.keyCertSign) :
      ((same.hasKeyUsage || !(usagesOf rest).isEmpty) =
          (out.hasKeyUsage || !(usagesOf (ext :: rest)).isEmpty)) ∧
        ((same.keyCertSign || (usagesOf rest).any certSignBit) =
          (out.keyCertSign || (usagesOf (ext :: rest)).any certSignBit)) := by
    rw [usagesOf_cons_none none', usageSame, signSame]
    exact ⟨rfl, rfl⟩
  unfold readExtension
  split
  · next basic =>
    rw [oidIs_other basic (by decide)] at usage
    split
    · exact skipped usage _ rfl rfl
    · exact skipped usage _ rfl rfl
  · split
    · next key =>
      rw [if_pos key] at usage
      split
      · next missing => exact skipped (usage.trans missing) _ rfl rfl
      · next unused bits found =>
        rw [usagesOf_cons_some (usage.trans found)]
        split
        · exact ⟨rfl, rfl⟩
        · next zero =>
          rw [if_pos (not_not.mp zero)]
          refine ⟨?_, ?_⟩
          · show (true || _) = (out.hasKeyUsage || true)
            rw [Bool.true_or, Bool.or_true]
          · rw [List.any_cons, ← Bool.or_assoc]
            rfl
    · next other =>
      rw [if_neg other] at usage
      split
      · split
        · exact skipped usage _ rfl rfl
        · exact skipped usage _ rfl rfl
      · exact skipped usage _ rfl rfl

theorem readExtensions_usage (elements : List DerTlv) (out : Ext) :
    ((readExtensions elements out).hasKeyUsage = (out.hasKeyUsage ||
        !(usagesOf (elements.takeWhile fun ext => (extensionOf ext).isSome)).isEmpty)) ∧
      ((readExtensions elements out).keyCertSign = (out.keyCertSign ||
        (usagesOf (elements.takeWhile fun ext => (extensionOf ext).isSome)).any certSignBit)) := by
  induction elements generalizing out with
  | nil => exact ⟨(Bool.or_false _).symm, (Bool.or_false _).symm⟩
  | cons ext rest inductionHypothesis =>
    rw [readExtensions]
    split
    · next unread =>
      rw [List.takeWhile_cons_of_neg (by rw [unread]; decide)]
      exact ⟨(Bool.or_false _).symm, (Bool.or_false _).symm⟩
    · next oid value reads =>
      rw [List.takeWhile_cons_of_pos (by rw [reads]; rfl)]
      obtain ⟨usage, sign⟩ := readExtension_usage
        (rest.takeWhile fun ext => (extensionOf ext).isSome) out reads
      obtain ⟨later, laterSign⟩ := inductionHypothesis (readExtension oid value out)
      exact ⟨later.trans usage, laterSign.trans sign⟩

/-- A certificate is a CA by an extension that says so. -/
theorem readExtensions_isCa (elements : List DerTlv) (out : Ext)
    (isCa : (readExtensions elements out).isCa = true) :
    out.isCa = true ∨ ∃ ext ∈ elements, ∃ oid value, extensionOf ext = some (oid, value) ∧
      oidIs oid oidBasicCons = true ∧ basicConsOf value = some true := by
  induction elements generalizing out with
  | nil => exact Or.inl isCa
  | cons ext rest inductionHypothesis =>
    rw [readExtensions] at isCa
    split at isCa
    · exact Or.inl isCa
    · next oid value reads =>
      rcases inductionHypothesis _ isCa with here | ⟨later, member, stated⟩
      · by_cases basic : oidIs oid oidBasicCons = true
        · unfold readExtension at here
          rw [if_pos basic] at here
          split at here
          · exact Or.inl here
          · next flag found =>
            refine Or.inr ⟨ext, List.mem_cons_self, oid, value, reads, basic, ?_⟩
            rw [found]
            exact congrArg some here
        · refine Or.inl ?_
          unfold readExtension at here
          rw [if_neg basic] at here
          split at here
          · split at here
            · exact here
            · split at here <;> exact here
          · split at here
            · split at here <;> exact here
            · exact here
      · exact Or.inr ⟨later, List.mem_cons_of_mem _ member, stated⟩

/-- Without unused bits the bit that the client looks at decides. -/
theorem assertsCertSign_zero {usage : UInt8 × Bytes} (zero : usage.1 = 0) :
    assertsCertSign usage = certSignBit usage := by
  unfold assertsCertSign certSignBit
  rw [zero]
  cases bits : usage.2 with
  | nil => rfl
  | cons first rest =>
    rw [decide_eq_true (by
      show 5 < 8 * (first :: rest).length - 0
      rw [List.length_cons]
      omega), Bool.true_and]

theorem mem_usagesOf {elements : List DerTlv} {usage : UInt8 × Bytes} :
    usage ∈ usagesOf elements ↔ (∃ ext ∈ elements, keyUsageIn ext = some usage) ∧ usage.1 = 0 := by
  unfold usagesOf
  rw [List.mem_filter, List.mem_filterMap, beq_iff_eq]

/-- A CA allows to sign certificates in every key usage when its key usages are plain. -/
theorem keyCertSign_iff {fields : TbsFields} {notBefore notAfter : Nat}
    (isCa : (certOf fields notBefore notAfter).isCa = true) :
    KeyCertSign fields ↔ UsagePlain fields := by
  obtain ⟨usage, sign⟩ := readExtensions_usage (extensionElements fields.rest)
    ⟨false, false, false, none⟩
  rw [Bool.false_or] at usage sign
  have checked : (readExtensions (extensionElements fields.rest) ⟨false, false, false, none⟩).isCa =
      true ∧ ((readUsages fields).isEmpty = true ∨ (readUsages fields).any certSignBit = true) := by
    obtain ⟨ca, allowed⟩ := (Bool.and_eq_true _ _).mp isCa
    refine ⟨ca, ?_⟩
    rw [usage, sign] at allowed
    show (usagesOf (readElements fields)).isEmpty = true ∨
      (usagesOf (readElements fields)).any certSignBit = true
    cases empty : (usagesOf (readElements fields)).isEmpty
    · refine Or.inr ?_
      have rejected : (!(!(usagesOf (readElements fields)).isEmpty &&
        !(usagesOf (readElements fields)).any certSignBit)) = true := allowed
      rw [empty] at rejected
      simpa using rejected
    · exact Or.inl rfl
  have split : extensionElements fields.rest = readElements fields ++
      (extensionElements fields.rest).dropWhile fun ext => (extensionOf ext).isSome :=
    (List.takeWhile_append_dropWhile).symm
  constructor
  · intro signs
    refine ⟨fun ext member => signs ext ((List.dropWhile_sublist _).subset member),
      fun ext member usage found _ => signs ext ((List.takeWhile_sublist _).subset member) usage found,
      Or.inr fun usage member => ?_⟩
    obtain ⟨⟨ext, inside, found⟩, -⟩ := mem_usagesOf.mp member
    exact signs ext ((List.takeWhile_sublist _).subset inside) usage found
  · intro plain ext member usage found
    rw [split] at member
    rcases List.mem_append.mp member with read | unread
    · by_cases zero : usage.1 = 0
      · have noted : usage ∈ readUsages fields := mem_usagesOf.mpr ⟨⟨ext, read, found⟩, zero⟩
        rcases plain.several with single | all
        · rcases checked.2 with empty | signs
          · rw [List.isEmpty_iff.mp empty] at noted
            exact absurd noted List.not_mem_nil
          · obtain ⟨signing, member', bit⟩ := List.any_eq_true.mp signs
            have same : usage = signing := by
              obtain ⟨one, is⟩ := List.length_eq_one_iff.mp
                (le_antisymm single (List.length_pos_of_mem noted))
              rw [is] at noted member'
              exact (List.mem_singleton.mp noted).trans (List.mem_singleton.mp member').symm
            rw [assertsCertSign_zero zero, same]
            exact bit
        · exact all usage noted
      · exact plain.unused ext read usage found zero
    · exact plain.unread ext unread usage found

theorem caTrue_of_isCa {fields : TbsFields} {notBefore notAfter : Nat}
    (isCa : (certOf fields notBefore notAfter).isCa = true) : CaTrue fields := by
  rcases readExtensions_isCa _ _ ((Bool.and_eq_true _ _).mp isCa).1 with initial | stated
  · exact absurd initial (by decide)
  · exact stated

/-! ### Algorithms -/

theorem derExpect_tag {tag : UInt8} {bytes rest : Bytes} {tlv : DerTlv}
    (reads : derExpect tag bytes = some (tlv, rest)) :
    derNext bytes = some (tlv, rest) ∧ tlv.tag = tag := by
  unfold derExpect at reads
  split at reads
  · cases reads
  · next found next' =>
    split at reads
    · next is =>
      obtain ⟨rfl, rfl⟩ := Prod.mk.inj (Option.some.inj reads)
      exact ⟨next', is⟩
    · cases reads

/-- The hash of a mask generation is looked for where an identifier stands. -/
theorem pssField_mask {field : DerTlv} {hash next : Nat} {mask : Bool}
    (reads : pssField field hash false = some (next, mask)) : mask = false := by
  unfold pssField at reads
  split at reads
  · exact (congrArg (·.2) (Option.some.inj reads)).symm
  · obtain ⟨⟨alg, behind⟩, -, reads⟩ := Option.bind_eq_some_iff.mp reads
    obtain ⟨⟨oid, rest⟩, named, reads⟩ := Option.bind_eq_some_iff.mp reads
    dsimp only at reads
    split at reads
    · split at reads
      · cases reads
      · exact (congrArg (·.2) (Option.some.inj reads)).symm
    · split at reads
      · cases reads
      · obtain ⟨⟨hashAlg, last⟩, sequence, -⟩ := Option.bind_eq_some_iff.mp reads
        obtain ⟨first, identifier⟩ := derExpect_tag named
        obtain ⟨again, other⟩ := derExpect_tag sequence
        obtain ⟨rfl, -⟩ := Prod.mk.inj (Option.some.inj (first.symm.trans again))
        exact absurd (identifier.symm.trans other) (by decide)

theorem pssFields_mask {fields : List DerTlv} {hash next : Nat} {mask : Bool}
    (reads : pssFields fields hash false = some (next, mask)) : mask = false := by
  induction fields generalizing hash with
  | nil => exact (congrArg (·.2) (Option.some.inj reads)).symm
  | cons field fields inductionHypothesis =>
    rw [pssFields] at reads
    split at reads
    · cases reads
    · next between mask' found =>
      rw [pssField_mask found] at reads
      exact inductionHypothesis reads

/-- No parameters of RSASSA-PSS are accepted. -/
theorem pssHash_none (params : DerTlv) : pssHash params = none := by
  unfold pssHash
  split
  · rfl
  · split
    · rfl
    · split
      · rfl
      · next hash mask found => rw [if_pos (Or.inr (pssFields_mask found))]

/-- A digest is told by the last byte of its identifier. -/
theorem digestLenOfOid_last {oid : DerTlv} {last : UInt8} (ends : oid.body.getLast? = some last)
    (known : digestLenOfOid oid ≠ 0) :
    (last, digestLenOfOid oid) ∈
      [((0x0b : UInt8), 32), (0x0c, 48), (0x0d, 64), (0x02, 32), (0x03, 48), (0x04, 64)] := by
  have same {table : Bytes} (is : oid.head.drop (oid.head.length - 2) ++ oid.body = table) :
      table.getLast? = some last := by
    rw [← is, List.getLast?_append, ends]
    rfl
  unfold digestLenOfOid at known ⊢
  dsimp only at known ⊢
  split_ifs at known ⊢ with first second third fourth fifth sixth
  · obtain rfl := Option.some.inj (same first)
    decide
  · obtain rfl := Option.some.inj (same second)
    decide
  · obtain rfl := Option.some.inj (same third)
    decide
  · obtain rfl := Option.some.inj (same fourth)
    decide
  · obtain rfl := Option.some.inj (same fifth)
    decide
  · obtain rfl := Option.some.inj (same sixth)
    decide
  · exact absurd rfl known

theorem digestLenOfOid_eq {oid : DerTlv} {last : UInt8} {length : Nat}
    (ends : oid.body.getLast? = some last) (known : digestLenOfOid oid ≠ 0)
    (told : ∀ digest, (last, digest) ∈
      [((0x0b : UInt8), 32), (0x0c, 48), (0x0d, 64), (0x02, 32), (0x03, 48), (0x04, 64)] →
        digest = length) : digestLenOfOid oid = length :=
  told _ (digestLenOfOid_last ends known)

/-- What is read as an algorithm is one that the client knows. -/
theorem algOf_known {oid : DerTlv} {params : Option DerTlv} {alg : SigAlg}
    (reads : algOf oid params = some alg) : (oid.body, alg) ∈ knownAlgs := by
  unfold algOf at reads
  split at reads
  · next rsa =>
    split at reads
    · cases reads
    · next known =>
      obtain rfl := Option.some.inj reads
      rw [Bool.or_eq_true, Bool.or_eq_true, oidIs_iff, oidIs_iff, oidIs_iff] at rsa
      rcases rsa with (⟨-, is⟩ | ⟨-, is⟩) | ⟨-, is⟩
      · have digest : digestLenOfOid oid = 32 :=
          digestLenOfOid_eq (by rw [is]; rfl) known (by simp)
        rw [is, digest]
        decide
      · have digest : digestLenOfOid oid = 48 :=
          digestLenOfOid_eq (by rw [is]; rfl) known (by simp)
        rw [is, digest]
        decide
      · have digest : digestLenOfOid oid = 64 :=
          digestLenOfOid_eq (by rw [is]; rfl) known (by simp)
        rw [is, digest]
        decide
  · split at reads
    · split at reads
      · cases reads
      · rw [pssHash_none] at reads
        cases reads
    · split at reads
      · next ecdsa =>
        rw [Bool.or_eq_true, Bool.or_eq_true, oidIs_iff, oidIs_iff, oidIs_iff] at ecdsa
        split at reads
        · next digest =>
          obtain rfl := Option.some.inj reads
          have known : digestLenOfOid oid ≠ 0 := by
            rw [digest]
            decide
          rcases ecdsa with (⟨-, is⟩ | ⟨-, is⟩) | ⟨-, is⟩
          · rw [is]
            decide
          · have other := digestLenOfOid_last (by rw [is]; rfl) known
            rw [digest] at other
            exact absurd other (by decide)
          · have other := digestLenOfOid_last (by rw [is]; rfl) known
            rw [digest] at other
            exact absurd other (by decide)
        · split at reads
          · next digest =>
            obtain rfl := Option.some.inj reads
            have known : digestLenOfOid oid ≠ 0 := by
              rw [digest]
              decide
            rcases ecdsa with (⟨-, is⟩ | ⟨-, is⟩) | ⟨-, is⟩
            · have other := digestLenOfOid_last (by rw [is]; rfl) known
              rw [digest] at other
              exact absurd other (by decide)
            · rw [is]
              decide
            · have other := digestLenOfOid_last (by rw [is]; rfl) known
              rw [digest] at other
              exact absurd other (by decide)
          · cases reads
      · split at reads
        · next rsa =>
          obtain rfl := Option.some.inj reads
          rw [(oidIs_iff.mp rsa).2]
          decide
        · cases reads

theorem readAlg_names {element : DerTlv} {alg : SigAlg} (reads : readAlg element = some alg) :
    Names element alg := by
  unfold readAlg at reads
  split at reads
  · cases reads
  · split at reads
    · cases reads
    · next oid named => exact ⟨oid, [], named, algOf_known reads⟩
    · next oid rest _ named =>
      split at reads
      · cases reads
      · split at reads
        · exact ⟨oid, rest, named, algOf_known reads⟩
        · cases reads

/-- An element names one algorithm at most. -/
theorem Names.unique {element : DerTlv} {first second : SigAlg} (names : Names element first)
    (again : Names element second) : first = second := by
  obtain ⟨oid, rest, read, known⟩ := names
  obtain ⟨oid', rest', read', known'⟩ := again
  obtain ⟨rfl, -⟩ := Prod.mk.inj (Option.some.inj (read.symm.trans read'))
  have keyed : ∀ one ∈ knownAlgs, ∀ two ∈ knownAlgs, one.1 = two.1 → one.2 = two.2 := by decide
  exact keyed _ known _ known' rfl

end MectovOS.Tls
