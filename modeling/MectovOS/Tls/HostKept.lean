/-
This file proves for which hosts `tls_x509_match_host` keeps to the rule for names: a
dNSName, or a common name without a SAN, is the host or has a star for its first label,
an iPAddress is the host read as four decimal numbers, and a name never stands for an
address. The matcher reads addresses that way but does not keep names from them.
-/

import MectovOS.Tls.X509
import Mathlib.Data.List.TakeWhile

namespace MectovOS.Tls

/-! ### The rule -/

/-- Two names are one up to the case of ASCII letters. -/
def SameName (first second : Bytes) : Prop := first.map lower = second.map lower

/-- A name is the host, or a star in front of what is behind the host's first label. -/
def DnsName (name host : Bytes) : Prop :=
  SameName name host ∨ ∃ label rest behind, label ≠ [] ∧ 46 ∉ label ∧ host = label ++ 46 :: rest ∧
    name = 42 :: 46 :: behind ∧ SameName behind rest

/-- The number that digits continue. -/
def decimal (front : Nat) (digits : Bytes) : Nat :=
  digits.foldl (fun acc digit => acc * 10 + (digit.toNat - 48)) front

/-- A decimal number of one to three digits that a byte holds. -/
structure Octet (part : Bytes) : Prop where
  digits : ∀ letter ∈ part, 48 ≤ letter ∧ letter ≤ 57
  some : 0 < part.length
  few : part.length ≤ 3
  small : decimal 0 part ≤ 255

/-- Four decimal numbers between dots are an address. -/
def Ipv4Literal (host address : Bytes) : Prop :=
  ∃ a b c d, Octet a ∧ Octet b ∧ Octet c ∧ Octet d ∧
    host = a ++ 46 :: (b ++ 46 :: (c ++ 46 :: d)) ∧
    address = [a, b, c, d].map fun part => UInt8.ofNat (decimal 0 part)

/-- A name stands for a host that is not an address. -/
def NameRule (host name : Bytes) : Prop := (¬ ∃ address, Ipv4Literal host address) ∧ DnsName name host

/-- The names of one kind in a SAN. -/
def sanNames (names : Bytes) (tag : UInt8) : List Bytes :=
  ((derElements names).1.filter fun name => name.tag == tag).map (·.body)

/-- The dNSNames of a SAN, or the common name without one. -/
def namesOf (cert : Cert) : List Bytes :=
  match cert.san with
  | some names => sanNames names 0x82
  | none => cert.cn.toList

/-- The iPAddresses of a SAN. -/
def addressesOf (cert : Cert) : List Bytes :=
  match cert.san with
  | some names => sanNames names 0x87
  | none => []

/-- A certificate names a host. -/
def NamesHost (cert : Cert) (host : Bytes) : Prop :=
  (∃ name ∈ namesOf cert, NameRule host name) ∨
    ∃ address ∈ addressesOf cert, address.length = 4 ∧ Ipv4Literal host address

/-- A host for which the matcher keeps to the rule: it is no address, its first label is not empty,
and its last one is neither, but for a lone star. -/
structure Nameable (host : Bytes) : Prop where
  given : host ≠ []
  named : ¬ ∃ address, Ipv4Literal host address
  labelled : ∀ rest, rest ≠ [] → host ≠ 46 :: rest
  ended : ∀ label, label ≠ [] → 46 ∉ label → label ≠ [42] → host ≠ label ++ [46]

/-! ### Addresses -/

theorem decimal_le (front : Nat) (digits : Bytes) : front ≤ decimal front digits := by
  induction digits generalizing front with
  | nil => exact Nat.le_refl _
  | cons digit digits induction =>
    have rest := induction (front * 10 + (digit.toNat - 48))
    show front ≤ decimal (front * 10 + (digit.toNat - 48)) digits
    omega

/-- The loop reads the digits up to a dot or the end. -/
theorem ipv4Loop_iff {text : Bytes} {parts : List Nat} {acc digits : Nat} {read : List Nat}
    (few : digits ≤ 3) (small : acc ≤ 255) :
    ipv4Loop text parts acc digits = some read ↔
      ∃ part tail, text = part ++ tail ∧ (∀ letter ∈ part, 48 ≤ letter ∧ letter ≤ 57) ∧
        0 < digits + part.length ∧ digits + part.length ≤ 3 ∧ decimal acc part ≤ 255 ∧
        parts.length < 4 ∧ (tail = [] ∧ read = parts ++ [decimal acc part] ∨
          ∃ more, tail = 46 :: more ∧
            ipv4Loop more (parts ++ [decimal acc part]) 0 0 = some read) := by
  induction text generalizing acc digits with
  | nil =>
    rw [ipv4Loop]
    constructor
    · intro reads
      split at reads
      · cases reads
      · next more =>
        exact ⟨[], [], rfl, fun _ member => absurd member List.not_mem_nil, by
          rw [List.length_nil]
          omega, few, small, by omega, Or.inl ⟨rfl, (Option.some.inj reads).symm⟩⟩
    · rintro ⟨part, tail, cut, -, some, -, -, less, ends⟩
      obtain ⟨rfl, rfl⟩ := List.append_eq_nil_iff.mp cut.symm
      rw [List.length_nil] at some
      rw [if_neg (by omega)]
      rcases ends with ⟨-, rfl⟩ | ⟨more, none, -⟩
      · rfl
      · cases none
  | cons letter rest induction =>
    rw [ipv4Loop]
    by_cases digit : 48 ≤ letter ∧ letter ≤ 57
    · rw [if_pos digit]
      dsimp only
      have notDot : letter ≠ 46 := by
        rintro rfl
        exact absurd digit (by decide)
      have first : ∀ {part tail : Bytes}, letter :: rest = part ++ tail →
          (tail = [] ∨ ∃ more, tail = 46 :: more) →
          ∃ part', part = letter :: part' ∧ rest = part' ++ tail := by
        intro part tail cut ends
        rcases List.cons_eq_append_iff.mp cut with ⟨rfl, rfl⟩ | ⟨part', rfl, behind⟩
        · rcases ends with none | ⟨more, dot⟩
          · cases none
          · exact absurd (List.cons.inj dot).1 notDot
        · exact ⟨part', rfl, behind⟩
      have ended : ∀ {tail : Bytes} {here : Prop} {there : Bytes → Prop},
          (tail = [] ∧ here ∨ ∃ more, tail = 46 :: more ∧ there more) →
          tail = [] ∨ ∃ more, tail = 46 :: more := by
        rintro tail here there (⟨none, -⟩ | ⟨more, dot, -⟩)
        · exact Or.inl none
        · exact Or.inr ⟨more, dot⟩
      by_cases stop : 3 < digits + 1 ∨ 255 < acc * 10 + (letter.toNat - 48)
      · rw [if_pos stop]
        refine ⟨nofun, ?_⟩
        rintro ⟨part, tail, cut, -, -, room, value, -, ends⟩
        obtain ⟨part, rfl, -⟩ := first cut (ended ends)
        have least : acc * 10 + (letter.toNat - 48) ≤ decimal acc (letter :: part) :=
          decimal_le _ part
        rw [List.length_cons] at room
        omega
      · rw [if_neg stop, induction (by omega) (by omega)]
        constructor
        · rintro ⟨part, tail, rfl, letters, some, room, value, less, ends⟩
          exact ⟨letter :: part, tail, rfl, List.forall_mem_cons.mpr ⟨digit, letters⟩, by
            rw [List.length_cons]
            omega, by
            rw [List.length_cons]
            omega, value, less, ends⟩
        · rintro ⟨part, tail, cut, letters, some, room, value, less, ends⟩
          obtain ⟨part, rfl, behind⟩ := first cut (ended ends)
          rw [List.length_cons] at room
          exact ⟨part, tail, behind, (List.forall_mem_cons.mp letters).2, by omega, by omega, value,
            less, ends⟩
    · rw [if_neg digit]
      have none : ∀ {part tail : Bytes}, letter :: rest = part ++ tail →
          (∀ letter ∈ part, 48 ≤ letter ∧ letter ≤ 57) → part = [] ∧ tail = letter :: rest := by
        intro part tail cut letters
        rcases List.cons_eq_append_iff.mp cut with ⟨rfl, rfl⟩ | ⟨part', rfl, -⟩
        · exact ⟨rfl, rfl⟩
        · exact absurd (letters letter List.mem_cons_self) digit
      by_cases dot : letter = 46
      · rw [if_pos dot]
        constructor
        · intro reads
          split at reads
          · cases reads
          · next more =>
            exact ⟨[], letter :: rest, rfl, fun _ member => absurd member List.not_mem_nil, by
              rw [List.length_nil]
              omega, few, small, by omega, Or.inr ⟨rest, by rw [dot], reads⟩⟩
        · rintro ⟨part, tail, cut, letters, some, -, -, less, ends⟩
          obtain ⟨rfl, rfl⟩ := none cut letters
          rw [List.length_nil] at some
          rw [if_neg (by omega)]
          rcases ends with ⟨empty, -⟩ | ⟨more, is, reads⟩
          · cases empty
          · rw [(List.cons.inj is).2]
            exact reads
      · rw [if_neg dot]
        refine ⟨nofun, ?_⟩
        rintro ⟨part, tail, cut, letters, -, -, -, -, ends⟩
        obtain ⟨rfl, rfl⟩ := none cut letters
        rcases ends with ⟨empty, -⟩ | ⟨more, is, -⟩
        · cases empty
        · exact absurd (List.cons.inj is).1 dot

/-- One number of an address. -/
theorem ipv4Loop_octet {text : Bytes} {parts read : List Nat} :
    ipv4Loop text parts 0 0 = some read ↔ ∃ part, Octet part ∧ parts.length < 4 ∧
      (text = part ∧ read = parts ++ [decimal 0 part] ∨ ∃ more, text = part ++ 46 :: more ∧
        ipv4Loop more (parts ++ [decimal 0 part]) 0 0 = some read) := by
  rw [ipv4Loop_iff (by omega) (by omega)]
  constructor
  · rintro ⟨part, tail, rfl, letters, some, room, value, less, ⟨rfl, is⟩ | ⟨more, rfl, reads⟩⟩
    · exact ⟨part, ⟨letters, by omega, by omega, value⟩, less, Or.inl ⟨List.append_nil part, is⟩⟩
    · exact ⟨part, ⟨letters, by omega, by omega, value⟩, less, Or.inr ⟨more, rfl, reads⟩⟩
  · rintro ⟨part, ⟨letters, some, room, value⟩, less, ⟨rfl, is⟩ | ⟨more, rfl, reads⟩⟩
    · exact ⟨text, [], (List.append_nil text).symm, letters, by omega, by omega, value, less,
        Or.inl ⟨rfl, is⟩⟩
    · exact ⟨part, 46 :: more, rfl, letters, by omega, by omega, value, less,
        Or.inr ⟨more, rfl, reads⟩⟩

/-- `parse_ipv4` reads the addresses. -/
theorem parseIpv4_iff {host address : Bytes} :
    parseIpv4 host = some address ↔ Ipv4Literal host address := by
  have loop : parseIpv4 host = some address ↔ ∃ read, ipv4Loop host [] 0 0 = some read ∧
      read.length = 4 ∧ read.map UInt8.ofNat = address := by
    unfold parseIpv4
    cases ipv4Loop host [] 0 0 with
    | none => exact ⟨nofun, nofun⟩
    | some read =>
      dsimp only
      by_cases four : read.length = 4
      · rw [if_neg (not_not_intro four)]
        exact ⟨fun is => ⟨read, rfl, four, Option.some.inj is⟩,
          fun ⟨_, same, _, is⟩ => by rw [Option.some.inj same, is]⟩
      · rw [if_pos four]
        exact ⟨nofun, fun ⟨_, same, is, _⟩ => absurd (Option.some.inj same ▸ is) four⟩
  rw [loop]
  constructor
  · rintro ⟨read, first, four, rfl⟩
    obtain ⟨a, octetA, -, ⟨-, rfl⟩ | ⟨more, rfl, second⟩⟩ := ipv4Loop_octet.mp first
    · cases four
    obtain ⟨b, octetB, -, ⟨-, rfl⟩ | ⟨more, rfl, third⟩⟩ := ipv4Loop_octet.mp second
    · cases four
    obtain ⟨c, octetC, -, ⟨-, rfl⟩ | ⟨more, rfl, fourth⟩⟩ := ipv4Loop_octet.mp third
    · cases four
    obtain ⟨d, octetD, -, ⟨rfl, rfl⟩ | ⟨more, rfl, fifth⟩⟩ := ipv4Loop_octet.mp fourth
    · exact ⟨a, b, c, more, octetA, octetB, octetC, octetD, rfl, rfl⟩
    · obtain ⟨-, -, less, -⟩ := ipv4Loop_octet.mp fifth
      exact absurd less (Nat.lt_irrefl 4)
  · rintro ⟨a, b, c, d, octetA, octetB, octetC, octetD, rfl, rfl⟩
    refine ⟨[decimal 0 a, decimal 0 b, decimal 0 c, decimal 0 d], ?_, rfl, rfl⟩
    refine ipv4Loop_octet.mpr ⟨a, octetA, Nat.succ_pos 3, Or.inr ⟨_, rfl, ?_⟩⟩
    refine ipv4Loop_octet.mpr ⟨b, octetB, Nat.lt_of_sub_eq_succ rfl, Or.inr ⟨_, rfl, ?_⟩⟩
    refine ipv4Loop_octet.mpr ⟨c, octetC, Nat.lt_of_sub_eq_succ rfl, Or.inr ⟨_, rfl, ?_⟩⟩
    exact ipv4Loop_octet.mpr ⟨d, octetD, Nat.lt_of_sub_eq_succ rfl, Or.inl ⟨rfl, rfl⟩⟩

/-- An address is digits and three dots. -/
theorem Ipv4Literal.isIpv4 {host address : Bytes} (literal : Ipv4Literal host address) :
    hostIsIpv4 host = true := by
  obtain ⟨a, b, c, d, octetA, octetB, octetC, octetD, rfl, -⟩ := literal
  have none : ∀ {part : Bytes}, Octet part → part.count 46 = 0 := fun octet =>
    List.count_eq_zero.mpr fun member => absurd (octet.digits 46 member) (by decide)
  have all : ∀ {part : Bytes}, Octet part →
      part.all (fun letter => letter == 46 || (48 ≤ letter && letter ≤ 57)) = true := by
    intro part octet
    rw [List.all_eq_true]
    intro letter member
    obtain ⟨low, high⟩ := octet.digits letter member
    simp [low, high]
  unfold hostIsIpv4
  simp [none octetA, none octetB, none octetC, none octetD, all octetA, all octetB,
    all octetC, all octetD]

/-! ### Names -/

/-- The matcher on its own terms: names are compared whatever the host is. -/
theorem matchHost_iff {cert : Cert} {host : Bytes} :
    matchHost cert host = true ↔ host ≠ [] ∧ ((∃ name ∈ namesOf cert, dnsMatch name host = true) ∨
      ∃ address ∈ addressesOf cert, address.length = 4 ∧ Ipv4Literal host address) := by
  have general : ∀ name, generalNameMatches host name = true ↔
      name.tag = 0x82 ∧ dnsMatch name.body host = true ∨
        name.tag = 0x87 ∧ name.body.length = 4 ∧ Ipv4Literal host name.body := by
    intro name
    unfold generalNameMatches
    by_cases dns : name.tag = 0x82
    · rw [if_pos dns]
      refine ⟨fun same => Or.inl ⟨dns, same⟩, ?_⟩
      rintro (⟨-, same⟩ | ⟨address, -⟩)
      · exact same
      · rw [dns] at address
        exact absurd address (by decide)
    · rw [if_neg dns]
      by_cases ip : name.tag = 0x87
      · rw [if_pos ip, Bool.and_eq_true, Bool.and_eq_true, beq_iff_eq, beq_iff_eq, parseIpv4_iff]
        exact ⟨fun ⟨⟨_, four⟩, literal⟩ => Or.inr ⟨ip, four, literal⟩, fun either =>
          either.elim (fun ⟨is, _⟩ => absurd is dns) fun ⟨_, four, literal⟩ =>
            ⟨⟨literal.isIpv4, four⟩, literal⟩⟩
      · rw [if_neg ip]
        refine ⟨fun no => absurd no Bool.false_ne_true, ?_⟩
        rintro (⟨is, -⟩ | ⟨is, -⟩)
        · exact absurd is dns
        · exact absurd is ip
  have kind : ∀ {names : Bytes} {tag : UInt8} {holds : Bytes → Prop},
      (∃ body ∈ sanNames names tag, holds body) ↔
        ∃ name ∈ (derElements names).1, name.tag = tag ∧ holds name.body := by
    intro names tag holds
    unfold sanNames
    simp [and_assoc]
  unfold matchHost namesOf addressesOf
  by_cases given : host = []
  · simp [given]
  rw [if_neg given]
  cases cert.san with
  | some names =>
    simp only [kind, List.any_eq_true, general, and_or_left, exists_or, ne_eq, given, not_false_eq_true,
      true_and]
  | none =>
    cases cert.cn <;> simp [given]

/-- A star compares what is behind the first label, and all else is compared letter by letter. -/
theorem dnsMatch_iff {name host : Bytes} :
    dnsMatch name host = true ↔
      (∃ behind, behind ≠ [] ∧ name = 42 :: 46 :: behind ∧
        ∃ label rest, 46 ∉ label ∧ host = label ++ 46 :: rest ∧ SameName behind rest) ∨
      (∀ behind, behind ≠ [] → name ≠ 42 :: 46 :: behind) ∧ SameName name host := by
  have shape : 2 < name.length ∧ byteAt name 0 = 42 ∧ byteAt name 1 = 46 ↔
      ∃ behind, behind ≠ [] ∧ name = 42 :: 46 :: behind := by
    constructor
    · rintro ⟨long, star, dot⟩
      obtain ⟨first, name, rfl⟩ := List.exists_cons_of_length_pos (by omega : 0 < name.length)
      obtain ⟨second, behind, rfl⟩ := List.exists_cons_of_length_pos (by
        rw [List.length_cons] at long
        omega : 0 < name.length)
      refine ⟨behind, ?_, by rw [UInt8.toNat_inj.mp (show first.toNat = (42 : UInt8).toNat from star),
        UInt8.toNat_inj.mp (show second.toNat = (46 : UInt8).toNat from dot)]⟩
      rintro rfl
      exact absurd long (Nat.lt_irrefl 2)
    · rintro ⟨behind, some, rfl⟩
      have positive := List.length_pos_iff.mpr some
      exact ⟨by rw [List.length_cons, List.length_cons]; omega, rfl, rfl⟩
  unfold dnsMatch
  by_cases wild : 2 < name.length ∧ byteAt name 0 = 42 ∧ byteAt name 1 = 46
  · obtain ⟨behind, some, rfl⟩ := shape.mp wild
    rw [if_pos wild]
    have split : ∀ label rest : Bytes, 46 ∉ label →
        (label ++ 46 :: rest).dropWhile (· ≠ 46) = 46 :: rest := by
      intro label rest dotless
      rw [List.dropWhile_append_of_pos fun letter member => ?_, List.dropWhile_cons_of_neg (by simp)]
      exact decide_eq_true fun (is : letter = 46) => dotless (is ▸ member)
    constructor
    · intro same
      have cut := @List.takeWhile_append_dropWhile _ (· ≠ 46) host
      cases dropped : host.dropWhile (· ≠ 46) with
      | nil =>
        rw [dropped] at same
        cases same
      | cons dot rest =>
        have stops := List.head?_dropWhile_not (· ≠ 46) host
        rw [dropped] at same cut stops
        obtain rfl : dot = 46 := by simpa using stops
        refine Or.inl ⟨behind, some, rfl, _, rest, fun member => ?_, cut.symm, beq_iff_eq.mp same⟩
        exact absurd (List.mem_takeWhile_imp member) (by decide)
    · rintro (⟨behind', -, is, label, rest, dotless, rfl, same⟩ | ⟨plain, -⟩)
      · obtain rfl := (List.cons.inj (List.cons.inj is).2).2
        rw [split label rest dotless]
        exact beq_iff_eq.mpr same
      · exact absurd rfl (plain behind some)
  · rw [if_neg wild]
    have plain : ∀ behind, behind ≠ [] → name ≠ 42 :: 46 :: behind := fun behind some is =>
      wild (shape.mpr ⟨behind, some, is⟩)
    refine ⟨fun same => Or.inr ⟨plain, beq_iff_eq.mp same⟩, ?_⟩
    rintro (⟨behind, some, is, -⟩ | ⟨-, same⟩)
    · exact absurd is (plain behind some)
    · exact beq_iff_eq.mpr same

/-- Letters of a name that no case changes. -/
theorem SameName.star {host behind : Bytes} (same : SameName (42 :: 46 :: behind) host) :
    ∃ rest, host = 42 :: 46 :: rest ∧ SameName behind rest := by
  have fixed : ∀ letter, (lower letter = 42 → letter = 42) ∧ (lower letter = 46 → letter = 46) := by
    have all : ∀ value : Fin 256, (lower (UInt8.ofFin value) = 42 → UInt8.ofFin value = 42) ∧
        (lower (UInt8.ofFin value) = 46 → UInt8.ofFin value = 46) := by
      decide +kernel
    exact fun letter => all letter.toFin
  unfold SameName at same
  rw [List.map_cons, List.map_cons] at same
  obtain ⟨first, host, rfl, star, same⟩ := List.map_eq_cons_iff.mp same.symm
  obtain ⟨second, rest, rfl, dot, same⟩ := List.map_eq_cons_iff.mp same
  rw [(fixed first).1 star, (fixed second).2 dot]
  exact ⟨rest, rfl, same.symm⟩

/-- For a host of this kind the two rules for names are one. -/
theorem dnsMatch_rule {host : Bytes} (nameable : Nameable host) (name : Bytes) :
    dnsMatch name host = true ↔ DnsName name host := by
  rw [dnsMatch_iff]
  constructor
  · rintro (⟨behind, some, rfl, label, rest, dotless, rfl, same⟩ | ⟨-, same⟩)
    · refine Or.inr ⟨label, rest, behind, ?_, dotless, rfl, rfl, same⟩
      rintro rfl
      refine nameable.labelled rest ?_ rfl
      rintro rfl
      exact some (List.map_eq_nil_iff.mp same)
    · exact Or.inl same
  · rintro (same | ⟨label, rest, behind, some, dotless, rfl, rfl, same⟩)
    · by_cases wild : ∃ behind, behind ≠ [] ∧ name = 42 :: 46 :: behind
      · obtain ⟨behind, some, rfl⟩ := wild
        obtain ⟨rest, rfl, tail⟩ := same.star
        exact Or.inl ⟨behind, some, rfl, [42], rest, by decide, rfl, tail⟩
      · exact Or.inr ⟨fun behind some is => wild ⟨behind, some, is⟩, same⟩
    · by_cases empty : behind = []
      · obtain rfl := empty
        obtain rfl := List.map_eq_nil_iff.mp (same : [] = rest.map lower).symm
        by_cases star : label = [42]
        · obtain rfl := star
          exact Or.inr ⟨fun behind some is => some (List.cons.inj (List.cons.inj is).2).2.symm, rfl⟩
        · exact absurd rfl (nameable.ended label some dotless star)
      · exact Or.inl ⟨behind, empty, rfl, label, rest, dotless, rfl, same⟩

/-- A certificate with a common name and no SAN. -/
def named (name : Bytes) : Cert where
  pub := []
  isCa := false
  isRsa := false
  ecCurve := 0
  notBefore := 0
  notAfter := 0
  san := none
  cn := some name

/-- The matcher keeps to the rule on every certificate exactly for the hosts of this kind. For an
address it does on the certificates that name it, or of whose names it takes none. -/
theorem matchHost_rule_iff (host : Bytes) :
    ((∀ cert, matchHost cert host = true ↔ NamesHost cert host) ↔ Nameable host) ∧
      ((∃ address, Ipv4Literal host address) → ∀ cert,
        (matchHost cert host = true ↔ NamesHost cert host) ↔
          (NamesHost cert host ∨ ∀ name ∈ namesOf cert, dnsMatch name host = false)) := by
  have alone : ∀ name, (matchHost (named name) host = true ↔
        host ≠ [] ∧ dnsMatch name host = true) ∧
      (NamesHost (named name) host ↔ NameRule host name) := by
    intro name
    rw [matchHost_iff]
    unfold NamesHost
    simp [namesOf, addressesOf, named]
  have some : (∃ address, Ipv4Literal host address) → host ≠ [] := by
    rintro ⟨address, a, b, c, d, -, -, -, -, rfl, -⟩ none
    exact absurd (List.append_eq_nil_iff.mp none).2 (List.cons_ne_nil _ _)
  refine ⟨⟨fun rule => ?_, fun nameable cert => ?_⟩, fun literal cert => ?_⟩
  · have single : ∀ name, host ≠ [] ∧ dnsMatch name host = true ↔ NameRule host name := fun name =>
      (alone name).1.symm.trans ((rule (named name)).trans (alone name).2)
    have given : host ≠ [] := by
      rintro rfl
      exact ((single []).mpr ⟨fun literal => some literal rfl, Or.inl rfl⟩).1 rfl
    have itself : dnsMatch host host = true := by
      rw [dnsMatch_iff]
      by_cases wild : ∃ behind, behind ≠ [] ∧ host = 42 :: 46 :: behind
      · obtain ⟨behind, more, rfl⟩ := wild
        exact Or.inl ⟨behind, more, rfl, [42], behind, by decide, rfl, rfl⟩
      · exact Or.inr ⟨fun behind more is => wild ⟨behind, more, is⟩, rfl⟩
    have noAddress := ((single host).mp ⟨given, itself⟩).1
    refine ⟨given, noAddress, ?_, ?_⟩
    · rintro rest more rfl
      obtain ⟨-, same | ⟨label, rest', behind, first, dotless, cut, -, -⟩⟩ :=
        (single (42 :: 46 :: rest)).mp ⟨given, dnsMatch_iff.mpr
          (Or.inl ⟨rest, more, rfl, [], rest, List.not_mem_nil, rfl, rfl⟩)⟩
      · have lengths := congrArg List.length (same : List.map lower _ = List.map lower _)
        rw [List.length_map, List.length_map, List.length_cons] at lengths
        omega
      · obtain ⟨letter, label, rfl⟩ := List.exists_cons_of_ne_nil first
        rw [List.cons_append] at cut
        exact dotless ((List.cons.inj cut).1 ▸ List.mem_cons_self)
    · rintro label first dotless notStar rfl
      have matched := ((single [42, 46]).mpr
        ⟨noAddress, Or.inr ⟨label, [], [], first, dotless, rfl, rfl, rfl⟩⟩).2
      obtain ⟨behind, more, is, -⟩ | ⟨-, same⟩ := dnsMatch_iff.mp matched
      · exact more (List.cons.inj (List.cons.inj is).2).2.symm
      · obtain ⟨rest, is, tail⟩ := same.star
        obtain rfl := List.map_eq_nil_iff.mp (tail : [] = rest.map lower).symm
        exact notStar (List.append_cancel_right (is : label ++ [46] = [42] ++ [46]))
  · rw [matchHost_iff]
    unfold NamesHost NameRule
    simp only [dnsMatch_rule nameable, nameable.given, nameable.named, ne_eq, not_false_eq_true,
      true_and]
  · rw [matchHost_iff]
    unfold NamesHost NameRule
    simp only [literal, some literal, not_true, false_and, and_false, exists_false, false_or, ne_eq,
      not_false_eq_true, true_and]
    constructor
    · intro same
      by_cases address : ∃ address ∈ addressesOf cert, address.length = 4 ∧ Ipv4Literal host address
      · exact Or.inl address
      · refine Or.inr fun name member => Bool.eq_false_iff.mpr fun matched => ?_
        exact address (same.mp (Or.inl ⟨name, member, matched⟩))
    · rintro (address | refused)
      · exact ⟨fun _ => address, Or.inr⟩
      · refine ⟨?_, Or.inr⟩
        rintro (⟨name, member, matched⟩ | address)
        · exact absurd matched (Bool.eq_false_iff.mp (refused name member))
        · exact address

/-- The address 1.2.3.4, and a certificate with a dNSName that reads so. -/
def dottedHost : Bytes := [49, 46, 50, 46, 51, 46, 52]

def dottedCert : Cert := { named [] with san := some (0x82 :: 7 :: dottedHost), cn := none }

theorem matchHost_dotted :
    ¬ ∀ cert host, matchHost cert host = true ↔ NamesHost cert host := by
  intro rule
  have literal : Ipv4Literal dottedHost [1, 2, 3, 4] := parseIpv4_iff.mp (by decide +kernel)
  have none : addressesOf dottedCert = [] := by decide +kernel
  rcases (rule dottedCert dottedHost).mp (by decide +kernel) with ⟨name, -, free, -⟩ |
    ⟨address, member, -⟩
  · exact free ⟨_, literal⟩
  · rw [none] at member
    cases member

end MectovOS.Tls
