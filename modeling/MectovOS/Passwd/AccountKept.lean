/-
This file proves that only the accepted password is valid in every run with short
passwords and accurate reads, and shows a refused read that lets everyone in.
-/

import MectovOS.Passwd.Account

namespace MectovOS.Passwd

open Transition

variable {account : Account} {login : Login} {salt password : Bytes}

/-! ### Hexadecimal digits -/

/-- Every byte, one by one. -/
theorem forall_byte (holds : UInt8 → Prop) (all : ∀ index : Fin 256, holds (UInt8.ofFin index))
    (byte : UInt8) : holds byte := all byte.toFin

/-- A byte that ends no string and is neither blank nor a colon. -/
def Plain (byte : UInt8) : Prop :=
  byte ≠ 0 ∧ byte ≠ colon ∧ ¬ (byte = 10 ∨ byte = 13 ∨ byte = 32)

instance (byte : UInt8) : Decidable (Plain byte) := by
  unfold Plain
  infer_instance

theorem hexDigit_plain (byte : UInt8) :
    Plain (hexDigit (byte >>> 4)) ∧ Plain (hexDigit (byte &&& 15)) :=
  forall_byte (fun byte => Plain (hexDigit (byte >>> 4)) ∧ Plain (hexDigit (byte &&& 15)))
    (by decide +kernel) byte

/-- The value of a digit. -/
def digitValue (digit : UInt8) : UInt8 := if digit < 58 then digit - 48 else digit - 87

theorem digitValue_hexDigit (byte : UInt8) :
    (digitValue (hexDigit (byte >>> 4)) <<< 4) ||| digitValue (hexDigit (byte &&& 15)) = byte :=
  forall_byte (fun byte => (digitValue (hexDigit (byte >>> 4)) <<< 4) |||
    digitValue (hexDigit (byte &&& 15)) = byte) (by decide +kernel) byte

theorem toHex_cons (byte : UInt8) (rest : Bytes) :
    toHex (byte :: rest) = hexDigit (byte >>> 4) :: hexDigit (byte &&& 15) :: toHex rest := rfl

theorem toHex_length (bytes : Bytes) : (toHex bytes).length = 2 * bytes.length := by
  induction bytes with
  | nil => rfl
  | cons byte rest inductionHypothesis =>
    rw [toHex_cons, List.length_cons, List.length_cons, inductionHypothesis, List.length_cons]
    omega

theorem toHex_plain (bytes : Bytes) : ∀ digit ∈ toHex bytes, Plain digit := by
  intro digit member
  obtain ⟨byte, -, is⟩ := List.mem_flatMap.mp member
  rcases List.mem_cons.mp is with rfl | is
  · exact (hexDigit_plain byte).1
  · obtain rfl := List.mem_singleton.mp is
    exact (hexDigit_plain byte).2

theorem toHex_injective : Function.Injective toHex := by
  intro first
  induction first with
  | nil =>
    intro second same
    cases second with
    | nil => rfl
    | cons byte rest => cases same
  | cons byte rest inductionHypothesis =>
    intro second same
    cases second with
    | nil => cases same
    | cons other others =>
      rw [toHex_cons, toHex_cons, List.cons.injEq, List.cons.injEq] at same
      obtain ⟨high, low, behind⟩ := same
      have bytes := digitValue_hexDigit byte
      rw [high, low, digitValue_hexDigit other] at bytes
      rw [inductionHypothesis behind, bytes]

/-! ### The line -/

theorem hashWithSalt_eq (salt password : Bytes) :
    hashWithSalt salt password = sha256 (salt ++ password) := by
  rw [hashWithSalt, Sha256.update_append, sha256]

theorem passwdLine_length (short : salt.length = saltBytes) :
    (passwdLine salt password).length = lineLen := by
  rw [passwdLine, List.length_append, List.length_append, toHex_length, toHex_length, short,
    hashWithSalt_eq, sha256_length]
  rfl

theorem passwdLine_mem {byte : UInt8} (member : byte ∈ passwdLine salt password) :
    byte ≠ 0 ∧ ¬ (byte = 10 ∨ byte = 13 ∨ byte = 32) := by
  rcases List.mem_append.mp member with front | digest
  · rcases List.mem_append.mp front with digit | is
    · exact ⟨(toHex_plain _ _ digit).1, (toHex_plain _ _ digit).2.2⟩
    · obtain rfl := List.mem_singleton.mp is
      decide
  · exact ⟨(toHex_plain _ _ digest).1, (toHex_plain _ _ digest).2.2⟩

theorem cString_line : cString (passwdLine salt password) = passwdLine salt password :=
  List.takeWhile_eq_self_iff.mpr fun _ member => decide_eq_true (passwdLine_mem member).1

/-- The parts of a line. -/
theorem lineParts_line : lineParts (passwdLine salt password) =
    some (toHex salt, toHex (hashWithSalt (toHex salt) password)) := by
  have front : ∀ digit ∈ toHex salt, (decide (digit ≠ colon)) = true :=
    fun digit member => decide_eq_true (toHex_plain _ digit member).2.1
  have stops (digest : Bytes) :
      (colon :: digest).dropWhile (fun digit => decide (digit ≠ colon)) = colon :: digest ∧
        (colon :: digest).takeWhile (fun digit => decide (digit ≠ colon)) = [] :=
    ⟨List.dropWhile_cons_of_neg (by decide), List.takeWhile_cons_of_neg (by decide)⟩
  rw [lineParts, cString_line, passwdLine, List.append_assoc, List.singleton_append,
    List.dropWhile_append_of_pos front, List.takeWhile_append_of_pos front,
    (stops _).1, (stops _).2, List.append_nil]

/-- A line is checked by the digest. -/
theorem verifyLine_line (short : salt.length = saltBytes) (other : Bytes) :
    verifyLine (passwdLine salt password) other = true ↔
      sha256 (toHex salt ++ other) = sha256 (toHex salt ++ password) := by
  have some : passwdLine salt password ≠ [] := by
    intro empty
    have length : (passwdLine salt password).length = lineLen := passwdLine_length short
    rw [empty] at length
    exact absurd length (by decide)
  have sizes : ¬ ((toHex salt).length ≠ saltHex ∨
      (toHex (hashWithSalt (toHex salt) password)).length ≠ hashHex) := by
    rw [toHex_length, toHex_length, short, hashWithSalt_eq, sha256_length]
    decide
  rw [verifyLine, if_neg some, lineParts_line]
  dsimp only
  rw [if_neg sizes, decide_eq_true_iff, hashWithSalt_eq, hashWithSalt_eq]
  exact toHex_injective.eq_iff

/-! ### The file behind an accepted password -/

/-- The file holds the line of a password, on the medium and in the page cache. -/
structure Holds (file : PasswdFile) (line : Bytes) : Prop where
  size : file.size = lineLen
  sector : file.dataSector ≠ 0
  medium : file.medium.val.take lineLen = line
  cached : file.cached = none ∨ file.cached = some line

/-- The trimmed line is the line. -/
theorem trim_line {line : Bytes}
    (plain : ∀ byte ∈ line, ¬ (byte = 10 ∨ byte = 13 ∨ byte = 32)) :
    (line.reverse.dropWhile fun byte => byte = 10 || byte = 13 || byte = 32).reverse = line := by
  have whole : line.reverse.dropWhile (fun byte => byte = 10 || byte = 13 || byte = 32) =
      line.reverse := by
    cases reversed : line.reverse with
    | nil => rfl
    | cons last rest =>
      refine List.dropWhile_cons_of_neg fun blank => ?_
      have member : last ∈ line := by
        rw [← List.mem_reverse, reversed]
        exact List.mem_cons_self
      refine plain last member ?_
      rw [Bool.or_eq_true, Bool.or_eq_true, decide_eq_true_iff, decide_eq_true_iff,
        decide_eq_true_iff, or_assoc] at blank
      exact blank
  rw [whole, List.reverse_reverse]

theorem PasswdFile.hit_some {file : PasswdFile} {bytes : Bytes} (cached : file.cached = some bytes)
    (length : bytes.length = file.size) : file.hit = some bytes := by
  rw [PasswdFile.hit, cached]
  exact Option.filter_some_pos (beq_iff_eq.mpr length)

/-- An accurate read hands out the line. -/
theorem Holds.read {file : PasswdFile} {line : Bytes} (holds : Holds file line)
    (length : line.length = lineLen) {outcome : ReadOutcome}
    (accurate : outcome.refused = none ∨ file.hit.isSome = true) :
    (vfsReadFile file (lineLen + 1) outcome).1 = line ∧
      Holds (vfsReadFile file (lineLen + 1) outcome).2 line := by
  have size : min file.size (lineLen + 1) = lineLen := by
    rw [holds.size]
    rfl
  rw [vfsReadFile, size, if_neg (by decide)]
  rcases holds.cached with missing | cached
  · have miss : file.hit = none := by
      rw [PasswdFile.hit, missing]
      rfl
    have read : outcome.refused = none := by
      refine accurate.resolve_right fun some => ?_
      rw [miss] at some
      exact Bool.noConfusion some
    rw [miss]
    dsimp only
    rw [if_neg holds.sector, read]
    refine ⟨holds.medium, holds.size, holds.sector, holds.medium, ?_⟩
    dsimp only [Option.getD_none]
    rw [holds.medium]
    split
    · exact Or.inl rfl
    · exact Or.inr rfl
  · rw [PasswdFile.hit_some cached (length.trans holds.size.symm)]
    exact ⟨List.take_of_length_le length.le, holds⟩

/-- A write that is not refused leaves the new line, and one that is leaves the old one. -/
theorem Holds.write {file : PasswdFile} {line data : Bytes} (holds : Holds file line)
    (length : data.length = lineLen) (outcome : WriteOutcome) :
    (vfsWriteFile file data outcome).1 = lineLen ∧ Holds (vfsWriteFile file data outcome).2 data ∨
      (vfsWriteFile file data outcome).1 ≠ lineLen ∧
        Holds (vfsWriteFile file data outcome).2 line := by
  rw [vfsWriteFile, if_neg holds.sector]
  dsimp only
  split
  · exact Or.inr ⟨show (-1 : Int) ≠ lineLen from by decide, holds.size, holds.sector, holds.medium, holds.cached⟩
  · rw [if_neg (fun moved => moved.1.elim (fun grown => grown (length.trans holds.size.symm))
      (fun other => other rfl))]
    refine Or.inl ⟨congrArg Nat.cast length, length, holds.sector, ?_, ?_⟩
    · show ((data ++ List.replicate 512 0).take 512).take lineLen = data
      rw [List.take_take, ← length, Nat.min_eq_left (length.trans_le (by decide)), List.take_left]
    · dsimp only
      split
      · exact Or.inl rfl
      · exact Or.inr rfl

/-! ### Calls -/

/-- The file holds the line of the accepted password, which was hashed. -/
def Ready (login : Login) : Prop :=
  ∃ file salt, login.account.file = some file ∧ salt.length = saltBytes ∧
    Holds file (passwdLine salt login.accepted.val) ∧
    toHex salt ++ login.accepted.val ∈ login.hashed

/-- What an accurate check reads. -/
theorem Ready.read (ready : Ready login) {outcome : ReadOutcome}
    (accurate : outcome.refused = none ∨
      (login.account.file.bind PasswdFile.hit).isSome = true) :
    ∃ file salt, salt.length = saltBytes ∧
      login.account.readPasswdFile outcome =
        (passwdLine salt login.accepted.val, { login.account with file := some file }) ∧
      Holds file (passwdLine salt login.accepted.val) ∧
      toHex salt ++ login.accepted.val ∈ login.hashed := by
  obtain ⟨file, salt, is, short, holds, hashed⟩ := ready
  rw [is] at accurate
  obtain ⟨line, after⟩ := holds.read (passwdLine_length short) accurate
  refine ⟨_, salt, short, ?_, after, hashed⟩
  rw [Account.readPasswdFile, is]
  dsimp only
  rw [line, trim_line fun byte member => (passwdLine_mem member).2]

/-- A call of `sys_set_password` returns success with the new line in the file, or fails with the
old one. -/
theorem sysSetPassword_holds {file : PasswdFile} {line : Bytes} (is : account.file = some file)
    (holds : Holds file line) (password : Text) (outcome : SetOutcome) :
    (∃ after, (account.sysSetPassword password outcome).2.file = some after ∧ Holds after line ∧
        (account.sysSetPassword password outcome).1 ≠ lineLen) ∨
      ∃ after salt, (account.sysSetPassword password outcome).2.file = some after ∧
        (account.sysSetPassword password outcome).1 = lineLen ∧ outcome.salt = some salt ∧
        password.val.take passwdMaxLen ≠ [] ∧
        Holds after (passwdLine salt.val (password.val.take passwdMaxLen)) := by
  have refused : (-1 : Int) ≠ lineLen := by decide
  rw [Account.sysSetPassword]
  dsimp only
  split
  · exact Or.inl ⟨file, is, holds, refused⟩
  next some =>
  split
  · exact Or.inl ⟨file, is, holds, refused⟩
  next salt salted =>
  split
  · exact Or.inl ⟨file, is, holds, refused⟩
  rw [is, if_neg (fun both => Bool.noConfusion both.1)]
  dsimp only [Option.getD_some]
  rcases holds.write (passwdLine_length salt.property) outcome.write with
    ⟨done, after⟩ | ⟨failed, after⟩
  · exact Or.inr ⟨_, salt, rfl, done, salted, some, after⟩
  · exact Or.inl ⟨_, rfl, after, failed⟩

/-- A call of `sys_set_password` with a short password. -/
theorem Ready.set (ready : Ready login) (password : Text) (outcome : SetOutcome)
    (short : password.val.length ≤ passwdMaxLen) :
    Ready (login.on (.set password outcome)) := by
  obtain ⟨file, salt, is, saltShort, holds, hashed⟩ := ready
  have taken : password.val.take passwdMaxLen = password.val := List.take_of_length_le short
  have accepted : (login.on (.set password outcome)).accepted =
      if (login.account.sysSetPassword password outcome).1 = lineLen then password
      else login.accepted := rfl
  rcases sysSetPassword_holds is holds password outcome with
    ⟨after, now, line, failed⟩ | ⟨after, fresh, now, done, salted, some, line⟩
  · rw [if_neg failed] at accepted
    refine ⟨after, salt, now, saltShort, ?_, ?_⟩
    · rw [accepted]
      exact line
    · rw [accepted]
      exact List.mem_append_left _ hashed
  · rw [if_pos done] at accepted
    rw [taken] at line some
    refine ⟨after, fresh.val, now, fresh.property, ?_, ?_⟩
    · rw [accepted]
      exact line
    · rw [accepted]
      refine List.mem_append_right _ ?_
      rw [Account.hashes, taken, if_neg some, salted]
      exact List.mem_singleton.mpr rfl

/-- An accurate check keeps the account and answers by the accepted password. -/
theorem Ready.verify (ready : Ready login) (password : Text) {outcome : ReadOutcome}
    (accurate : outcome.refused = none ∨
      (login.account.file.bind PasswdFile.hit).isSome = true) :
    Ready (login.on (.verify password outcome)) ∧
      (Set.InjOn sha256 { input | input ∈ (login.on (.verify password outcome)).hashed } →
        ((login.account.sysVerifyPassword password outcome).1 = true ↔
          password = login.accepted)) := by
  obtain ⟨file, salt, short, read, holds, hashed⟩ := ready.read accurate
  refine ⟨?_, fun injective => ?_⟩
  · refine ⟨file, salt, ?_, short, holds, List.mem_append_left _ hashed⟩
    show (login.account.sysVerifyPassword password outcome).2.file = some file
    rw [Account.sysVerifyPassword, read]
  · have mine : toHex salt ++ password.val ∈ (login.on (.verify password outcome)).hashed := by
      refine List.mem_append_right _ ?_
      rw [Account.hashes, read, lineParts_line]
      exact List.mem_singleton.mpr rfl
    rw [Account.sysVerifyPassword, read]
    dsimp only
    rw [verifyLine_line short]
    constructor
    · intro same
      have inputs := injective mine (List.mem_append_left _ hashed) same
      exact Subtype.ext (List.append_cancel_left inputs)
    · rintro rfl
      rfl

/-- The page cache may drop its entry. -/
theorem Ready.evict (ready : Ready login) : Ready (login.on .evict) := by
  obtain ⟨file, salt, is, short, holds, hashed⟩ := ready
  refine ⟨{ file with cached := none }, salt, ?_, short,
    ⟨holds.size, holds.sector, holds.medium, Or.inl rfl⟩, List.mem_append_left _ hashed⟩
  show login.account.file.map _ = _
  rw [is]
  rfl

/-- What was checked before stays as it was. -/
theorem OnlyAccepted.mono {next : Login} (only : OnlyAccepted login)
    (hashed : ∀ input ∈ login.hashed, input ∈ next.hashed) (same : next.checked = login.checked) :
    OnlyAccepted next := by
  intro injective
  rw [same]
  exact only (injective.mono hashed)

/-- A write to a new file that returns success leaves the line. -/
theorem vfsWriteFile_new {data : Bytes} (length : data.length = lineLen) {outcome : WriteOutcome}
    (done : (vfsWriteFile emptyFile data outcome).1 = lineLen) :
    Holds (vfsWriteFile emptyFile data outcome).2 data := by
  have refused : (-1 : Int) ≠ lineLen := by decide
  have full : (-3 : Int) ≠ lineLen := by decide
  rw [vfsWriteFile, if_pos (show emptyFile.dataSector = 0 from rfl)] at done ⊢
  cases found : outcome.sector with
  | none =>
    rw [found] at done
    exact absurd done full
  | some start =>
    rw [found] at done
    dsimp only [Option.map_some] at done ⊢
    split at done
    · exact absurd done refused
    split at done
    · exact absurd done refused
    next unrefused unsaved =>
    rw [if_neg unrefused, if_neg unsaved]
    have positive : start.val ≠ 0 := by
      have := start.property
      have : vfsDataStart = 2049 := rfl
      omega
    refine ⟨length, positive, ?_, ?_⟩
    · show ((data ++ List.replicate 512 0).take 512).take lineLen = data
      rw [List.take_take, ← length, Nat.min_eq_left (length.trans_le (by decide)), List.take_left]
    · dsimp only
      split
      · exact Or.inl rfl
      · exact Or.inr rfl

/-- A fresh account behind a write that returned success. -/
theorem Ready.initial (initial : login.Initial) : Ready login := by
  obtain ⟨etc, read, outcome, ensured, accepted, hashed, -⟩ := initial
  have refused : (-1 : Int) ≠ lineLen := by decide
  have code := congrArg Prod.fst ensured
  have file := congrArg (fun result => result.2.file) ensured
  rw [show (Account.mk etc none).passwdEnsureInitialized read defaultText outcome =
    (Account.mk etc none).sysSetPassword defaultText outcome from rfl, Account.sysSetPassword,
    if_neg (show defaultText.val.take passwdMaxLen ≠ [] by decide)] at code file
  cases salted : outcome.salt with
  | none =>
    rw [salted] at code
    exact absurd code refused
  | some salt =>
    rw [salted] at code file
    dsimp only at code file
    split at code
    · exact absurd code refused
    split at code
    · exact absurd code refused
    next made created =>
    rw [if_neg made, if_neg created] at file
    refine ⟨_, salt.val, file.symm, salt.property, ?_, ?_⟩
    · rw [accepted]
      exact vfsWriteFile_new (passwdLine_length salt.property) code
    · rw [hashed, accepted, Account.hashes,
        if_neg (show defaultText.val.take passwdMaxLen ≠ [] by decide), salted]
      exact List.mem_singleton.mpr rfl

/-! ### The law -/

/-- A write and a read that nothing refuses, and a set with a salt. -/
def writes : WriteOutcome := ⟨some ⟨vfsDataStart, le_refl _⟩, false, false, false⟩
def reads : ReadOutcome := ⟨none, false⟩
def salted (byte : UInt8) : SetOutcome :=
  ⟨some ⟨List.replicate 8 byte, List.length_replicate⟩, false, false, writes⟩

/-- A fresh disk with its first login. -/
def firstLogin : Login where
  account := ((Account.mk false none).sysSetPassword defaultText (salted 1)).2
  accepted := defaultText
  hashed := (Account.mk false none).hashes (.set defaultText (salted 1))
  checked := []

theorem firstLogin_initial : firstLogin.Initial :=
  ⟨false, reads, salted 1, Prod.ext rfl rfl, rfl, rfl, rfl⟩

/-- The password `owl`. -/
def owl : Text := ⟨[111, 119, 108], by decide⟩

/-- A change of the password, and two checks. -/
def changeAndCheck : List PasswdEvent :=
  [.set owl (salted 2), .evict, .verify owl reads, .verify defaultText reads]

/-- The login behind some calls, and whether all of them are accurate. -/
def Login.after (login : Login) (events : List PasswdEvent) : Login := events.foldl Login.on login

def Login.accurate (login : Login) : List PasswdEvent → Bool
  | [] => true
  | event :: rest => shortAndRead login event && (login.on event).accurate rest

theorem reachable_after {guard : Login → PasswdEvent → Prop} {events : List PasswdEvent}
    (reachable : passwdSystem.Reachable guard login)
    (allowed : ∀ login event, event ∈ events → guard login event) :
    passwdSystem.Reachable guard (login.after events) := by
  induction events generalizing login with
  | nil => exact reachable
  | cons event rest inductionHypothesis =>
    exact inductionHypothesis (reachable.step (allowed login event List.mem_cons_self) rfl)
      fun login other member => allowed login other (List.mem_cons_of_mem _ member)

theorem reachable_accurate {events : List PasswdEvent}
    (reachable : passwdSystem.Reachable (fun login event => shortAndRead login event) login)
    (accurate : login.accurate events = true) :
    passwdSystem.Reachable (fun login event => shortAndRead login event) (login.after events) := by
  induction events generalizing login with
  | nil => exact reachable
  | cons event rest inductionHypothesis =>
    obtain ⟨one, others⟩ := Bool.and_eq_true_iff.mp accurate
    exact inductionHypothesis (reachable.step one rfl) others

theorem changeAndCheck_accurate : firstLogin.accurate changeAndCheck = true := by decide +kernel

theorem changeAndCheck_nodup : ((firstLogin.after changeAndCheck).hashed.dedup.map sha256).Nodup := by
  decide +kernel

theorem changeAndCheck_distinct : ∀ first ∈ (firstLogin.after changeAndCheck).hashed,
    ∀ second ∈ (firstLogin.after changeAndCheck).hashed,
      sha256 first = sha256 second → first = second :=
  fun _ first _ second same => List.inj_on_of_nodup_map changeAndCheck_nodup
    (List.mem_dedup.mpr first) (List.mem_dedup.mpr second) same

theorem changeAndCheck_answers :
    (firstLogin.after changeAndCheck).checked.map Checked.valid = [true, false] := by
  decide +kernel

/-- The empty string. -/
def nothing : Text := ⟨[], List.not_mem_nil⟩

/-- The page cache drops the file, and the read behind it is refused with zeros in the buffer. -/
def refusedRead : List PasswdEvent := [.evict, .verify nothing ⟨some (sectorOf []), false⟩]

theorem refusedRead_answers :
    (firstLogin.after refusedRead).checked.map
        (fun check => (check.valid, check.password, check.accepted)) =
      [(true, nothing, defaultText)] ∧
      (firstLogin.after refusedRead).hashed.length = 1 := by decide +kernel

end MectovOS.Passwd
