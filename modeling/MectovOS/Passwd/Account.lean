/-
This file models the account password of src/sys/passwd.c: the line of /etc/passwd
that is written and checked, over the read and the write of src/sys/vfs.c for a
file of one sector and its entry in the page cache. What the drive refuses, the
bytes a refused read leaves in the buffer and the random salt are inputs.
-/

import MectovOS.Lib.Transition
import MectovOS.Passwd.Sha256

namespace MectovOS.Passwd

open Transition

/-! ### Strings -/

/-- The argument of a call: bytes without a terminator inside. -/
abbrev Text := { text : Bytes // 0 ∉ text }

/-- The bytes in front of the terminator. -/
def cString (bytes : Bytes) : Bytes := bytes.takeWhile (· ≠ 0)

def colon : UInt8 := 58

/-- `PASSWD_DEFAULT`, which is `mectov123`. -/
def passwdDefault : Bytes := [109, 101, 99, 116, 111, 118, 49, 50, 51]

/-- `PASSWD_MAX_LEN`, `SALT_HEX`, `HASH_HEX` and `LINE_LEN`. -/
def passwdMaxLen : Nat := 31
def saltBytes : Nat := 8
def saltHex : Nat := 16
def hashHex : Nat := 64
def lineLen : Nat := 81

/-- A digit of `to_hex`. -/
def hexDigit (value : UInt8) : UInt8 := if value < 10 then 48 + value else 87 + value

/-- `to_hex`. -/
def toHex (bytes : Bytes) : Bytes :=
  bytes.flatMap fun (byte : UInt8) => [hexDigit (byte >>> 4), hexDigit (byte &&& 15)]

/-! ### The file -/

/-- A sector of the medium. -/
abbrev Sector := { bytes : Bytes // bytes.length = 512 }

/-- The bytes of a buffer that is padded with zeros to a sector. -/
def sectorOf (bytes : Bytes) : Sector :=
  ⟨(bytes ++ List.replicate 512 0).take 512, by
    rw [List.length_take, List.length_append, List.length_replicate]
    omega⟩

/-- The node of /etc/passwd, its sector on the medium, and its entry in the page cache. -/
structure PasswdFile where
  size : Nat
  dataSector : Nat
  medium : Sector
  cached : Option Bytes

/-- `pcache_read`: an entry of another size is none. -/
def PasswdFile.hit (file : PasswdFile) : Option Bytes :=
  file.cached.filter fun bytes => bytes.length == file.size

/-- What a read meets: the bytes that a refused `block_read` leaves in the buffer, and whether
`pcache_insert` finds no memory. -/
structure ReadOutcome where
  refused : Option Sector
  uncached : Bool

/-- `vfs_read_file` on the node: the bytes it hands out. What `block_read` returns is not looked
at. -/
def vfsReadFile (file : PasswdFile) (maxSize : Nat) (outcome : ReadOutcome) : Bytes × PasswdFile :=
  let size := min file.size maxSize
  if size = 0 then ([], file)
  else
    match file.hit with
    | some bytes => (bytes.take size, file)
    | none =>
      if file.dataSector = 0 then ([], file)
      else
        let bytes := (outcome.refused.getD file.medium).val.take size
        (bytes, { file with cached := if outcome.uncached then none else some bytes })

/-- `VFS_DATA_START`. -/
def vfsDataStart : Nat := 2049

/-- What a write meets: the sector that `vfs_alloc_sectors` finds, whether `block_write` and the
save of the node table are refused, and whether `pcache_insert` finds no memory. -/
structure WriteOutcome where
  sector : Option { sector : Nat // vfsDataStart ≤ sector }
  refused : Bool
  uncached : Bool
  saveRefused : Bool

/-- `vfs_write_file_unlocked` on the node, for data of at most one sector. -/
def vfsWriteFile (file : PasswdFile) (data : Bytes) (outcome : WriteOutcome) : Int × PasswdFile :=
  match if file.dataSector = 0 then outcome.sector.map Subtype.val else some file.dataSector with
  | none => (-3, file)
  | some sector =>
    if outcome.refused then (-1, { file with dataSector := sector })
    else
      let written : PasswdFile :=
        { size := data.length
          dataSector := sector
          medium := sectorOf data
          cached := if outcome.uncached then none else some data }
      if (data.length ≠ file.size ∨ sector ≠ file.dataSector) ∧ outcome.saveRefused then
        (-1, written)
      else (data.length, written)

/-! ### The account -/

/-- The directory /etc and the file in it. -/
structure Account where
  etc : Bool
  file : Option PasswdFile

/-- A file that was just created. -/
def emptyFile : PasswdFile := ⟨0, 0, sectorOf [], none⟩

/-- `read_passwd_file`: the bytes without the blanks at their end. -/
def Account.readPasswdFile (account : Account) (outcome : ReadOutcome) : Bytes × Account :=
  match account.file with
  | none => ([], account)
  | some file =>
    let read := vfsReadFile file (lineLen + 1) outcome
    ((read.1.reverse.dropWhile fun byte => byte = 10 || byte = 13 || byte = 32).reverse,
      { account with file := some read.2 })

/-- The salt and the digest of a line, `none` for a line without a colon. -/
def lineParts (bytes : Bytes) : Option (Bytes × Bytes) :=
  match (cString bytes).dropWhile (· ≠ colon) with
  | [] => none
  | _ :: stored => some ((cString bytes).takeWhile (· ≠ colon), stored)

/-- `hash_with_salt`. -/
def hashWithSalt (salt password : Bytes) : Bytes :=
  ((Sha256.init.update salt).update password).final

/-- What `sys_verify_password` answers for the bytes of the file. -/
def verifyLine (bytes password : Bytes) : Bool :=
  if bytes = [] then decide (password = passwdDefault)
  else
    match lineParts bytes with
    | none => decide (password = cString bytes)
    | some (salt, stored) =>
      if salt.length ≠ saltHex ∨ stored.length ≠ hashHex then false
      else decide (toHex (hashWithSalt salt password) = stored)

/-- `sys_verify_password`. -/
def Account.sysVerifyPassword (account : Account) (password : Text) (outcome : ReadOutcome) :
    Bool × Account :=
  let read := account.readPasswdFile outcome
  (verifyLine read.1 password.val, read.2)

/-- The line of a salt and a password. -/
def passwdLine (salt password : Bytes) : Bytes :=
  toHex salt ++ [colon] ++ toHex (hashWithSalt (toHex salt) password)

/-- What `sys_set_password` meets: the random salt, and what the calls into the VFS answer. -/
structure SetOutcome where
  salt : Option { salt : Bytes // salt.length = saltBytes }
  mkdirRefused : Bool
  createRefused : Bool
  write : WriteOutcome

/-- `sys_set_password`. -/
def Account.sysSetPassword (account : Account) (password : Text) (outcome : SetOutcome) :
    Int × Account :=
  let taken := password.val.take passwdMaxLen
  if taken = [] then (-1, account)
  else
    match outcome.salt with
    | none => (-1, account)
    | some salt =>
      if account.etc = false ∧ outcome.mkdirRefused then (-1, account)
      else if account.file.isNone ∧ outcome.createRefused then (-1, { account with etc := true })
      else
        let written := vfsWriteFile (account.file.getD emptyFile) (passwdLine salt.val taken)
          outcome.write
        (written.1, { etc := true, file := some written.2 })

/-- `passwd_ensure_initialized` on its first call: its code is that of the call it makes. -/
def Account.passwdEnsureInitialized (account : Account) (read : ReadOutcome) (default : Text)
    (outcome : SetOutcome) : Int × Account :=
  let file := account.readPasswdFile read
  if 0 < file.1.length then (0, file.2) else file.2.sysSetPassword default outcome

/-! ### Runs -/

/-- An answer of `sys_verify_password`, with the password that was accepted then. -/
structure Checked where
  password : Text
  valid : Bool
  accepted : Text

/-- The account, the password of the last `sys_set_password` that returned success, what was hashed
and what was checked. -/
structure Login where
  account : Account
  accepted : Text
  hashed : List Bytes
  checked : List Checked

/-- A call, or the page cache drops its entry. -/
inductive PasswdEvent where
  | set (password : Text) (outcome : SetOutcome)
  | verify (password : Text) (outcome : ReadOutcome)
  | evict

/-- What a call hashes. -/
def Account.hashes (account : Account) : PasswdEvent → List Bytes
  | .set password outcome =>
    if password.val.take passwdMaxLen = [] then []
    else outcome.salt.toList.map fun salt => toHex salt.val ++ password.val.take passwdMaxLen
  | .verify password outcome =>
    (lineParts (account.readPasswdFile outcome).1).toList.map fun parts => parts.1 ++ password.val
  | .evict => []

/-- The step of a call. -/
def Login.on (login : Login) (event : PasswdEvent) : Login :=
  let login := { login with hashed := login.hashed ++ login.account.hashes event }
  match event with
  | .set password outcome =>
    let set := login.account.sysSetPassword password outcome
    { login with
      account := set.2
      accepted := if set.1 = lineLen then password else login.accepted }
  | .verify password outcome =>
    let verified := login.account.sysVerifyPassword password outcome
    { login with
      account := verified.2
      checked := login.checked ++ [⟨password, verified.1, login.accepted⟩] }
  | .evict =>
    { login with
      account := { login.account with
        file := login.account.file.map fun file => { file with cached := none } } }

theorem passwdDefault_text : 0 ∉ passwdDefault := by decide

def defaultText : Text := ⟨passwdDefault, passwdDefault_text⟩

/-- A fresh disk behind a `passwd_ensure_initialized` that succeeded. -/
def Login.Initial (login : Login) : Prop :=
  ∃ etc read outcome, (Account.mk etc none).passwdEnsureInitialized read defaultText outcome =
      ((lineLen : Int), login.account) ∧
    login.accepted = defaultText ∧
    login.hashed = (Account.mk etc none).hashes (.set defaultText outcome) ∧ login.checked = []

def passwdSystem : System Login PasswdEvent where
  init := Login.Initial
  step login event next := next = login.on event

/-! ### The law -/

/-- Only the password that was accepted is valid, and it is, when SHA-256 keeps apart what was
hashed. -/
def OnlyAccepted (login : Login) : Prop :=
  Set.InjOn sha256 { input | input ∈ login.hashed } →
    ∀ check ∈ login.checked, check.valid = true ↔ check.password = check.accepted

/-- A password is no longer than what is kept of it, and no read that the page cache does not answer
is refused. -/
def shortAndRead (login : Login) : PasswdEvent → Bool
  | .set password _ => decide (password.val.length ≤ passwdMaxLen)
  | .verify _ outcome =>
    outcome.refused.isNone || (login.account.file.bind PasswdFile.hit).isSome
  | .evict => true

end MectovOS.Passwd
