/-
This file models the descriptor tables of src/sys/fd.c and src/sys/pty.c: the
global descriptors with their reference counts, the pipes, the pseudo-terminals,
and the descriptor table of every task, which maps local numbers to global ones.

Every function here is one stretch under `fd_lock`. The exceptions are the
copies that fork, thread creation and spawn make of a descriptor table: they
hold `task_lock` only, so their load and their store of a reference count are
two steps.
-/

import MectovOS.Task.Kernel

namespace MectovOS.Fd

open Function

open Sched (maxTasks rootUid)

/-! ### Descriptors, pipes and pseudo-terminals -/

/-- `MAX_FDS_PER_TASK`, `MAX_GLOBAL_FDS`, `MAX_PIPES`, `PIPE_BUF_SIZE`, `MAX_PTYS` and
`PTY_BUF_SIZE`. -/
def maxFdsPerTask : Nat := 32
def maxGlobalFds : Nat := 256
def maxPipes : Nat := 16
def pipeBufSize : Nat := 4096
def maxPtys : Nat := 16
def ptyBufSize : Nat := 4096

/-- `fd_type_t`. -/
inductive FdType where
  | none
  | file
  | pipeRead
  | pipeWrite
  | dev
  | socket
  | pty
  deriving DecidableEq

/-- `global_fd_t`. -/
structure GlobalFd where
  inUse : Bool
  type : FdType
  vfsNode : Int
  pipeId : Nat
  sockConn : Int
  offset : Int
  flags : Int
  refCount : Int

/-- `pipe_t`. -/
structure Pipe where
  inUse : Bool
  buffer : Nat → UInt8
  readPos : Nat
  writePos : Nat
  closedWrite : Bool

/-- `pty_t`; `slave_closed` is never read. -/
structure Pty where
  inUse : Bool
  m2s : Nat → UInt8
  m2sR : Nat
  m2sW : Nat
  s2m : Nat → UInt8
  s2mR : Nat
  s2mW : Nat
  masterFd : Int
  slaveCount : Int

/-- The shared tables, and `fd_table` of every task; -1 in a task's table is `none`. -/
structure Tables where
  globalFds : Nat → GlobalFd
  pipes : Nat → Pipe
  ptys : Nat → Pty
  fdTable : Nat × Nat → Option Nat

def Tables.setGlobal (tables : Tables) (gfd : Nat) (descriptor : GlobalFd) : Tables :=
  { tables with globalFds := update tables.globalFds gfd descriptor }

def Tables.setPipe (tables : Tables) (pipe : Nat) (value : Pipe) : Tables :=
  { tables with pipes := update tables.pipes pipe value }

def Tables.setPty (tables : Tables) (pty : Nat) (value : Pty) : Tables :=
  { tables with ptys := update tables.ptys pty value }

def Tables.setEntry (tables : Tables) (entry : Nat × Nat) (gfd : Option Nat) : Tables :=
  { tables with fdTable := update tables.fdTable entry gfd }

/-- `global_fds[gfd].in_use = 0`. -/
def Tables.freeGlobal (tables : Tables) (gfd : Nat) : Tables :=
  tables.setGlobal gfd { tables.globalFds gfd with inUse := false }

/-- `pipes[p].in_use = 0`. -/
def Tables.freePipe (tables : Tables) (pipe : Nat) : Tables :=
  tables.setPipe pipe { tables.pipes pipe with inUse := false }

@[simp] theorem setGlobal_self (tables : Tables) (gfd : Nat) (descriptor : GlobalFd) :
    (tables.setGlobal gfd descriptor).globalFds gfd = descriptor := by
  show update tables.globalFds gfd descriptor gfd = descriptor
  rw [update_self]

theorem setGlobal_of_ne (tables : Tables) {gfd other : Nat} (different : other ≠ gfd)
    (descriptor : GlobalFd) :
    (tables.setGlobal gfd descriptor).globalFds other = tables.globalFds other := by
  show update tables.globalFds gfd descriptor other = _
  rw [update_of_ne different]

@[simp] theorem setPipe_self (tables : Tables) (pipe : Nat) (value : Pipe) :
    (tables.setPipe pipe value).pipes pipe = value := by
  show update tables.pipes pipe value pipe = value
  rw [update_self]

theorem setPipe_of_ne (tables : Tables) {pipe other : Nat} (different : other ≠ pipe)
    (value : Pipe) : (tables.setPipe pipe value).pipes other = tables.pipes other := by
  show update tables.pipes pipe value other = _
  rw [update_of_ne different]

/-! ### The table of a task -/

/-- The range checks of `task_get_fd` and `task_set_fd`. -/
def entryOf (tid : Nat) (fd : Int) : Option (Nat × Nat) :=
  if maxTasks ≤ tid then none
  else if fd < 0 ∨ (maxFdsPerTask : Int) ≤ fd then none
  else some (tid, fd.toNat)

/-- `task_get_fd`. -/
def taskGetFd (tables : Tables) (tid : Nat) (fd : Int) : Option Nat :=
  (entryOf tid fd).bind tables.fdTable

/-- `task_set_fd`. -/
def taskSetFd (tables : Tables) (tid : Nat) (fd : Int) (gfd : Option Nat) : Tables :=
  match entryOf tid fd with
  | some entry => tables.setEntry entry gfd
  | none => tables

/-- The uid and the soft `RLIMIT_NOFILE` of the calling task. -/
structure Credentials where
  uid : Int
  nofile : Nat

/-- `task_rlimit_nofile_ok`. -/
def taskRlimitNofileOk (tables : Tables) (tid : Nat) (credentials : Credentials) : Bool :=
  credentials.uid == rootUid || decide (maxFdsPerTask ≤ credentials.nofile) ||
    decide ((List.range maxFdsPerTask).countP (fun fd => (tables.fdTable (tid, fd)).isSome) <
      credentials.nofile)

/-- `task_map_fd`, with the local number it picks. -/
def taskMapFd (tables : Tables) (tid : Nat) (credentials : Credentials) (gfd : Nat) :
    Option (Nat × Tables) :=
  if taskRlimitNofileOk tables tid credentials then
    match (List.range maxFdsPerTask).find? fun fd : Nat => taskGetFd tables tid fd == none with
    | some fd => some (fd, taskSetFd tables tid fd (some gfd))
    | none => none
  else none

/-! ### Opening descriptors -/

/-- `alloc_global_fd`. -/
def allocGlobalFd (tables : Tables) : Option (Nat × Tables) :=
  match (List.range maxGlobalFds).find? fun gfd => !(tables.globalFds gfd).inUse with
  | some gfd =>
    some (gfd, tables.setGlobal gfd
      { tables.globalFds gfd with inUse := true, refCount := 1, offset := 0 })
  | none => none

/-- The common shape of open, socket and accept: allocate a global descriptor, fill it in, map
it into the caller's table, and free it again when the caller has no room. -/
def openDescriptor (tables : Tables) (tid : Nat) (credentials : Credentials)
    (fill : GlobalFd → GlobalFd) : Tables × Int :=
  match allocGlobalFd tables with
  | none => (tables, -1)
  | some (gfd, allocated) =>
    let filled := allocated.setGlobal gfd (fill (allocated.globalFds gfd))
    match taskMapFd filled tid credentials gfd with
    | none => (filled.freeGlobal gfd, -1)
    | some (fd, mapped) => (mapped, fd)

/-- `do_sys_open`; `node` is what `vfs_get_node` finds. -/
def doSysOpen (tables : Tables) (tid : Nat) (credentials : Credentials) (node : Int)
    (isDir : Bool) (mode : Int) : Tables × Int :=
  if node < 0 then (tables, -1)
  else
    openDescriptor tables tid credentials fun descriptor =>
      { descriptor with
        vfsNode := node, type := if isDir then .none else .file, flags := mode }

/-- `sock_socket`. -/
def sockSocket (tables : Tables) (tid : Nat) (credentials : Credentials) (type : Int) :
    Tables × Int :=
  openDescriptor tables tid credentials fun descriptor =>
    { descriptor with
      type := .socket, flags := type, sockConn := -1, offset := 0, vfsNode := -1 }

/-- `sock_accept`; `child` is the connection `net_tcp_accept` hands out, and `SOCK_STREAM` is 1. -/
def sockAccept (tables : Tables) (tid : Nat) (credentials : Credentials) (child : Int) :
    Tables × Int :=
  if child < 0 then (tables, -1)
  else
    openDescriptor tables tid credentials fun descriptor =>
      { descriptor with
        type := .socket, flags := 1, sockConn := child, vfsNode := -1, offset := 0 }

/-! ### Pseudo-terminals -/

/-- `pty_slot_is_master`. -/
def ptySlotIsMaster (tables : Tables) (gfd : Nat) : Option Bool :=
  if maxGlobalFds ≤ gfd ∨ (tables.globalFds gfd).inUse = false then none
  else if (tables.globalFds gfd).type ≠ .pty then none
  else some ((tables.globalFds gfd).flags % 2 = 1)

/-- `pty_claim_gfd`. -/
def ptyClaimGfd (tables : Tables) (pty : Nat) (isMaster : Bool) : Option (Nat × Tables) :=
  if maxPtys ≤ pty ∨ (tables.ptys pty).inUse = false then none
  else
    match (List.range maxGlobalFds).find? fun gfd => !(tables.globalFds gfd).inUse with
    | some gfd =>
      some (gfd, tables.setGlobal gfd
        { tables.globalFds gfd with
          inUse := true, type := .pty, pipeId := pty, flags := if isMaster then 1 else 0,
          refCount := 1, offset := 0, sockConn := -1 })
    | none => none

/-- A pseudo-terminal as `pty_alloc_fd` sets it up. -/
def freshPty : Pty where
  inUse := true
  m2s _ := 0
  m2sR := 0
  m2sW := 0
  s2m _ := 0
  s2mR := 0
  s2mW := 0
  masterFd := -1
  slaveCount := 0

/-- `pty_alloc_fd`. -/
def ptyAllocFd (tables : Tables) : Tables × Option Nat :=
  match (List.range maxPtys).find? fun pty => !(tables.ptys pty).inUse with
  | none => (tables, none)
  | some pty =>
    let cleared := tables.setPty pty freshPty
    match ptyClaimGfd cleared pty true with
    | none => (cleared.setPty pty { freshPty with inUse := false }, none)
    | some (gfd, claimed) => (claimed.setPty pty { freshPty with masterFd := gfd }, some gfd)

/-- `pty_open_slave`. -/
def ptyOpenSlave (tables : Tables) (masterFd : Nat) : Option (Nat × Tables) :=
  if ptySlotIsMaster tables masterFd ≠ some true then none
  else
    let pty := (tables.globalFds masterFd).pipeId
    if (tables.ptys pty).inUse = false then none
    else
      match ptyClaimGfd tables pty false with
      | none => none
      | some (gfd, claimed) =>
        some (gfd, claimed.setPty pty
          { claimed.ptys pty with slaveCount := (claimed.ptys pty).slaveCount + 1 })

/-- What `pty_close` does to the pseudo-terminal of a descriptor. -/
def ptyAfterClose (pty : Pty) (isMaster : Bool) : Pty :=
  if isMaster then
    { pty with masterFd := -1, inUse := if pty.slaveCount ≤ 0 then false else pty.inUse }
  else
    let slaveCount := if 0 < pty.slaveCount then pty.slaveCount - 1 else pty.slaveCount
    { pty with
      slaveCount := slaveCount
      inUse := if slaveCount ≤ 0 ∧ pty.masterFd < 0 then false else pty.inUse }

/-- `pty_close`. -/
def ptyClose (tables : Tables) (gfd : Nat) : Tables :=
  match ptySlotIsMaster tables gfd with
  | none => tables
  | some isMaster =>
    let pty := (tables.globalFds gfd).pipeId
    (tables.setPty pty (ptyAfterClose (tables.ptys pty) isMaster)).setGlobal gfd
      { tables.globalFds gfd with inUse := false, type := .none }

/-- The failure path of the two pseudo-terminal calls. -/
def ptyUnclaim (tables : Tables) (gfd : Nat) : Tables :=
  let closed := ptyClose tables gfd
  closed.setGlobal gfd { closed.globalFds gfd with inUse := false, type := .none }

/-- `do_sys_pty_alloc`. -/
def doSysPtyAlloc (tables : Tables) (tid : Nat) (credentials : Credentials) : Tables × Int :=
  match ptyAllocFd tables with
  | (tables, none) => (tables, -1)
  | (claimed, some gfd) =>
    match taskMapFd claimed tid credentials gfd with
    | none => (ptyUnclaim claimed gfd, -1)
    | some (fd, mapped) => (mapped, fd)

/-- `do_sys_pty_open`. -/
def doSysPtyOpen (tables : Tables) (tid : Nat) (credentials : Credentials) (masterLfd : Int) :
    Tables × Int :=
  match taskGetFd tables tid masterLfd with
  | none => (tables, -1)
  | some mgfd =>
    if ptySlotIsMaster tables mgfd ≠ some true then (tables, -1)
    else
      match ptyOpenSlave tables mgfd with
      | none => (tables, -1)
      | some (gfd, claimed) =>
        match taskMapFd claimed tid credentials gfd with
        | none => (ptyUnclaim claimed gfd, -1)
        | some (fd, mapped) => (mapped, fd)

/-! ### Closing descriptors -/

/-- Does a read end of the pipe remain open? -/
def readOpen (tables : Tables) (pipe : Nat) : Bool :=
  (List.range maxGlobalFds).any fun gfd =>
    (tables.globalFds gfd).inUse && (tables.globalFds gfd).type == .pipeRead &&
      (tables.globalFds gfd).pipeId == pipe

/-- What the last release of a descriptor does to the pipe or pseudo-terminal behind it; a
connection is closed in the network stack. -/
def releaseOwned (tables : Tables) (gfd : Nat) : Tables :=
  let pipe := (tables.globalFds gfd).pipeId
  match (tables.globalFds gfd).type with
  | .pipeWrite =>
    let closed := tables.setPipe pipe { tables.pipes pipe with closedWrite := true }
    if readOpen closed pipe then closed else closed.freePipe pipe
  | .pipeRead => if (tables.pipes pipe).closedWrite then tables.freePipe pipe else tables
  | .pty => ptyClose tables gfd
  | _ => tables

/-- `fd_release_global`. -/
def fdReleaseGlobal (tables : Tables) (gfd : Nat) : Tables :=
  let dropped := tables.setGlobal gfd
    { tables.globalFds gfd with refCount := (tables.globalFds gfd).refCount - 1 }
  if (dropped.globalFds gfd).refCount = 0 then (releaseOwned dropped gfd).freeGlobal gfd
  else dropped

/-- `do_sys_close`. -/
def doSysClose (tables : Tables) (tid : Nat) (fd : Int) : Tables × Int :=
  match taskGetFd tables tid fd with
  | none => (tables, -1)
  | some gfd =>
    if (tables.globalFds gfd).inUse then (fdReleaseGlobal (taskSetFd tables tid fd none) gfd, 0)
    else (tables, -1)

/-- One turn of the loop of `task_close_all_fds`, which is also that of `task_rewire_fds`. -/
def dropFd (tables : Tables) (tid : Nat) (fd : Int) : Tables :=
  match taskGetFd tables tid fd with
  | none => tables
  | some gfd =>
    let cleared := taskSetFd tables tid fd none
    if gfd < maxGlobalFds ∧ (tables.globalFds gfd).inUse then fdReleaseGlobal cleared gfd
    else cleared

/-- `do_sys_dup2_tid`, called by the task `current`. -/
def doSysDup2Tid (tables : Tables) (current : Nat) (credentials : Credentials) (tid : Nat)
    (oldfd newfd : Int) : Tables × Int :=
  if oldfd < 0 ∨ (maxFdsPerTask : Int) ≤ oldfd then (tables, -1)
  else if newfd < 0 ∨ (maxFdsPerTask : Int) ≤ newfd then (tables, -1)
  else if oldfd = newfd then (tables, newfd)
  else
    match taskGetFd tables tid oldfd with
    | none => (tables, -1)
    | some ogfd =>
      if (tables.globalFds ogfd).inUse = false then (tables, -1)
      else if tid = current ∧ taskGetFd tables tid newfd = none ∧
          taskRlimitNofileOk tables current credentials = false then (tables, -1)
      else
        let closed :=
          match taskGetFd tables tid newfd with
          | none => tables
          | some ngfd =>
            if (tables.globalFds ngfd).inUse then
              fdReleaseGlobal (taskSetFd tables tid newfd none) ngfd
            else tables
        let shared := closed.setGlobal ogfd
          { closed.globalFds ogfd with refCount := (closed.globalFds ogfd).refCount + 1 }
        (taskSetFd shared tid newfd (some ogfd), newfd)

/-! ### Pipes -/

/-- A failed `do_sys_pipe` between its stretches: what it allocated and what it mapped. -/
structure PipeCleanup where
  pipe : Nat
  gRead : Nat
  gWrite : Nat
  r0 : Option Nat
  r1 : Option Nat

/-- How the first stretch of `do_sys_pipe` ends. -/
inductive PipeOutcome where
  | opened (r0 r1 : Nat)
  | failed
  | cleanup (rest : PipeCleanup)

/-- `do_sys_pipe` up to its return or to the release of the lock before its cleanup. -/
def doSysPipe (tables : Tables) (tid : Nat) (credentials : Credentials) :
    Tables × PipeOutcome :=
  match (List.range maxPipes).find? fun pipe => !(tables.pipes pipe).inUse with
  | none => (tables, .failed)
  | some pipe =>
    let cleared := tables.setPipe pipe
      { tables.pipes pipe with inUse := true, readPos := 0, writePos := 0, closedWrite := false }
    match allocGlobalFd cleared with
    | none => (cleared.freePipe pipe, .failed)
    | some (gRead, allocated) =>
      let withRead := allocated.setGlobal gRead
        { allocated.globalFds gRead with type := .pipeRead, pipeId := pipe }
      match allocGlobalFd withRead with
      | none => ((withRead.freeGlobal gRead).freePipe pipe, .failed)
      | some (gWrite, allocated) =>
        let withWrite := allocated.setGlobal gWrite
          { allocated.globalFds gWrite with type := .pipeWrite, pipeId := pipe }
        let first := taskMapFd withWrite tid credentials gRead
        let mapped := (first.map Prod.snd).getD withWrite
        let second := taskMapFd mapped tid credentials gWrite
        let both := (second.map Prod.snd).getD mapped
        match first, second with
        | some (r0, _), some (r1, _) => (both, .opened r0 r1)
        | _, _ => (both, .cleanup ⟨pipe, gRead, gWrite, first.map Prod.fst, second.map Prod.fst⟩)

/-- One end in the cleanup of `do_sys_pipe`: close it where it is mapped, else free it. -/
def pipeCleanupEnd (tables : Tables) (tid gfd : Nat) : Option Nat → Tables
  | some fd => (doSysClose tables tid fd).1
  | none => tables.freeGlobal gfd

/-! ### Copies of a table -/

/-- `memcpy` of the parent's table in `fork_common`. -/
def copyTable (tables : Tables) (parent child : Nat) : Tables :=
  { tables with
    fdTable := fun entry =>
      if entry.1 = child ∧ entry.2 < maxFdsPerTask then tables.fdTable (parent, entry.2)
      else tables.fdTable entry }

/-- The reset of a claimed slot's table in `thread_create_ex`, `task_fork_exec` and
`create_task`. -/
def resetTable (tables : Tables) (child : Nat) : Tables :=
  { tables with
    fdTable := fun entry =>
      if entry.1 = child ∧ entry.2 < maxFdsPerTask then none else tables.fdTable entry }

/-- The load of a copy: the descriptor to share, when it is in use, with its count. -/
def copyLoad (tables : Tables) (entry : Nat × Nat) : Option (Nat × Int) :=
  match tables.fdTable entry with
  | some gfd =>
    if gfd < maxGlobalFds ∧ (tables.globalFds gfd).inUse then
      some (gfd, (tables.globalFds gfd).refCount)
    else none
  | none => none

/-- The store of a copy: the loaded count plus one, and the entry of the child. -/
def copyStore (tables : Tables) (entry : Nat × Nat) (gfd : Nat) (loaded : Int) : Tables :=
  (tables.setEntry entry (some gfd)).setGlobal gfd
    { tables.globalFds gfd with refCount := loaded + 1 }

end MectovOS.Fd
