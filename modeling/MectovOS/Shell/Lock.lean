/-
This file models the lock of src/sys/shell/shell_core.c under which shell commands
run. Each access to the variables that all tasks share is a step of its own, so
the calls of different tasks interleave as they do on several cores. What a task
has acquired and not released is kept beside the variables of the source.
-/

import MectovOS.Lib.Transition
import MectovOS.Task.Runqueue

namespace MectovOS.Shell

open Sched (maxTasks maxCpus)
open Transition

/-! ### The lock -/

abbrev Task := Fin maxTasks

/-- The key of a task on a core, from `task_get_cid` and `get_current_task`. -/
def lockKey (core : Fin maxCpus) (task : Task) : Int := core.val * 65536 + task.val % 65536

/-- `shell_lock`, with the task that took it, and the variables beside it. -/
structure ShellLock where
  holder : Option Task
  eflags : Bool
  owner : Int
  depth : Nat
  savedDepth : Nat
  blockReleased : Bool

/-- The access that a task makes next: inside one of the four functions, `running` outside of them,
and `parked` between `shell_lock_release_for_block` and `shell_lock_reacquire`. -/
inductive Pc where
  | running
  | acquireTest
  | acquireSpin
  | acquireOwner
  | acquireDepth
  | releaseTest
  | releaseDepth
  | releaseOwner
  | releaseUnlock
  | blockTest
  | blockKey
  | blockSave
  | blockDepth
  | blockOwner
  | blockFlag
  | blockUnlock
  | parked
  | reacquireTest
  | reacquireClear
  | reacquireSpin
  | reacquireOwner
  | reacquireDepth
  | reacquireSaved
  deriving DecidableEq

/-- A task: where it is, how many of its acquires it has not released, its core, and whether its
interrupts are on. -/
structure Caller where
  pc : Pc
  nesting : Nat
  core : Fin maxCpus
  interrupts : Bool

/-- `spin_lock_irqsave` on a lock that is free. -/
def takeLock (task : Task) (lock : ShellLock) (caller : Caller) (pc : Pc) : ShellLock × Caller :=
  ({ lock with holder := some task, eflags := caller.interrupts },
    { caller with pc := pc, interrupts := false })

/-- `spin_unlock_irqrestore`. -/
def freeLock (lock : ShellLock) (caller : Caller) (pc : Pc) : ShellLock × Caller :=
  ({ lock with holder := none }, { caller with pc := pc, interrupts := lock.eflags })

/-! ### One access -/

/-- The next access of a task inside a function, and the lock behind it. -/
def access (task : Task) (lock : ShellLock) (caller : Caller) : ShellLock × Caller :=
  match caller.pc with
  | .running => (lock, caller)
  | .acquireTest =>
    if lock.owner = lockKey caller.core task then
      ({ lock with depth := lock.depth + 1 },
        { caller with pc := .running, nesting := caller.nesting + 1 })
    else (lock, { caller with pc := .acquireSpin })
  | .acquireSpin =>
    if lock.holder = none then takeLock task lock caller .acquireOwner else (lock, caller)
  | .acquireOwner =>
    ({ lock with owner := lockKey caller.core task }, { caller with pc := .acquireDepth })
  | .acquireDepth =>
    ({ lock with depth := 1 }, { caller with pc := .running, nesting := caller.nesting + 1 })
  | .releaseTest =>
    if 1 < lock.depth then
      ({ lock with depth := lock.depth - 1 },
        { caller with pc := .running, nesting := caller.nesting - 1 })
    else (lock, { caller with pc := .releaseDepth })
  | .releaseDepth => ({ lock with depth := 0 }, { caller with pc := .releaseOwner })
  | .releaseOwner => ({ lock with owner := -1 }, { caller with pc := .releaseUnlock })
  | .releaseUnlock => freeLock lock { caller with nesting := caller.nesting - 1 } .running
  | .blockTest =>
    if lock.owner < 0 then (lock, { caller with pc := .parked })
    else (lock, { caller with pc := .blockKey })
  | .blockKey =>
    if lock.owner ≠ lockKey caller.core task then (lock, { caller with pc := .parked })
    else (lock, { caller with pc := .blockSave })
  | .blockSave => ({ lock with savedDepth := lock.depth }, { caller with pc := .blockDepth })
  | .blockDepth => ({ lock with depth := 0 }, { caller with pc := .blockOwner })
  | .blockOwner => ({ lock with owner := -1 }, { caller with pc := .blockFlag })
  | .blockFlag => ({ lock with blockReleased := true }, { caller with pc := .blockUnlock })
  | .blockUnlock => freeLock lock caller .parked
  | .parked => (lock, caller)
  | .reacquireTest =>
    if lock.blockReleased = false then (lock, { caller with pc := .running })
    else (lock, { caller with pc := .reacquireClear })
  | .reacquireClear => ({ lock with blockReleased := false }, { caller with pc := .reacquireSpin })
  | .reacquireSpin =>
    if lock.holder = none then takeLock task lock caller .reacquireOwner else (lock, caller)
  | .reacquireOwner =>
    ({ lock with owner := lockKey caller.core task }, { caller with pc := .reacquireDepth })
  | .reacquireDepth =>
    ({ lock with depth := if 0 < lock.savedDepth then lock.savedDepth else 1 },
      { caller with pc := .reacquireSaved })
  | .reacquireSaved => ({ lock with savedDepth := 0 }, { caller with pc := .running })

/-! ### Any number of tasks -/

/-- The lock and the tasks. -/
structure Shells where
  lock : ShellLock
  callers : Task → Caller

def Shells.turn (shells : Shells) (task : Task) (lock : ShellLock) (caller : Caller) : Shells :=
  ⟨lock, Function.update shells.callers task caller⟩

/-- A task calls one of the four functions, makes an access, moves to another core, or is killed,
which leaves its place to another task. -/
inductive ShellEvent where
  | acquire (task : Task)
  | release (task : Task)
  | releaseForBlock (task : Task)
  | reacquire (task : Task)
  | access (task : Task)
  | move (task : Task) (core : Fin maxCpus)
  | kill (task : Task)

/-- The step of an event. A task releases what it has acquired, and goes on behind
`shell_lock_release_for_block` with `shell_lock_reacquire`; it moves while it is blocked or outside
of every command, and it is killed while it is blocked. -/
def Shells.on (shells : Shells) : ShellEvent → Option Shells
  | .acquire task =>
    let caller := shells.callers task
    if caller.pc = .running then
      some (shells.turn task shells.lock { caller with pc := .acquireTest })
    else none
  | .release task =>
    let caller := shells.callers task
    if caller.pc = .running ∧ 0 < caller.nesting then
      some (shells.turn task shells.lock { caller with pc := .releaseTest })
    else none
  | .releaseForBlock task =>
    let caller := shells.callers task
    if caller.pc = .running then
      some (shells.turn task shells.lock { caller with pc := .blockTest })
    else none
  | .reacquire task =>
    let caller := shells.callers task
    if caller.pc = .parked then
      some (shells.turn task shells.lock { caller with pc := .reacquireTest })
    else none
  | .access task =>
    let accessed := access task shells.lock (shells.callers task)
    some (shells.turn task accessed.1 accessed.2)
  | .move task core =>
    let caller := shells.callers task
    if caller.pc = .parked ∨ (caller.pc = .running ∧ caller.nesting = 0) then
      some (shells.turn task shells.lock { caller with core := core })
    else none
  | .kill task =>
    let caller := shells.callers task
    if caller.pc = .parked then
      some (shells.turn task shells.lock { caller with pc := .running, nesting := 0 })
    else none

/-- No task has called anything. -/
def Shells.Initial (shells : Shells) : Prop :=
  shells.lock.holder = none ∧ shells.lock.owner = -1 ∧ shells.lock.depth = 0 ∧
    shells.lock.savedDepth = 0 ∧ shells.lock.blockReleased = false ∧
    ∀ task, (shells.callers task).pc = .running ∧ (shells.callers task).nesting = 0

def shellSystem : System Shells ShellEvent := .ofStep Shells.Initial Shells.on

/-! ### The law -/

/-- Does a task run shell code that it has acquired the lock for? -/
def Shells.Inside (shells : Shells) (task : Task) : Prop :=
  (shells.callers task).pc = .running ∧ 0 < (shells.callers task).nesting

/-- One task at a time is inside; it holds the lock at its own depth; and who is about to free the
lock holds it. -/
structure Exclusive (shells : Shells) : Prop where
  one : ∀ first second, shells.Inside first → shells.Inside second → first = second
  holds : ∀ task, shells.Inside task → shells.lock.holder = some task ∧
    shells.lock.depth = (shells.callers task).nesting
  frees : ∀ task, (shells.callers task).pc = .releaseUnlock ∨
    (shells.callers task).pc = .blockUnlock → shells.lock.holder = some task

/-- Is a task between its call of `shell_lock_release_for_block` and the end of its
`shell_lock_reacquire`? -/
def Pc.blocking : Pc → Bool
  | .blockTest | .blockKey | .blockSave | .blockDepth | .blockOwner | .blockFlag | .blockUnlock
  | .parked | .reacquireTest | .reacquireClear | .reacquireSpin | .reacquireOwner
  | .reacquireDepth | .reacquireSaved => true
  | _ => false

/-- One task blocks at a time, and one that has nothing to release blocks only when the mark of a
killed task does not stand. -/
def oneBlocks (shells : Shells) : ShellEvent → Bool
  | .releaseForBlock task =>
    decide (∀ other, other ≠ task → (shells.callers other).pc.blocking = false) &&
      (decide (0 < (shells.callers task).nesting) || !shells.lock.blockReleased)
  | _ => true

end MectovOS.Shell
