/-
This file models the futexes of src/sys/sync.c as a transition system: tasks
wait on words of their address space, wake the waiters of a word and move them
to another one, and the sweep releases those whose time is up, while signals,
deaths and new tasks change the states of the waiters. Each function is one step
under `sync_lock`, and a wait returns in a step of its own.
-/

import MectovOS.Sync.Tasks
import MectovOS.Lib.Transition

namespace MectovOS.Sync

open Sched (maxTasks)
open Transition Function

/-! ### Futexes -/

/-- `MAX_FUTEX`, and `MAX_WAITERS` for the queue of a futex. -/
def maxFutex : Nat := 64
def maxParkers : Nat := 32

/-- An entry of a queue: the task, its deadline (0 for none) and, which the kernel does not keep,
when the entry joined the queue. -/
structure Entry where
  tid : Nat
  expire : Nat
  joined : Nat

/-- `futex_t`: the key is the page directory and the address. -/
structure Futex where
  inUse : Bool
  key : Nat × Nat
  waiters : List Entry

/-- A `futex_wait` that has parked: the word it is queued on now, and whether a wake or the sweep
has released it. -/
structure FutexPark where
  key : Nat × Nat
  released : Bool

/-- The futexes and the tasks, with the address space of each task, the parked calls,
`timer_ticks`, and the number of times an entry has joined a queue. -/
structure Futexes where
  futexes : Nat → Futex
  tasks : Tasks
  pageDir : Nat → Nat
  parks : Nat → Option FutexPark
  ticks : Nat
  joins : Nat

def Futexes.setFutex (state : Futexes) (index : Nat) (futex : Futex) : Futexes :=
  { state with futexes := update state.futexes index futex }

/-- `futex_find`. -/
def futexFind (state : Futexes) (key : Nat × Nat) : Option Nat :=
  (List.range maxFutex).find? fun index =>
    (state.futexes index).inUse && decide ((state.futexes index).key = key)

/-- `futex_alloc`. -/
def futexAlloc (state : Futexes) (key : Nat × Nat) : Option (Nat × Futexes) :=
  match futexFind state key with
  | some index => some (index, state)
  | none =>
    match (List.range maxFutex).find? fun index => !(state.futexes index).inUse with
    | some index => some (index, state.setFutex index ⟨true, key, []⟩)
    | none => none

/-! ### Waiting and waking -/

/-- The deadline of a wait; a timeout of 0 expires on the next sweep. -/
def deadline (ticks : Nat) : Option Nat → Nat
  | none => 0
  | some timeout => (ticks + if timeout = 0 then 1 else timeout) % 2 ^ 32

/-- `futex_wait` and `futex_wait_timeout` from the check of the word under the lock on, up to
their return or to the park. -/
def futexWait (state : Futexes) (tid addr : Nat) (equal : Bool) (timeout : Option Nat) : Futexes :=
  if equal = false then state
  else
    let key := (state.pageDir tid, addr)
    match futexAlloc state key with
    | none => state
    | some (index, found) =>
      let futex := found.futexes index
      if maxParkers ≤ futex.waiters.length then found
      else
        let entry : Entry := ⟨tid, deadline state.ticks timeout, state.joins⟩
        let queued := found.setFutex index { futex with waiters := futex.waiters ++ [entry] }
        { queued with
          tasks := taskSetState state.tasks tid .blocked
          parks := update state.parks tid (some ⟨key, false⟩)
          joins := state.joins + 1 }

/-- The loop that wakes up to a number of waiters: the tasks it woke, the queue and the tasks it
leaves. -/
def wakeUpTo (tasks : Tasks) : Nat → List Entry → List Nat × List Entry × Tasks
  | 0, queue => ([], queue, tasks)
  | max + 1, queue =>
    match wakeOne tasks Entry.tid queue with
    | (some entry, rest) =>
      let later := wakeUpTo (taskSetState tasks entry.tid .ready) max rest
      (entry.tid :: later.1, later.2)
    | (none, rest) => ([], rest, tasks)

/-- The parked calls after the tasks were released. -/
def releaseAll (parks : Nat → Option FutexPark) (woken : List Nat) : Nat → Option FutexPark :=
  fun tid =>
    if tid ∈ woken then (parks tid).map fun park => { park with released := true } else parks tid

/-- `futex_wake`, with the tasks it woke. -/
def futexWake (state : Futexes) (caller addr : Nat) (maxWaiters : Int) : Futexes × List Nat :=
  if maxWaiters ≤ 0 then (state, [])
  else
    match futexFind state (state.pageDir caller, addr) with
    | none => (state, [])
    | some index =>
      let futex := state.futexes index
      let woken := wakeUpTo state.tasks maxWaiters.toNat futex.waiters
      let left := state.setFutex index
        { futex with waiters := woken.2.1, inUse := !woken.2.1.isEmpty }
      ({ left with tasks := woken.2.2, parks := releaseAll state.parks woken.1 }, woken.1)

/-! ### Moving waiters -/

/-- Entries that join a queue one after the other. -/
def rejoin (joins : Nat) : List Entry → List Entry
  | [] => []
  | entry :: rest => { entry with joined := joins } :: rejoin (joins + 1) rest

/-- The parked calls after the entries were moved to another word. -/
def moveAll (parks : Nat → Option FutexPark) (moved : List Entry) (key : Nat × Nat) :
    Nat → Option FutexPark :=
  fun tid =>
    if tid ∈ moved.map Entry.tid then (parks tid).map fun park => { park with key := key }
    else parks tid

/-- The second half of `futex_requeue`: the waiters that are left move to another queue, as many
as fit. -/
def moveRest (state : Futexes) (src dst : Nat) : Futexes :=
  let source := state.futexes src
  let target := state.futexes dst
  let moved := source.waiters.take (maxParkers - target.waiters.length)
  let rest := source.waiters.drop (maxParkers - target.waiters.length)
  let joined := state.setFutex dst
    { target with waiters := target.waiters ++ rejoin state.joins moved }
  let left := joined.setFutex src { source with waiters := rest, inUse := !rest.isEmpty }
  { left with
    parks := moveAll state.parks moved target.key
    joins := state.joins + moved.length }

/-- `futex_requeue` from the check of the word under the lock on; `none` when it never returns:
a word requeued to itself while it has waiters moves its first waiter behind the last for ever. -/
def futexRequeue (state : Futexes) (caller addr : Nat) (equal : Bool) (mutexAddr : Nat)
    (maxWake : Int) : Option Futexes :=
  if equal = false then some state
  else
    match futexFind state (state.pageDir caller, addr) with
    | none => some state
    | some src =>
      match if mutexAddr = addr then some (src, state)
        else futexAlloc state (state.pageDir caller, mutexAddr) with
      | none => some state
      | some (dst, found) =>
        let futex := found.futexes src
        let woken := wakeUpTo found.tasks maxWake.toNat futex.waiters
        let left := found.setFutex src { futex with waiters := woken.2.1 }
        let after : Futexes :=
          { left with tasks := woken.2.2, parks := releaseAll found.parks woken.1 }
        if src = dst then
          if woken.2.1 = [] ∨ maxParkers ≤ woken.2.1.length then some after else none
        else some (moveRest after src dst)

/-! ### Sweep and purge -/

/-- Has the deadline of an entry passed? `(int)(now - exp) >= 0`. -/
def expired (ticks : Nat) (entry : Entry) : Bool :=
  decide (entry.expire ≠ 0) && decide ((ticks + 2 ^ 32 - entry.expire) % 2 ^ 32 < 2 ^ 31)

/-- The entries that the sweep takes out of the queues, in the order of the table. -/
def sweptEntries (state : Futexes) : List Entry :=
  (List.range maxFutex).flatMap fun index =>
    if (state.futexes index).inUse then
      (state.futexes index).waiters.filter (expired state.ticks)
    else []

/-- `futex_sweep`. -/
def futexSweep (state : Futexes) : Futexes :=
  let swept := (sweptEntries state).map Entry.tid
  { state with
    futexes := fun index =>
      let futex := state.futexes index
      if index < maxFutex ∧ futex.inUse then
        let rest := futex.waiters.filter fun entry => !expired state.ticks entry
        { futex with waiters := rest, inUse := !rest.isEmpty }
      else futex
    tasks := swept.foldl
      (fun tasks tid => if wakeable tasks tid then taskSetState tasks tid .ready else tasks)
      state.tasks
    parks := releaseAll state.parks swept }

/-- `sync_task_cleanup`, as far as it concerns futexes: a dead task leaves all queues. -/
def futexCleanup (state : Futexes) (tid : Nat) : Futexes :=
  if taskIsAlive state.tasks tid then state
  else
    { state with
      futexes := fun index =>
        let futex := state.futexes index
        { futex with waiters := futex.waiters.filter fun entry => entry.tid ≠ tid } }

/-! ### Steps -/

/-- The steps of a run. `space` gives a task that is in no wait another address space, and
`tick` lets time pass. -/
inductive FutexLabel where
  | wait (tid addr : Nat) (equal : Bool) (timeout : Option Nat)
  | finish (tid : Nat)
  | wake (caller addr : Nat) (maxWaiters : Int)
  | requeue (caller addr : Nat) (equal : Bool) (mutexAddr : Nat) (maxWake : Int)
  | sweep
  | tick
  | cleanup (tid : Nat)
  | space (tid pageDir : Nat)
  | task (step : TaskStep)

/-- May the task make a system call? It is a user task on a core, in no other wait. -/
def Futexes.caller (state : Futexes) (tid : Nat) : Bool :=
  decide (0 < tid) && decide (tid < maxTasks) && !(state.tasks tid).isIdle &&
    (state.tasks tid).onCpu && (state.parks tid).isNone

/-- One step; a requeue that never returns is a step that is never taken. -/
def futexStep (state : Futexes) : FutexLabel → Option Futexes
  | .wait tid addr equal timeout =>
    if state.caller tid then some (futexWait state tid addr equal timeout) else none
  | .finish tid =>
    match state.parks tid with
    | some _ =>
      if (state.tasks tid).onCpu && decide ((state.tasks tid).state ≠ .blocked) then
        some { state with parks := update state.parks tid none }
      else none
    | none => none
  | .wake caller addr maxWaiters => some (futexWake state caller addr maxWaiters).1
  | .requeue caller addr equal mutexAddr maxWake =>
    futexRequeue state caller addr equal mutexAddr maxWake
  | .sweep => some (futexSweep state)
  | .tick => some { state with ticks := (state.ticks + 1) % 2 ^ 32 }
  | .cleanup tid => some (futexCleanup state tid)
  | .space tid pageDir =>
    if (state.parks tid).isNone then
      some { state with pageDir := update state.pageDir tid pageDir }
    else none
  | .task step =>
    (step.run state.tasks).map fun tasks =>
      match step with
      | .reuse tid =>
        { state with tasks := tasks, parks := update state.parks tid none }
      | _ => { state with tasks := tasks }

/-- After `sync_init`: no futex is in use. -/
def Futexes.Initial (state : Futexes) : Prop :=
  (∀ index, (state.futexes index).inUse = false ∧ (state.futexes index).waiters = []) ∧
    ∀ tid, state.parks tid = none

/-- The futexes as a transition system. -/
def futexSystem : System Futexes FutexLabel := System.ofStep Futexes.Initial futexStep

/-! ### The law -/

/-- A live task is parked on a word: it is in a wait that nobody has released. -/
def Futexes.Parked (state : Futexes) (key : Nat × Nat) (tid : Nat) : Prop :=
  state.parks tid = some ⟨key, false⟩ ∧ (state.tasks tid).state ≠ .dead

/-- The queue of a word. -/
def Futexes.queue (state : Futexes) (key : Nat × Nat) : List Entry :=
  match futexFind state key with
  | some index => (state.futexes index).waiters
  | none => []

/-- Wakes are not lost. A task parked on a word stands in the queue of that word exactly once and
in no other queue. And a wake of a word with a positive number makes exactly so many of the live
tasks parked on it ready, or all of them if there are fewer, those that joined first, and changes
no other task. -/
structure WakesKept (state : Futexes) : Prop where
  once : ∀ key tid, state.Parked key tid →
    ((state.queue key).map Entry.tid).count tid = 1 ∧
      ∀ other, other ≠ key → tid ∉ (state.queue other).map Entry.tid
  woken : ∀ caller addr (max : Nat), 0 < max →
    ∃ parked : List Entry, parked.Pairwise (fun first second => first.joined < second.joined) ∧
      (parked.map Entry.tid).Nodup ∧
      (∀ tid, tid ∈ parked.map Entry.tid ↔ state.Parked (state.pageDir caller, addr) tid) ∧
      (futexWake state caller addr max).2 = (parked.map Entry.tid).take max ∧
      ∀ tid, (futexWake state caller addr max).1.tasks tid =
        if tid ∈ (parked.map Entry.tid).take max then { state.tasks tid with state := .ready }
        else state.tasks tid

/-- The task is in a wait that nobody has released. -/
def Futexes.Waiting (state : Futexes) (tid : Nat) : Prop :=
  ∃ park, state.parks tid = some park ∧ park.released = false

/-- The task id stands in a queue. -/
def Futexes.Queued (state : Futexes) (tid : Nat) : Prop :=
  ∃ index, (state.futexes index).inUse = true ∧
    tid ∈ (state.futexes index).waiters.map Entry.tid

/-- What does not disturb the waiters: signals and the like are calm. -/
def Untroubled (state : Futexes) : FutexLabel → Prop
  | .task step => step.Calm state.tasks state.Waiting state.Queued
  | _ => True

end MectovOS.Sync
