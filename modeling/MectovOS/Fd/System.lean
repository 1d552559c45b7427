/-
This file puts the descriptor calls together as a transition system: any number
of tasks open, share and close descriptors, one stretch under `fd_lock` a step.
Three things take several steps. A failed `do_sys_pipe` gives back what it took
in three stretches. The teardown of a task and the rewiring of a spawned child
drop one entry at a time. And fork, thread creation and spawn copy a table
without `fd_lock`, a load and a store for each descriptor.
-/

import MectovOS.Fd.PipeEnds
import MectovOS.Lib.Transition

namespace MectovOS.Fd

open Sched (maxTasks)
open Transition Function

/-! ### States -/

/-- A copy of a table under way: how far it is, and the count it has loaded. -/
structure Copy where
  isFork : Bool
  parent : Nat
  child : Nat
  nextFd : Nat
  loaded : Option (Nat × Int)

/-- The tables, the pipe calls in their cleanup with the stretch they are at, and the copy under
way; `task_lock` admits one at a time. -/
structure Descriptors where
  tables : Tables
  cleanups : Nat → Option (PipeCleanup × Nat)
  copying : Option Copy

/-- The tables after `fd_init` and `pty_init`. -/
def noTables : Tables where
  globalFds _ := ⟨false, .none, 0, 0, 0, 0, 0, 0⟩
  pipes _ := ⟨false, fun _ => 0, 0, 0, false⟩
  ptys _ := { freshPty with inUse := false }
  fdTable _ := none

/-- No descriptor is open, and no call is under way. -/
def booted : Descriptors where
  tables := noTables
  cleanups _ := none
  copying := none

/-! ### Steps -/

/-- The calls of one stretch. `drop` is a turn of `task_close_all_fds` or of `task_rewire_fds`,
and `dup2` names its target, which is a child not yet started when it is not the caller. -/
inductive Call where
  | openFile (credentials : Credentials) (node : Int) (isDir : Bool) (mode : Int)
  | socket (credentials : Credentials) (type : Int)
  | accept (credentials : Credentials) (child : Int)
  | ptyAlloc (credentials : Credentials)
  | ptyOpen (credentials : Credentials) (masterLfd : Int)
  | close (fd : Int)
  | dup2 (credentials : Credentials) (target : Nat) (oldfd newfd : Int)
  | drop (target : Nat) (fd : Int)

/-- The tables after a call of the task. -/
def Call.run (tables : Tables) (tid : Nat) : Call → Tables
  | .openFile credentials node isDir mode =>
    (doSysOpen tables tid credentials node isDir mode).1
  | .socket credentials type => (sockSocket tables tid credentials type).1
  | .accept credentials child => (sockAccept tables tid credentials child).1
  | .ptyAlloc credentials => (doSysPtyAlloc tables tid credentials).1
  | .ptyOpen credentials masterLfd => (doSysPtyOpen tables tid credentials masterLfd).1
  | .close fd => (doSysClose tables tid fd).1
  | .dup2 credentials target oldfd newfd =>
    (doSysDup2Tid tables tid credentials target oldfd newfd).1
  | .drop target fd => dropFd tables target fd

/-- The task whose table a call copies a descriptor in. -/
def Call.target (tid : Nat) : Call → Nat
  | .dup2 _ target _ _ => target
  | _ => tid

/-- How a slot is claimed: by `fork_common`, by `thread_create_ex` or `task_fork_exec`, or by
`create_task`, which copies nothing. -/
inductive Claim where
  | fork
  | spawn
  | create

/-- The steps of a run. -/
inductive Label where
  | call (tid : Nat) (call : Call)
  | pipe (tid : Nat) (credentials : Credentials)
  | cleanup (tid : Nat)
  | claim (kind : Claim) (parent child : Nat)
  | load
  | store

/-- Is a task of the table in no failed pipe call? -/
def Descriptors.ready (state : Descriptors) (tid : Nat) : Bool :=
  decide (tid < maxTasks) && (state.cleanups tid).isNone

/-- One more stretch of the cleanup of a failed pipe call. -/
def Descriptors.afterCleanup (state : Descriptors) (tid : Nat) (rest : PipeCleanup) :
    Nat → Descriptors
  | 0 =>
    { state with
      tables := pipeCleanupEnd state.tables tid rest.gRead rest.r0
      cleanups := update state.cleanups tid (some (rest, 1)) }
  | 1 =>
    { state with
      tables := pipeCleanupEnd state.tables tid rest.gWrite rest.r1
      cleanups := update state.cleanups tid (some (rest, 2)) }
  | _ =>
    { state with
      tables := state.tables.freePipe rest.pipe
      cleanups := update state.cleanups tid none }

/-- The entry the next load of a copy reads. -/
def Copy.source (copy : Copy) : Nat × Nat :=
  (if copy.isFork then copy.child else copy.parent, copy.nextFd)

/-- The load of a copy, or its end. -/
def Descriptors.afterLoad (state : Descriptors) (copy : Copy) : Descriptors :=
  if maxFdsPerTask ≤ copy.nextFd then { state with copying := none }
  else
    match copyLoad state.tables copy.source with
    | some loaded => { state with copying := some { copy with loaded := some loaded } }
    | none => { state with copying := some { copy with nextFd := copy.nextFd + 1 } }

/-- The store of a copy. -/
def Descriptors.afterStore (state : Descriptors) (copy : Copy) (gfd : Nat) (count : Int) :
    Descriptors :=
  { state with
    tables := copyStore state.tables (copy.child, copy.nextFd) gfd count
    copying := some { copy with nextFd := copy.nextFd + 1, loaded := none } }

/-- The first stretch of `do_sys_pipe`. -/
def Descriptors.afterPipe (state : Descriptors) (tid : Nat) : Tables × PipeOutcome → Descriptors
  | (tables, .cleanup rest) =>
    { state with
      tables := tables, cleanups := update state.cleanups tid (some (rest, 0)) }
  | (tables, _) => { state with tables := tables }

/-- One step. -/
def step (state : Descriptors) : Label → Option Descriptors
  | .call tid call =>
    if state.ready tid && state.ready (call.target tid) then
      some { state with tables := call.run state.tables tid }
    else none
  | .pipe tid credentials =>
    if state.ready tid then
      some (state.afterPipe tid (doSysPipe state.tables tid credentials))
    else none
  | .cleanup tid =>
    match state.cleanups tid with
    | some (rest, stage) => some (state.afterCleanup tid rest stage)
    | none => none
  | .claim kind parent child =>
    if state.ready parent && state.ready child && state.copying.isNone &&
        decide (parent ≠ child) then
      match kind with
      | .fork =>
        some
          { state with
            tables := copyTable state.tables parent child
            copying := some ⟨true, parent, child, 0, none⟩ }
      | .spawn =>
        some
          { state with
            tables := resetTable state.tables child
            copying := some ⟨false, parent, child, 0, none⟩ }
      | .create => some { state with tables := resetTable state.tables child }
    else none
  | .load =>
    match state.copying with
    | some copy => if copy.loaded.isNone then some (state.afterLoad copy) else none
    | none => none
  | .store =>
    match state.copying with
    | some copy =>
      match copy.loaded with
      | some (gfd, count) => some (state.afterStore copy gfd count)
      | none => none
    | none => none

/-- What a step does, with the conditions under which it is taken. -/
inductive Taken (state : Descriptors) : Label → Descriptors → Prop
  | call {tid : Nat} {call : Call} : state.ready tid = true → state.ready (call.target tid) = true →
      Taken state (.call tid call) { state with tables := call.run state.tables tid }
  | pipe {tid : Nat} {credentials : Credentials} : state.ready tid = true →
      Taken state (.pipe tid credentials)
        (state.afterPipe tid (doSysPipe state.tables tid credentials))
  | cleanup {tid stage : Nat} {rest : PipeCleanup} : state.cleanups tid = some (rest, stage) →
      Taken state (.cleanup tid) (state.afterCleanup tid rest stage)
  | fork {parent child : Nat} : state.ready parent = true → state.ready child = true →
      state.copying = none → parent ≠ child →
      Taken state (.claim .fork parent child)
        { state with
          tables := copyTable state.tables parent child
          copying := some ⟨true, parent, child, 0, none⟩ }
  | spawn {parent child : Nat} : state.ready parent = true → state.ready child = true →
      state.copying = none → parent ≠ child →
      Taken state (.claim .spawn parent child)
        { state with
          tables := resetTable state.tables child
          copying := some ⟨false, parent, child, 0, none⟩ }
  | create {parent child : Nat} : Taken state (.claim .create parent child)
      { state with tables := resetTable state.tables child }
  | load {copy : Copy} : state.copying = some copy → copy.loaded = none →
      Taken state .load (state.afterLoad copy)
  | store {copy : Copy} {gfd : Nat} {count : Int} : state.copying = some copy →
      copy.loaded = some (gfd, count) → Taken state .store (state.afterStore copy gfd count)

theorem step_taken {state next : Descriptors} {label : Label}
    (taken : step state label = some next) : Taken state label next := by
  cases label with
  | call tid call =>
    obtain ⟨ready, same⟩ := Option.ite_none_right_eq_some.mp taken
    obtain rfl := Option.some.inj same
    rw [Bool.and_eq_true] at ready
    exact .call ready.1 ready.2
  | pipe tid credentials =>
    obtain ⟨ready, same⟩ := Option.ite_none_right_eq_some.mp taken
    obtain rfl := Option.some.inj same
    exact .pipe ready
  | cleanup tid =>
    cases busy : state.cleanups tid with
    | none =>
      simp only [step, busy] at taken
      exact absurd taken (by simp)
    | some pair =>
      simp only [step, busy] at taken
      obtain rfl := Option.some.inj taken
      exact .cleanup busy
  | claim kind parent child =>
    obtain ⟨ready, same⟩ := Option.ite_none_right_eq_some.mp taken
    rw [Bool.and_eq_true, Bool.and_eq_true, Bool.and_eq_true, Option.isNone_iff_eq_none,
      decide_eq_true_iff] at ready
    obtain ⟨⟨⟨parentReady, childReady⟩, idle⟩, apart⟩ := ready
    cases kind with
    | fork =>
      obtain rfl := Option.some.inj same
      exact .fork parentReady childReady idle apart
    | spawn =>
      obtain rfl := Option.some.inj same
      exact .spawn parentReady childReady idle apart
    | create =>
      obtain rfl := Option.some.inj same
      exact .create
  | load =>
    cases busy : state.copying with
    | none =>
      simp only [step, busy] at taken
      exact absurd taken (by simp)
    | some copy =>
      simp only [step, busy] at taken
      obtain ⟨empty, same⟩ := Option.ite_none_right_eq_some.mp taken
      obtain rfl := Option.some.inj same
      exact .load busy (Option.isNone_iff_eq_none.mp empty)
  | store =>
    cases busy : state.copying with
    | none =>
      simp only [step, busy] at taken
      exact absurd taken (by simp)
    | some copy =>
      cases loaded : copy.loaded with
      | none =>
        simp only [step, busy, loaded] at taken
        exact absurd taken (by simp)
      | some pair =>
        simp only [step, busy, loaded] at taken
        obtain rfl := Option.some.inj taken
        exact .store busy loaded

/-- The descriptor calls as a transition system. -/
def fdSystem : System Descriptors Label := System.ofStep (· = booted) step

/-- A copy runs alone: no stretch under `fd_lock` falls between its steps. And the slot it
claims holds no descriptor of its last owner. -/
def Alone (state : Descriptors) : Label → Prop
  | .call _ _ => state.copying = none
  | .pipe _ _ => state.copying = none
  | .cleanup _ => state.copying = none
  | .claim _ _ child => ∀ fd < maxFdsPerTask, state.tables.fdTable (child, fd) = none
  | .load => True
  | .store => True

end MectovOS.Fd
