/-
This file models the semaphores of src/sys/sync.c as a transition system: any
number of tasks wait, post, create and destroy, while signals, deaths and new
tasks change the states of the waiters. Each function is one step under
`sync_lock`, and a wait that parks returns in a step of its own. Beside the
semaphores the state keeps accounts of the tokens.
-/

import MectovOS.Sync.Tasks
import MectovOS.Lib.Transition

namespace MectovOS.Sync

open Sched (maxTasks)
open Transition Function

/-! ### Semaphores -/

/-- `MAX_SEMS`, `MAX_WAITERS` and the largest count. -/
def maxSems : Nat := 32
def maxWaiters : Nat := 32
def maxCount : Nat := 0x7FFFFFFF

/-- `sem_t`; `waiter_count` is the length of the list. -/
structure Sem where
  inUse : Bool
  count : Nat
  waiters : List Nat

/-- A `sem_wait` that has parked: on which semaphore, created how many times by then, and
whether a post has handed it its token. -/
structure Park where
  sem : Nat
  life : Nat
  handed : Bool

/-- The tokens of one life of a semaphore: those it was created with and those posted, the waits
that returned 0, the tokens handed to waiters, and the handed tokens whose waiters returned. -/
structure Account where
  initial : Nat
  posts : Nat
  returns : Nat
  handed : Nat
  redeemed : Nat

/-- Something the claim on tokens speaks of: a wait returned 0, and had a token or not; or a post
handed a token to a task, and the task was parked on that semaphore or not. -/
inductive TokenEvent where
  | returned (paid : Bool)
  | handed (parked : Bool)
  deriving DecidableEq

/-- The semaphores and the tasks, with the parked calls, the lives of the semaphores, the
accounts of their lives, and the history. -/
structure Semaphores where
  sems : Nat → Sem
  tasks : Tasks
  parks : Nat → Option Park
  lives : Nat → Nat
  accounts : Nat × Nat → Account
  history : List TokenEvent

def Semaphores.setSem (state : Semaphores) (id : Nat) (sem : Sem) : Semaphores :=
  { state with sems := update state.sems id sem }

/-- Change the account of the current life of a semaphore. -/
def Semaphores.book (state : Semaphores) (key : Nat × Nat) (change : Account → Account) :
    Semaphores :=
  { state with
    accounts := update state.accounts key (change (state.accounts key)) }

/-- The key of the current life of a semaphore. -/
def Semaphores.key (state : Semaphores) (id : Nat) : Nat × Nat := (id, state.lives id)

/-! ### Operations -/

/-- `sem_create`. -/
def semCreate (state : Semaphores) (initial : Int) : Semaphores :=
  match (List.range maxSems).find? fun id => !(state.sems id).inUse with
  | none => state
  | some id =>
    let created := state.setSem id ⟨true, initial.toNat, []⟩
    { created with
      lives := update state.lives id (state.lives id + 1)
      accounts := update state.accounts (id, state.lives id + 1)
        ⟨initial.toNat, 0, 0, 0, 0⟩ }

/-- `sem_wait` up to its return or to its park. -/
def semWait (state : Semaphores) (tid id : Nat) : Semaphores :=
  if maxSems ≤ id then state
  else if (state.sems id).inUse = false then state
  else if 0 < (state.sems id).count then
    let taken := state.setSem id { state.sems id with count := (state.sems id).count - 1 }
    let booked := taken.book (state.key id) fun account =>
      { account with returns := account.returns + 1 }
    { booked with history := .returned true :: state.history }
  else if maxWaiters ≤ (state.sems id).waiters.length then state
  else
    let queued := state.setSem id
      { state.sems id with waiters := (state.sems id).waiters ++ [tid] }
    { queued with
      tasks := taskSetState state.tasks tid .blocked
      parks := update state.parks tid (some ⟨id, state.lives id, false⟩) }

/-- The end of `sem_wait`: the loop saw that the task is no longer blocked. -/
def semReturn (state : Semaphores) (tid : Nat) (park : Park) : Semaphores :=
  let booked := state.book (park.sem, park.life) fun account =>
    { account with
      returns := account.returns + 1
      redeemed := if park.handed then account.redeemed + 1 else account.redeemed }
  { booked with
    parks := update state.parks tid none
    history := .returned park.handed :: state.history }

/-- Hand a token to the task that a post woke. -/
def Semaphores.hand (state : Semaphores) (id tid : Nat) : Semaphores :=
  match state.parks tid with
  | some park =>
    if park.sem = id ∧ park.life = state.lives id ∧ park.handed = false then
      { state with
        parks := update state.parks tid (some { park with handed := true })
        history := .handed true :: state.history }
    else { state with history := .handed false :: state.history }
  | none => { state with history := .handed false :: state.history }

/-- `sem_post`. -/
def semPost (state : Semaphores) (id : Nat) : Semaphores :=
  if maxSems ≤ id then state
  else if (state.sems id).inUse = false then state
  else
    let woken := wakeOne state.tasks (fun tid => tid) (state.sems id).waiters
    let queue := { state.sems id with waiters := woken.2 }
    match woken.1 with
    | some tid =>
      let posted := (state.setSem id queue).book (state.key id) fun account =>
        { account with posts := account.posts + 1, handed := account.handed + 1 }
      ({ posted with tasks := taskSetState state.tasks tid .ready }).hand id tid
    | none =>
      let raised :=
        if queue.count < maxCount then { queue with count := queue.count + 1 } else queue
      (state.setSem id raised).book (state.key id) fun account =>
        { account with posts := account.posts + 1 }

/-- `sem_destroy`: every waiter that may be woken is made ready. -/
def semDestroy (state : Semaphores) (id : Nat) : Semaphores :=
  if maxSems ≤ id then state
  else if (state.sems id).inUse = false then state
  else
    let destroyed := state.setSem id { state.sems id with inUse := false, waiters := [] }
    { destroyed with
      tasks := (state.sems id).waiters.foldl
        (fun tasks tid => if wakeable tasks tid then taskSetState tasks tid .ready else tasks)
        state.tasks }

/-- `sync_task_cleanup`, as far as it concerns semaphores: a dead task leaves all queues. -/
def semCleanup (state : Semaphores) (tid : Nat) : Semaphores :=
  if taskIsAlive state.tasks tid then state
  else
    { state with
      sems := fun id =>
        { state.sems id with waiters := (state.sems id).waiters.filter fun other => other ≠ tid } }

/-! ### Steps -/

/-- The steps of a run. The deferred purge of an id may come at any time after a death. -/
inductive SemLabel where
  | create (initial : Int)
  | wait (tid id : Nat)
  | finish (tid : Nat)
  | post (id : Nat)
  | destroy (id : Nat)
  | cleanup (tid : Nat)
  | task (step : TaskStep)

/-- May the task make a system call? It is a user task on a core, in no other wait. -/
def Semaphores.caller (state : Semaphores) (tid : Nat) : Bool :=
  decide (0 < tid) && decide (tid < maxTasks) && !(state.tasks tid).isIdle &&
    (state.tasks tid).onCpu && (state.parks tid).isNone

/-- One step. A call of which only the semaphores matter is made by any task. -/
def semStep (state : Semaphores) : SemLabel → Option Semaphores
  | .create initial => some (semCreate state initial)
  | .wait tid id => if state.caller tid then some (semWait state tid id) else none
  | .finish tid =>
    match state.parks tid with
    | some park =>
      if (state.tasks tid).onCpu && decide ((state.tasks tid).state ≠ .blocked) then
        some (semReturn state tid park)
      else none
    | none => none
  | .post id => some (semPost state id)
  | .destroy id => some (semDestroy state id)
  | .cleanup tid => some (semCleanup state tid)
  | .task step =>
    (step.run state.tasks).map fun tasks =>
      match step with
      | .reuse tid =>
        { state with tasks := tasks, parks := update state.parks tid none }
      | _ => { state with tasks := tasks }

/-- After `sync_init`: no semaphore exists, and some tasks are idle tasks. -/
def Semaphores.Initial (state : Semaphores) : Prop :=
  (∀ id, (state.sems id).inUse = false ∧ (state.sems id).waiters = []) ∧
    (∀ tid, state.parks tid = none) ∧ state.history = []

/-- The semaphores as a transition system. -/
def semSystem : System Semaphores SemLabel := System.ofStep Semaphores.Initial semStep

/-! ### The law -/

/-- Tokens are conserved: in every life of a semaphore the waits that returned and the count make
up what it was created with and what was posted, less the tokens handed to waiters that have not
returned yet; a wait returns 0 only with a token; and tokens go only to tasks parked on the
semaphore. -/
structure TokensConserved (state : Semaphores) : Prop where
  balanced : ∀ id, (state.sems id).inUse = true →
    ((state.accounts (state.key id)).returns : Int) + (state.sems id).count =
      (state.accounts (state.key id)).initial + (state.accounts (state.key id)).posts -
        ((state.accounts (state.key id)).handed - (state.accounts (state.key id)).redeemed)
  paid : TokenEvent.returned false ∉ state.history
  parked : TokenEvent.handed false ∉ state.history

/-- The task is in a `sem_wait` that has no token. -/
def Semaphores.Waiting (state : Semaphores) (tid : Nat) : Prop :=
  ∃ park, state.parks tid = some park ∧ park.handed = false

/-- The task id stands in a queue. -/
def Semaphores.Queued (state : Semaphores) (tid : Nat) : Prop :=
  ∃ id, (state.sems id).inUse = true ∧ tid ∈ (state.sems id).waiters

/-- What does not disturb the waiters: signals and the like are calm, a semaphore is destroyed
only when nobody can be woken, and a post that wakes nobody finds the count below its limit. -/
def Undisturbing (state : Semaphores) : SemLabel → Prop
  | .task step => step.Calm state.tasks state.Waiting state.Queued
  | .destroy id => ∀ tid ∈ (state.sems id).waiters, wakeable state.tasks tid = false
  | .post id => (state.sems id).inUse = true →
      (wakeOne state.tasks (fun tid => tid) (state.sems id).waiters).1 = none →
        (state.sems id).count < maxCount
  | _ => True

end MectovOS.Sync
