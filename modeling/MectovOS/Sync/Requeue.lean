/-
This file follows the loops of `futex_requeue` in src/sys/sync.c turn by turn. A
call that moves waiters to another word comes to its end, and every waiter is
woken, moved or left; a word requeued to itself turns its queue round for ever,
unless the wakes leave the queue empty or the queue is full.
-/

import MectovOS.Sync.Wakes

namespace MectovOS.Sync

open Transition Function

/-! ### The loops -/

/-- The arguments of `futex_requeue`, the task that calls it, what `validate_user_ptr` says of
the two addresses, and the word at the first one. -/
structure RequeueCall where
  caller : Nat
  addr : Nat
  expected : Nat
  mutexAddr : Nat
  maxWake : Int
  addrValid : Bool
  mutexAddrValid : Bool
  word : Nat

/-- The keys of the two words. -/
def RequeueCall.key (call : RequeueCall) (state : Futexes) : Nat × Nat :=
  (state.pageDir call.caller, call.addr)

def RequeueCall.mutexKey (call : RequeueCall) (state : Futexes) : Nat × Nat :=
  (state.pageDir call.caller, call.mutexAddr)

/-- The loop that wakes the first waiters of a slot: the state it leaves, and how many it woke. -/
def wakeFirst (state : Futexes) (index max : Nat) : Futexes × Nat :=
  let futex := state.futexes index
  let woken := wakeUpTo state.tasks max futex.waiters
  let left := state.setFutex index { futex with waiters := woken.2.1 }
  ({ left with tasks := woken.2.2, parks := releaseAll state.parks woken.1 }, woken.1.length)

/-- One turn of the loop that moves waiters: the first of `src` joins the queue of `dst`, and
those behind it move up. -/
def moveFirst (state : Futexes) (src dst : Nat) : Futexes :=
  match (state.futexes src).waiters with
  | [] => state
  | entry :: _ =>
    let target := state.futexes dst
    let appended := state.setFutex dst
      { target with waiters := target.waiters ++ [{ entry with joined := state.joins }] }
    let source := appended.futexes src
    let shifted := appended.setFutex src { source with waiters := source.waiters.tail }
    { shifted with
      parks := moveAll state.parks [entry] target.key
      joins := state.joins + 1 }

/-- The loop that moves waiters, for as many turns as the fuel allows, and how many it moved. -/
def moveLoop : Nat → Futexes → Nat → Nat → Nat → Option (Futexes × Nat)
  | 0, _, _, _, _ => none
  | fuel + 1, state, src, dst, moved =>
    if 0 < (state.futexes src).waiters.length ∧
        (state.futexes dst).waiters.length < maxParkers then
      moveLoop fuel (moveFirst state src dst) src dst (moved + 1)
    else some (state, moved)

/-- A queue that ends up empty gives its slot back, unless it is the target itself. -/
def vacate (state : Futexes) (src dst : Nat) : Futexes :=
  if (state.futexes src).waiters = [] ∧ src ≠ dst then
    state.setFutex src { state.futexes src with inUse := false }
  else state

/-- `futex_requeue`, with the value it returns; `none` when the fuel does not reach its end. -/
def futexRequeueFor (fuel : Nat) (state : Futexes) (call : RequeueCall) :
    Option (Futexes × Int) :=
  if call.addrValid = false ∨ call.mutexAddrValid = false then some (state, -2)
  else if call.word ≠ call.expected then some (state, -1)
  else
    match futexFind state (call.key state) with
    | none => some (state, 0)
    | some src =>
      match if call.mutexAddr = call.addr then some (src, state)
        else futexAlloc state (call.mutexKey state) with
      | none => some (state, -2)
      | some (dst, found) =>
        let woken := wakeFirst found src call.maxWake.toNat
        (moveLoop fuel woken.1 src dst 0).map fun moved =>
          (vacate moved.1 src dst, (woken.2 + moved.2 : Nat))

/-! ### Moving between two queues -/

variable {state : Futexes} {src dst : Nat}

theorem setFutex_self (state : Futexes) (index : Nat) (futex : Futex) :
    (state.setFutex index futex).futexes index = futex := update_self _ _ _

theorem setFutex_other (state : Futexes) {index other : Nat} (different : other ≠ index)
    (futex : Futex) : (state.setFutex index futex).futexes other = state.futexes other :=
  update_of_ne different _ _

/-- The state after the first waiters of one queue were moved to another one. -/
def Futexes.movedBy (state : Futexes) (src dst count : Nat) : Futexes :=
  let source := state.futexes src
  let target := state.futexes dst
  let moved := source.waiters.take count
  { state with
    futexes := update (update state.futexes dst
      { target with waiters := target.waiters ++ rejoin state.joins moved }) src
      { source with waiters := source.waiters.drop count }
    parks := moveAll state.parks moved target.key
    joins := state.joins + moved.length }

theorem moveAll_nil (parks : Nat → Option FutexPark) (key : Nat × Nat) :
    moveAll parks [] key = parks := by
  funext tid
  exact if_neg List.not_mem_nil

/-- Moving entries one after the other is moving them together. -/
theorem moveAll_cons (parks : Nat → Option FutexPark) (entry : Entry) (rest : List Entry)
    (key : Nat × Nat) :
    moveAll (moveAll parks [entry] key) rest key = moveAll parks (entry :: rest) key := by
  funext tid
  unfold moveAll
  rw [List.map_cons, List.map_cons, List.map_nil]
  by_cases first : tid = entry.tid
  · rw [if_pos (List.mem_cons.mpr (Or.inl first)), if_pos (List.mem_cons.mpr (Or.inl first))]
    split
    · cases parks tid <;> rfl
    · rfl
  · rw [if_neg (fun member => first (List.mem_singleton.mp member))]
    by_cases later : tid ∈ rest.map Entry.tid
    · rw [if_pos later, if_pos (List.mem_cons_of_mem _ later)]
    · rw [if_neg later, if_neg fun member => (List.mem_cons.mp member).elim first later]

theorem movedBy_of_take_nil {count : Nat}
    (none' : (state.futexes src).waiters.take count = []) :
    state.movedBy src dst count = state := by
  have all : (state.futexes src).waiters.drop count = (state.futexes src).waiters := by
    have split := List.take_append_drop count (state.futexes src).waiters
    rwa [none', List.nil_append] at split
  unfold Futexes.movedBy
  dsimp only
  rw [none', all, moveAll_nil]
  show { state with
    futexes := update (update state.futexes dst
      { state.futexes dst with waiters := (state.futexes dst).waiters ++ [] }) src
      (state.futexes src) } = state
  rw [List.append_nil, update_eq_self, update_eq_self]

theorem moveFirst_src (apart : src ≠ dst) {entry : Entry} {rest : List Entry}
    (queue : (state.futexes src).waiters = entry :: rest) :
    (moveFirst state src dst).futexes src = { state.futexes src with waiters := rest } := by
  unfold moveFirst
  rw [queue]
  dsimp only
  rw [setFutex_self, setFutex_other _ apart, queue]
  rfl

theorem moveFirst_dst (apart : src ≠ dst) {entry : Entry} {rest : List Entry}
    (queue : (state.futexes src).waiters = entry :: rest) :
    (moveFirst state src dst).futexes dst = { state.futexes dst with
      waiters := (state.futexes dst).waiters ++ [{ entry with joined := state.joins }] } := by
  unfold moveFirst
  rw [queue]
  dsimp only
  rw [setFutex_other _ apart.symm, setFutex_self]

/-- A turn of the loop and the moves that follow are the moves together. -/
theorem moveFirst_movedBy (apart : src ≠ dst) {entry : Entry} {rest : List Entry}
    (queue : (state.futexes src).waiters = entry :: rest) (count : Nat) :
    (moveFirst state src dst).movedBy src dst count = state.movedBy src dst (count + 1) := by
  have source := moveFirst_src apart queue
  have target := moveFirst_dst apart queue
  have others : ∀ index, index ≠ src → index ≠ dst →
      (moveFirst state src dst).futexes index = state.futexes index := by
    intro index notSrc notDst
    unfold moveFirst
    rw [queue]
    dsimp only
    rw [setFutex_other _ notSrc, setFutex_other _ notDst]
  have parks : (moveFirst state src dst).parks =
      moveAll state.parks [entry] (state.futexes dst).key := by
    unfold moveFirst
    rw [queue]
  have joins : (moveFirst state src dst).joins = state.joins + 1 := by
    unfold moveFirst
    rw [queue]
  have tasks : (moveFirst state src dst).tasks = state.tasks := by
    unfold moveFirst
    rw [queue]
    rfl
  have pageDir : (moveFirst state src dst).pageDir = state.pageDir := by
    unfold moveFirst
    rw [queue]
    rfl
  have ticks : (moveFirst state src dst).ticks = state.ticks := by
    unfold moveFirst
    rw [queue]
    rfl
  unfold Futexes.movedBy
  dsimp only
  rw [source, target, parks, joins, tasks, pageDir, ticks, queue, List.take_succ_cons,
    List.drop_succ_cons, moveAll_cons, List.length_cons, Nat.add_right_comm, Nat.add_assoc]
  congr 1
  funext index
  by_cases here : index = src
  · rw [here, update_self, update_self]
  · rw [update_of_ne here, update_of_ne here]
    by_cases there : index = dst
    · rw [there, update_self, update_self, List.append_assoc]
      rfl
    · rw [update_of_ne there, update_of_ne there, others index here there]

/-- Between two queues the loop moves the waiters that fit, and comes to its end. -/
theorem moveLoop_apart (apart : src ≠ dst) (fuel moved : Nat) (state : Futexes) :
    moveLoop fuel state src dst moved =
      if min (state.futexes src).waiters.length
          (maxParkers - (state.futexes dst).waiters.length) < fuel then
        some (state.movedBy src dst (maxParkers - (state.futexes dst).waiters.length),
          moved + min (state.futexes src).waiters.length
            (maxParkers - (state.futexes dst).waiters.length))
      else none := by
  induction fuel generalizing state moved with
  | zero => rfl
  | succ fuel inductionHypothesis =>
    unfold moveLoop
    by_cases goes : 0 < (state.futexes src).waiters.length ∧
        (state.futexes dst).waiters.length < maxParkers
    · rw [if_pos goes]
      obtain ⟨entry, rest, queue⟩ := List.exists_cons_of_length_pos goes.1
      have room : maxParkers - (state.futexes dst).waiters.length =
          maxParkers - ((state.futexes dst).waiters.length + 1) + 1 := by omega
      rw [inductionHypothesis, moveFirst_src apart queue, moveFirst_dst apart queue, queue]
      dsimp only
      rw [List.length_append, List.length_singleton, List.length_cons, room,
        Nat.succ_min_succ, moveFirst_movedBy apart queue]
      by_cases enough : min rest.length
          (maxParkers - ((state.futexes dst).waiters.length + 1)) < fuel
      · rw [if_pos enough, if_pos (Nat.succ_lt_succ enough), Nat.add_assoc, Nat.add_comm 1]
      · rw [if_neg enough, if_neg fun less => enough (Nat.lt_of_succ_lt_succ less)]
    · rw [if_neg goes]
      have stuck : min (state.futexes src).waiters.length
          (maxParkers - (state.futexes dst).waiters.length) = 0 := by omega
      rw [if_pos (stuck ▸ Nat.succ_pos fuel), stuck, Nat.add_zero,
        movedBy_of_take_nil (List.eq_nil_of_length_eq_zero
          ((List.length_take).trans ((Nat.min_comm _ _).trans stuck)))]

/-! ### Moving within one queue -/

/-- A turn of the loop on a single queue puts its first waiter behind the last. -/
theorem moveFirst_self_length (state : Futexes) (src : Nat) :
    ((moveFirst state src src).futexes src).waiters.length =
      (state.futexes src).waiters.length := by
  unfold moveFirst
  cases queue : (state.futexes src).waiters with
  | nil =>
    dsimp only
    rw [queue]
  | cons entry rest =>
    dsimp only
    rw [setFutex_self, setFutex_self, queue, List.length_tail, List.length_append]
    rfl

/-- Within one queue the loop never ends, unless the queue is empty or full at once. -/
theorem moveLoop_self (fuel moved : Nat) (state : Futexes) (src : Nat) :
    moveLoop fuel state src src moved =
      if ((state.futexes src).waiters = [] ∨ maxParkers ≤ (state.futexes src).waiters.length) ∧
          0 < fuel then some (state, moved)
      else none := by
  induction fuel generalizing state moved with
  | zero => exact (if_neg fun both => Nat.lt_irrefl 0 both.2).symm
  | succ fuel inductionHypothesis =>
    unfold moveLoop
    by_cases goes : 0 < (state.futexes src).waiters.length ∧
        (state.futexes src).waiters.length < maxParkers
    · have same := moveFirst_self_length state src
      have waits : (state.futexes src).waiters ≠ [] := List.ne_nil_of_length_pos goes.1
      have waits' : ((moveFirst state src src).futexes src).waiters ≠ [] :=
        List.ne_nil_of_length_pos (same ▸ goes.1)
      rw [if_pos goes, inductionHypothesis, same,
        if_neg fun ends => ends.1.elim waits' (Nat.not_le.mpr goes.2),
        if_neg fun ends => ends.1.elim waits (Nat.not_le.mpr goes.2)]
    · rw [if_neg goes, if_pos]
      refine ⟨?_, Nat.succ_pos fuel⟩
      rcases Nat.eq_zero_or_pos (state.futexes src).waiters.length with empty | waits
      · exact Or.inl (List.eq_nil_of_length_eq_zero empty)
      · exact Or.inr (Nat.not_lt.mp fun less => goes ⟨waits, less⟩)

/-! ### What the wakes leave -/

/-- The entries behind the first `max` ones that may be woken. -/
def standing (may : Entry → Bool) : Nat → List Entry → List Entry
  | 0, queue => queue
  | _ + 1, [] => []
  | max + 1, entry :: rest =>
    if may entry then standing may max rest else standing may (max + 1) rest

/-- May the task of an entry be woken? -/
def Futexes.may (state : Futexes) (entry : Entry) : Bool := wakeable state.tasks entry.tid

theorem wakeable_ready (tasks : Tasks) (tid other : Nat) :
    wakeable (taskSetState tasks tid .ready) other = wakeable tasks other := by
  rcases eq_or_ne other tid with rfl | different
  · unfold taskSetState
    split
    · rfl
    split
    · rfl
    split
    · rfl
    · rename_i alive
      have lives : (tasks other).state ≠ .dead := fun dead => alive ⟨dead, rfl⟩
      unfold wakeable taskIsAlive
      rw [update_self, decide_eq_true (show TaskState.ready ≠ .dead from nofun),
        decide_eq_true lives]
  · exact wakeable_congr (taskSetState_of_ne tasks different .ready)

/-- A task that is ready stays ready while others are woken. -/
theorem state_ready {tasks : Tasks} {tid : Nat} (other : Nat)
    (ready : (tasks tid).state = .ready) : (taskSetState tasks other .ready tid).state = .ready := by
  rcases eq_or_ne tid other with rfl | different
  · unfold taskSetState
    split
    · exact ready
    split
    · exact ready
    split
    · exact ready
    · rw [update_self]
  · rw [taskSetState_of_ne tasks different]
    exact ready

theorem wakeUpTo_none {tasks : Tasks} {queue rest : List Entry} (max : Nat)
    (nobody : wakeOne tasks Entry.tid queue = (none, rest)) :
    wakeUpTo tasks (max + 1) queue = ([], rest, tasks) := by
  simp only [wakeUpTo, nobody]

theorem wakeUpTo_some {tasks : Tasks} {queue rest : List Entry} {entry : Entry} (max : Nat)
    (somebody : wakeOne tasks Entry.tid queue = (some entry, rest)) :
    wakeUpTo tasks (max + 1) queue =
      (entry.tid :: (wakeUpTo (taskSetState tasks entry.tid .ready) max rest).1,
        (wakeUpTo (taskSetState tasks entry.tid .ready) max rest).2) := by
  simp only [wakeUpTo, somebody]

theorem wakeUpTo_ready (max : Nat) {tasks : Tasks} (queue : List Entry) {tid : Nat}
    (ready : (tasks tid).state = .ready) :
    ((wakeUpTo tasks max queue).2.2 tid).state = .ready := by
  induction max generalizing tasks queue with
  | zero => exact ready
  | succ max inductionHypothesis =>
    cases woken : wakeOne tasks Entry.tid queue with
    | mk first rest =>
      cases first with
      | none =>
        rw [wakeUpTo_none max woken]
        exact ready
      | some entry =>
        rw [wakeUpTo_some max woken]
        exact inductionHypothesis rest (state_ready entry.tid ready)

theorem standing_wakeOne (tasks : Tasks) (max : Nat) (queue : List Entry) :
    standing (fun entry => wakeable tasks entry.tid) (max + 1) queue =
      match wakeOne tasks Entry.tid queue with
      | (some _, rest) => standing (fun entry => wakeable tasks entry.tid) max rest
      | (none, _) => [] := by
  induction queue with
  | nil => rfl
  | cons entry rest inductionHypothesis =>
    unfold wakeOne
    rw [standing]
    by_cases may : wakeable tasks entry.tid = true
    · rw [if_pos may, if_pos may]
    · rw [if_neg may, if_neg may]
      exact inductionHypothesis

/-- The wakes leave the entries that stand behind those they wake. -/
theorem wakeUpTo_left (max : Nat) (tasks : Tasks) (queue : List Entry) :
    (wakeUpTo tasks max queue).2.1 =
      standing (fun entry => wakeable tasks entry.tid) max queue := by
  induction max generalizing tasks queue with
  | zero =>
    cases queue <;> rfl
  | succ max inductionHypothesis =>
    rw [standing_wakeOne]
    cases woken : wakeOne tasks Entry.tid queue with
    | mk first rest =>
      cases first with
      | none =>
        rw [wakeUpTo_none max woken]
        have nobody : (wakeOne tasks Entry.tid queue).1 = none := by rw [woken]
        have empty := (wakeOne_none nobody).1
        rwa [woken] at empty
      | some entry =>
        rw [wakeUpTo_some max woken]
        show (wakeUpTo (taskSetState tasks entry.tid .ready) max rest).2.1 = _
        rw [inductionHypothesis]
        congr 1
        funext other
        exact wakeable_ready tasks entry.tid other.tid

/-- What the wakes take off the queue is its front, and the live tasks in it become ready. -/
theorem wakeUpTo_front (max : Nat) (tasks : Tasks) (queue : List Entry) :
    ∃ front, queue = front ++ (wakeUpTo tasks max queue).2.1 ∧
      ∀ entry ∈ front, wakeable tasks entry.tid = true →
        ((wakeUpTo tasks max queue).2.2 entry.tid).state = .ready := by
  induction max generalizing tasks queue with
  | zero => exact ⟨[], rfl, fun entry member => absurd member List.not_mem_nil⟩
  | succ max inductionHypothesis =>
    cases woken : wakeOne tasks Entry.tid queue with
    | mk first rest =>
      cases first with
      | none =>
        have nobody : (wakeOne tasks Entry.tid queue).1 = none := by rw [woken]
        obtain ⟨empty, none'⟩ := wakeOne_none nobody
        rw [wakeUpTo_none max woken]
        rw [woken] at empty
        refine ⟨queue, ?_, fun entry member may => ?_⟩
        · rw [show rest = [] from empty, List.append_nil]
        · rw [none' entry member] at may
          exact absurd may Bool.false_ne_true
      | some entry =>
        have somebody : (wakeOne tasks Entry.tid queue).1 = some entry := by rw [woken]
        obtain ⟨dropped, split, none', may⟩ := wakeOne_some somebody
        rw [woken] at split
        obtain ⟨front, later, ready⟩ :=
          inductionHypothesis (taskSetState tasks entry.tid .ready) rest
        rw [wakeUpTo_some max woken]
        refine ⟨dropped ++ entry :: front, ?_, fun other member lives => ?_⟩
        · rw [split, List.append_assoc, List.cons_append, ← later]
        · rcases List.mem_append.mp member with inside | inside
          · rw [none' other inside] at lives
            exact absurd lives Bool.false_ne_true
          · rcases List.mem_cons.mp inside with rfl | behind
            · refine wakeUpTo_ready max rest ?_
              rw [taskSetState_ready may, update_self]
            · exact ready other behind ((wakeable_ready tasks entry.tid other.tid).trans lives)

/-! ### The slots -/

/-- No two slots in use belong to one word. -/
def Futexes.Keyed (state : Futexes) : Prop :=
  ∀ first second, first < maxFutex → second < maxFutex →
    (state.futexes first).inUse = true → (state.futexes second).inUse = true →
    (state.futexes first).key = (state.futexes second).key → first = second

theorem futexFind_bound {key : Nat × Nat} {index : Nat}
    (found : futexFind state key = some index) : index < maxFutex :=
  List.mem_range.mp (List.mem_of_find?_eq_some found)

theorem futexFind_none {key : Nat × Nat} (missing : futexFind state key = none) {index : Nat}
    (bound : index < maxFutex) (used : (state.futexes index).inUse = true) :
    (state.futexes index).key ≠ key := by
  intro is
  have none' := List.find?_eq_none.mp missing index (List.mem_range.mpr bound)
  rw [used, is, decide_eq_true rfl] at none'
  exact none' rfl

theorem queue_find {key : Nat × Nat} {index : Nat} (found : futexFind state key = some index) :
    state.queue key = (state.futexes index).waiters := by
  unfold Futexes.queue
  rw [found]

/-- A word that has no slot has no waiters. -/
theorem queue_missing {key : Nat × Nat}
    (missing : ∀ index, index < maxFutex → (state.futexes index).inUse = true →
      (state.futexes index).key ≠ key) : state.queue key = [] := by
  cases found : futexFind state key with
  | none =>
    unfold Futexes.queue
    rw [found]
  | some index =>
    obtain ⟨used, is⟩ := futexFind_some found
    exact absurd is (missing index (futexFind_bound found) used)

/-- The waiters of a word are those of its slot. -/
theorem Futexes.Keyed.queue (keyed : state.Keyed) {key : Nat × Nat} {index : Nat}
    (bound : index < maxFutex) (used : (state.futexes index).inUse = true)
    (is : (state.futexes index).key = key) : state.queue key = (state.futexes index).waiters := by
  cases found : futexFind state key with
  | none => exact absurd is (futexFind_none found bound used)
  | some other =>
    obtain ⟨used', is'⟩ := futexFind_some found
    rw [queue_find found, keyed other index (futexFind_bound found) bound used' used
      (is'.trans is.symm)]

/-- A step that takes no slot and changes no key keeps the slots apart. -/
theorem Futexes.Keyed.kept (keyed : state.Keyed) {next : Futexes}
    (same : ∀ index, (next.futexes index).inUse = true → (state.futexes index).inUse = true ∧
      (next.futexes index).key = (state.futexes index).key) : next.Keyed := by
  intro first second boundFirst boundSecond usedFirst usedSecond is
  obtain ⟨before, sameFirst⟩ := same first usedFirst
  obtain ⟨before', sameSecond⟩ := same second usedSecond
  exact keyed first second boundFirst boundSecond before before'
    (sameFirst.symm.trans (is.trans sameSecond))

/-- The slot that `futex_alloc` gives a word. -/
structure Given (state next : Futexes) (key : Nat × Nat) (index : Nat) : Prop where
  bound : index < maxFutex
  used : (next.futexes index).inUse = true
  named : (next.futexes index).key = key
  waiters : (next.futexes index).waiters = state.queue key
  before : (state.futexes index).inUse = true → (state.futexes index).key = key
  others : ∀ other, other ≠ index → next.futexes other = state.futexes other
  others' : ∀ other, (state.futexes other).inUse = true → next.futexes other = state.futexes other
  rest : next = { state with futexes := next.futexes }
  missing : (state.futexes index).inUse = false →
    ∀ other, other < maxFutex → (state.futexes other).inUse = true →
      (state.futexes other).key ≠ key

theorem futexAlloc_given {next : Futexes} {key : Nat × Nat} {index : Nat}
    (given : futexAlloc state key = some (index, next)) : Given state next key index := by
  unfold futexAlloc at given
  split at given
  · rename_i slot found
    obtain ⟨rfl, rfl⟩ := Prod.mk.inj (Option.some.inj given)
    obtain ⟨used, is⟩ := futexFind_some found
    exact ⟨futexFind_bound found, used, is, (queue_find found).symm, fun _ => is,
      fun _ _ => rfl, fun _ _ => rfl, rfl, fun idle => absurd (used.symm.trans idle) nofun⟩
  · rename_i missing
    split at given
    · rename_i slot found
      obtain ⟨rfl, rfl⟩ := Prod.mk.inj (Option.some.inj given)
      have idle : (state.futexes slot).inUse = false := by
        have holds := List.find?_some found
        rwa [Bool.not_eq_true'] at holds
      have here : (state.setFutex slot ⟨true, key, []⟩).futexes slot = ⟨true, key, []⟩ :=
        update_self _ _ _
      have absent : ∀ other, other < maxFutex → (state.futexes other).inUse = true →
          (state.futexes other).key ≠ key := fun other bound used =>
        futexFind_none missing bound used
      refine ⟨List.mem_range.mp (List.mem_of_find?_eq_some found), by rw [here], by rw [here], ?_,
        fun used => absurd (used.symm.trans idle) nofun,
        fun other different => update_of_ne different _ _,
        fun other used => update_of_ne ?_ _ _, rfl, fun _ => absent⟩
      · rw [here]
        exact (queue_missing absent).symm
      · rintro rfl
        exact absurd (used.symm.trans idle) nofun
    · exact absurd given nofun

theorem Given.keyed {next : Futexes} {key : Nat × Nat} {index : Nat}
    (given : Given state next key index) (keyed : state.Keyed) : next.Keyed := by
  have fresh : ∀ other, other < maxFutex → other ≠ index → (state.futexes other).inUse = true →
      (state.futexes other).key ≠ key := by
    intro other bound different used is
    rcases Bool.eq_false_or_eq_true (state.futexes index).inUse with busy | idle
    · exact different (keyed other index bound given.bound used busy
        (is.trans (given.before busy).symm))
    · exact given.missing idle other bound used is
  intro first second boundFirst boundSecond usedFirst usedSecond is
  rcases eq_or_ne first index with rfl | one
  · rcases eq_or_ne second first with rfl | two
    · rfl
    · rw [given.others second two] at usedSecond is
      exact absurd (is.symm.trans given.named) (fresh second boundSecond two usedSecond)
  · rw [given.others first one] at usedFirst is
    rcases eq_or_ne second index with rfl | two
    · exact absurd (is.trans given.named) (fresh first boundFirst one usedFirst)
    · rw [given.others second two] at usedSecond is
      exact keyed first second boundFirst boundSecond usedFirst usedSecond is

/-! ### The law -/

/-- A waiter is a task with its deadline. -/
def Entry.waiter (entry : Entry) : Nat × Nat := (entry.tid, entry.expire)

/-- The waiters of a word, in the order of its queue. -/
def Futexes.waiters (state : Futexes) (key : Nat × Nat) : List (Nat × Nat) :=
  (state.queue key).map Entry.waiter

/-- Every waiter of the first word was woken, moved behind those of the second word with its own
deadline and in order, or left; the waiters of other words stay as they are. Of the waiters that
were woken only the live ones become ready. -/
def Preserved (state : Futexes) (call : RequeueCall) (after : Futexes) : Prop :=
  ∃ woken moved left : List (Nat × Nat),
    state.waiters (call.key state) = woken ++ moved ++ left ∧
    (∀ waiter ∈ woken, wakeable state.tasks waiter.1 = true →
      (after.tasks waiter.1).state = .ready) ∧
    (if call.mutexAddr = call.addr then after.waiters (call.key state) = left ++ moved
      else after.waiters (call.key state) = left ∧
        after.waiters (call.mutexKey state) = state.waiters (call.mutexKey state) ++ moved) ∧
    ∀ other, other ≠ call.key state → other ≠ call.mutexKey state →
      after.waiters other = state.waiters other

/-- The two words differ, or the call fails before its loops, or the wakes leave an empty queue
or a full one. -/
def RequeueCall.Ends (call : RequeueCall) (state : Futexes) : Prop :=
  call.mutexAddr = call.addr → call.addrValid = true → call.mutexAddrValid = true →
    call.word = call.expected →
    standing state.may call.maxWake.toNat (state.queue (call.key state)) = [] ∨
      maxParkers ≤ (standing state.may call.maxWake.toNat (state.queue (call.key state))).length

variable {call : RequeueCall}

/-- A call that changes nothing leaves every waiter where it is. -/
theorem preserved_same : Preserved state call state := by
  refine ⟨[], [], state.waiters (call.key state), rfl,
    fun waiter member => absurd member List.not_mem_nil, ?_, fun _ _ _ => rfl⟩
  split
  · exact (List.append_nil _).symm
  · exact ⟨rfl, (List.append_nil _).symm⟩

theorem rejoin_waiters (joins : Nat) (entries : List Entry) :
    (rejoin joins entries).map Entry.waiter = entries.map Entry.waiter := by
  induction entries generalizing joins with
  | nil => rfl
  | cons entry rest inductionHypothesis =>
    exact congrArg (entry.waiter :: ·) (inductionHypothesis (joins + 1))

theorem wakeFirst_self (state : Futexes) (index max : Nat) :
    (wakeFirst state index max).1.futexes index = { state.futexes index with
      waiters := standing state.may max (state.futexes index).waiters } := by
  show update state.futexes index _ index = _
  rw [update_self, wakeUpTo_left]
  rfl

theorem wakeFirst_other (state : Futexes) {index other : Nat} (different : other ≠ index)
    (max : Nat) : (wakeFirst state index max).1.futexes other = state.futexes other :=
  update_of_ne different _ _

/-- The front of the queue is woken. -/
theorem wakeFirst_front (state : Futexes) (index max : Nat) :
    ∃ front, (state.futexes index).waiters =
        front ++ standing state.may max (state.futexes index).waiters ∧
      ∀ entry ∈ front, wakeable state.tasks entry.tid = true →
        ((wakeFirst state index max).1.tasks entry.tid).state = .ready := by
  obtain ⟨front, split, ready⟩ := wakeUpTo_front max state.tasks (state.futexes index).waiters
  refine ⟨front, ?_, ready⟩
  rwa [wakeUpTo_left] at split

theorem vacate_waiters (state : Futexes) (src dst index : Nat) :
    ((vacate state src dst).futexes index).waiters = (state.futexes index).waiters := by
  unfold vacate
  split
  · rcases eq_or_ne index src with rfl | different
    · show (update state.futexes index _ index).waiters = _
      rw [update_self]
    · show (update state.futexes src _ index).waiters = _
      rw [update_of_ne different]
  · rfl

theorem vacate_key (state : Futexes) (src dst index : Nat) :
    ((vacate state src dst).futexes index).key = (state.futexes index).key := by
  unfold vacate
  split
  · rcases eq_or_ne index src with rfl | different
    · show (update state.futexes index _ index).key = _
      rw [update_self]
    · show (update state.futexes src _ index).key = _
      rw [update_of_ne different]
  · rfl

/-- Only an empty source gives its slot back. -/
theorem vacate_inUse (apart : src ≠ dst) (state : Futexes) (index : Nat) :
    ((vacate state src dst).futexes index).inUse = true ↔
      (state.futexes index).inUse = true ∧
        (index = src → (state.futexes index).waiters ≠ []) := by
  unfold vacate
  by_cases empty : (state.futexes src).waiters = []
  · rw [if_pos ⟨empty, apart⟩]
    rcases eq_or_ne index src with rfl | different
    · show (update state.futexes index _ index).inUse = true ↔ _
      rw [update_self]
      exact ⟨nofun, fun both => absurd empty (both.2 rfl)⟩
    · show (update state.futexes src _ index).inUse = true ↔ _
      rw [update_of_ne different]
      exact ⟨fun used => ⟨used, fun same => absurd same different⟩, And.left⟩
  · rw [if_neg fun both => empty both.1]
    refine ⟨fun used => ⟨used, ?_⟩, And.left⟩
    rintro rfl
    exact empty

theorem vacate_self (state : Futexes) (src : Nat) : vacate state src src = state :=
  if_neg fun both => both.2 rfl

theorem vacate_tasks (state : Futexes) (src dst : Nat) :
    (vacate state src dst).tasks = state.tasks := by
  unfold vacate
  split <;> rfl

theorem movedBy_src (state : Futexes) (src dst count : Nat) :
    (state.movedBy src dst count).futexes src = { state.futexes src with
      waiters := (state.futexes src).waiters.drop count } :=
  update_self _ _ _

theorem movedBy_dst (apart : src ≠ dst) (state : Futexes) (count : Nat) :
    (state.movedBy src dst count).futexes dst = { state.futexes dst with
      waiters := (state.futexes dst).waiters ++
        rejoin state.joins ((state.futexes src).waiters.take count) } := by
  show update (update state.futexes dst _) src _ dst = _
  rw [update_of_ne apart.symm, update_self]

theorem movedBy_other (state : Futexes) (count : Nat) {index : Nat} (notSrc : index ≠ src)
    (notDst : index ≠ dst) :
    (state.movedBy src dst count).futexes index = state.futexes index := by
  show update (update state.futexes dst _) src _ index = _
  rw [update_of_ne notSrc, update_of_ne notDst]

/-- The slots after wakes and moves between two of them. -/
structure Shifted (found after : Futexes) (src dst : Nat) (rest : List Entry) (count : Nat) :
    Prop where
  key : ∀ index, (after.futexes index).key = (found.futexes index).key
  used : ∀ index, (after.futexes index).inUse = true ↔
    (found.futexes index).inUse = true ∧ (index = src → rest.drop count ≠ [])
  source : (after.futexes src).waiters = rest.drop count
  target : (after.futexes dst).waiters.map Entry.waiter =
    (found.futexes dst).waiters.map Entry.waiter ++ (rest.take count).map Entry.waiter
  others : ∀ index, index ≠ src → index ≠ dst →
    (after.futexes index).waiters = (found.futexes index).waiters

theorem shifted (apart : src ≠ dst) (found : Futexes) (max count : Nat) :
    Shifted found (vacate ((wakeFirst found src max).1.movedBy src dst count) src dst) src dst
      (standing found.may max (found.futexes src).waiters) count := by
  have source : ((wakeFirst found src max).1.movedBy src dst count).futexes src =
      { found.futexes src with
        waiters := (standing found.may max (found.futexes src).waiters).drop count } := by
    rw [movedBy_src, wakeFirst_self]
  have target : ((wakeFirst found src max).1.movedBy src dst count).futexes dst =
      { found.futexes dst with
        waiters := (found.futexes dst).waiters ++ rejoin (wakeFirst found src max).1.joins
          ((standing found.may max (found.futexes src).waiters).take count) } := by
    rw [movedBy_dst apart, wakeFirst_other found apart.symm, wakeFirst_self]
  have others : ∀ index, index ≠ src → index ≠ dst →
      ((wakeFirst found src max).1.movedBy src dst count).futexes index =
        found.futexes index := by
    intro index notSrc notDst
    rw [movedBy_other _ count notSrc notDst, wakeFirst_other found notSrc]
  refine ⟨fun index => ?_, fun index => ?_, ?_, ?_, fun index notSrc notDst => ?_⟩
  · rw [vacate_key]
    rcases eq_or_ne index src with rfl | notSrc
    · rw [source]
    · rcases eq_or_ne index dst with rfl | notDst
      · rw [target]
      · rw [others index notSrc notDst]
  · rw [vacate_inUse apart]
    rcases eq_or_ne index src with rfl | notSrc
    · rw [source]
    · rcases eq_or_ne index dst with rfl | notDst
      · rw [target]
        exact and_congr_right fun _ =>
          ⟨fun _ same => absurd same notSrc, fun _ same => absurd same notSrc⟩
      · rw [others index notSrc notDst]
        exact and_congr_right fun _ =>
          ⟨fun _ same => absurd same notSrc, fun _ same => absurd same notSrc⟩
  · rw [vacate_waiters, source]
  · rw [vacate_waiters, target, List.map_append, rejoin_waiters]
  · rw [vacate_waiters, others index notSrc notDst]

/-- Wakes and moves between two words keep every waiter. -/
theorem preserved_moved {found : Futexes} (keyed : state.Keyed)
    (words : call.mutexAddr ≠ call.addr)
    (located : futexFind state (call.key state) = some src)
    (given : Given state found (call.mutexKey state) dst) (apart : src ≠ dst) (max count : Nat) :
    Preserved state call
      (vacate ((wakeFirst found src max).1.movedBy src dst count) src dst) := by
  obtain ⟨used, is⟩ := futexFind_some located
  have bound := futexFind_bound located
  have keyedFound := given.keyed keyed
  have tasks : found.tasks = state.tasks := by rw [given.rest]
  have slots := shifted apart found max count
  obtain ⟨front, split, ready⟩ := wakeFirst_front found src max
  have start : (found.futexes src).waiters = state.queue (call.key state) := by
    rw [given.others' src used, queue_find located]
  have same := given.others' src used
  rw [← same] at used is
  generalize standing found.may max (found.futexes src).waiters = rest at slots split
  have ready' : ∀ entry ∈ front, wakeable state.tasks entry.tid = true →
      ((vacate ((wakeFirst found src max).1.movedBy src dst count) src dst).tasks
        entry.tid).state = .ready := by
    intro entry member may
    rw [vacate_tasks]
    exact ready entry member (tasks ▸ may)
  generalize vacate ((wakeFirst found src max).1.movedBy src dst count) src dst = after at *
  have keyedAfter : after.Keyed := keyedFound.kept fun index inUse =>
    ⟨((slots.used index).mp inUse).1, slots.key index⟩
  refine ⟨front.map Entry.waiter, (rest.take count).map Entry.waiter,
    (rest.drop count).map Entry.waiter, ?_, ?_, ?_, fun other notFirst notSecond => ?_⟩
  · unfold Futexes.waiters
    rw [← start, split, List.append_assoc, ← List.map_append, List.take_append_drop,
      List.map_append]
  · intro waiter member may
    obtain ⟨entry, inside, rfl⟩ := List.mem_map.mp member
    exact ready' entry inside may
  · rw [if_neg words]
    constructor
    · refine congrArg (List.map Entry.waiter) ?_
      by_cases empty : rest.drop count = []
      · rw [empty]
        refine queue_missing fun index bound' inUse named => ?_
        obtain ⟨before, waits⟩ := (slots.used index).mp inUse
        refine waits ?_ empty
        exact keyedFound index src bound' bound before used
          (((slots.key index).symm.trans named).trans is.symm)
      · rw [keyedAfter.queue bound ((slots.used src).mpr ⟨used, fun _ => empty⟩)
          ((slots.key src).trans is), slots.source]
    · unfold Futexes.waiters
      rw [keyedAfter.queue given.bound ((slots.used dst).mpr
          ⟨given.used, fun same => absurd same.symm apart⟩)
        ((slots.key dst).trans given.named), slots.target, given.waiters]
  · refine congrArg (List.map Entry.waiter) ?_
    by_cases known : ∃ index, index < maxFutex ∧ (state.futexes index).inUse = true ∧
        (state.futexes index).key = other
    · obtain ⟨index, bound', inUse, named⟩ := known
      have same := given.others' index inUse
      have notSrc : index ≠ src := by
        rintro rfl
        exact notFirst (named.symm.trans (same ▸ is))
      have notDst : index ≠ dst := by
        rintro rfl
        exact notSecond (named.symm.trans (same ▸ given.named))
      rw [keyed.queue bound' inUse named, keyedAfter.queue bound'
        ((slots.used index).mpr ⟨same ▸ inUse, fun equal => absurd equal notSrc⟩)
        ((slots.key index).trans (same ▸ named)), slots.others index notSrc notDst, same]
    · rw [queue_missing fun index bound' inUse named => known ⟨index, bound', inUse, named⟩]
      refine queue_missing fun index bound' inUse named => ?_
      obtain ⟨before, -⟩ := (slots.used index).mp inUse
      have foundNamed := (slots.key index).symm.trans named
      rcases eq_or_ne index dst with rfl | notDst
      · exact notSecond (foundNamed.symm.trans given.named)
      · rw [given.others index notDst] at before foundNamed
        exact known ⟨index, bound', before, foundNamed⟩

/-- Wakes alone keep every waiter of a word requeued to itself. -/
theorem preserved_woken (keyed : state.Keyed) (same : call.mutexAddr = call.addr)
    (located : futexFind state (call.key state) = some src) (max : Nat) :
    Preserved state call (wakeFirst state src max).1 := by
  obtain ⟨used, is⟩ := futexFind_some located
  have bound := futexFind_bound located
  obtain ⟨front, split, ready⟩ := wakeFirst_front state src max
  have slots : ∀ index, ((wakeFirst state src max).1.futexes index).inUse =
      (state.futexes index).inUse ∧
      ((wakeFirst state src max).1.futexes index).key = (state.futexes index).key := by
    intro index
    rcases eq_or_ne index src with rfl | different
    · rw [wakeFirst_self]
      exact ⟨rfl, rfl⟩
    · rw [wakeFirst_other state different]
      exact ⟨rfl, rfl⟩
  have keyedAfter : (wakeFirst state src max).1.Keyed := keyed.kept fun index inUse =>
    ⟨(slots index).1 ▸ inUse, (slots index).2⟩
  have own := wakeFirst_self state src max
  refine ⟨front.map Entry.waiter, [],
    (standing state.may max (state.futexes src).waiters).map Entry.waiter, ?_, ?_, ?_,
    fun other notFirst _ => ?_⟩
  · unfold Futexes.waiters
    rw [queue_find located, List.append_nil, ← List.map_append, ← split]
  · intro waiter member may
    obtain ⟨entry, inside, rfl⟩ := List.mem_map.mp member
    exact ready entry inside may
  · rw [if_pos same, List.append_nil]
    refine congrArg (List.map Entry.waiter) ?_
    rw [keyedAfter.queue bound ((slots src).1.trans used) ((slots src).2.trans is), own]
  · refine congrArg (List.map Entry.waiter) ?_
    by_cases known : ∃ index, index < maxFutex ∧ (state.futexes index).inUse = true ∧
        (state.futexes index).key = other
    · obtain ⟨index, bound', inUse, named⟩ := known
      have notSrc : index ≠ src := by
        rintro rfl
        exact notFirst (named.symm.trans is)
      rw [keyed.queue bound' inUse named, keyedAfter.queue bound' ((slots index).1.trans inUse)
        ((slots index).2.trans named), wakeFirst_other state notSrc]
    · rw [queue_missing fun index bound' inUse named => known ⟨index, bound', inUse, named⟩]
      exact queue_missing fun index bound' inUse named =>
        known ⟨index, bound', (slots index).1 ▸ inUse, (slots index).2.symm.trans named⟩

/-! ### Ends -/

/-- A call that reaches its loops, between two words. -/
theorem futexRequeueFor_apart {found : Futexes} (fuel : Nat) (valid : ¬(call.addrValid = false ∨ call.mutexAddrValid = false))
    (equal : call.word = call.expected) (words : call.mutexAddr ≠ call.addr)
    (located : futexFind state (call.key state) = some src)
    (given : futexAlloc state (call.mutexKey state) = some (dst, found)) :
    futexRequeueFor fuel state call =
      (moveLoop fuel (wakeFirst found src call.maxWake.toNat).1 src dst 0).map fun moved =>
        (vacate moved.1 src dst,
          (((wakeFirst found src call.maxWake.toNat).2 + moved.2 : Nat) : Int)) := by
  unfold futexRequeueFor
  rw [if_neg valid, if_neg (not_not.mpr equal), located]
  dsimp only
  rw [if_neg words, given]

/-- A call that reaches its loops, of one word to itself. -/
theorem futexRequeueFor_self (fuel : Nat) (valid : ¬(call.addrValid = false ∨ call.mutexAddrValid = false))
    (equal : call.word = call.expected) (words : call.mutexAddr = call.addr)
    (located : futexFind state (call.key state) = some src) :
    futexRequeueFor fuel state call =
      (moveLoop fuel (wakeFirst state src call.maxWake.toNat).1 src src 0).map fun moved =>
        (vacate moved.1 src src,
          (((wakeFirst state src call.maxWake.toNat).2 + moved.2 : Nat) : Int)) := by
  unfold futexRequeueFor
  rw [if_neg valid, if_neg (not_not.mpr equal), located]
  dsimp only
  rw [if_pos words]

/-- The call comes to its end, and whatever it leaves when it does preserves the waiters. -/
def RequeueCall.Served (call : RequeueCall) (state : Futexes) : Prop :=
  (∃ fuel, (futexRequeueFor fuel state call).isSome = true) ∧
    ∀ fuel after result, futexRequeueFor fuel state call = some (after, result) →
      Preserved state call after

/-- A call that changes nothing, however much fuel it has, is served. -/
theorem served_same {result : Int}
    (returns : ∀ fuel, futexRequeueFor fuel state call = some (state, result)) :
    call.Served state := by
  refine ⟨⟨0, by rw [returns]; rfl⟩, fun fuel after code ends => ?_⟩
  obtain ⟨rfl, -⟩ := Prod.mk.inj (Option.some.inj ((returns fuel).symm.trans ends))
  exact preserved_same

/-- Between two words a call comes to its end. -/
theorem served_apart {found : Futexes} (keyed : state.Keyed) (valid : ¬(call.addrValid = false ∨ call.mutexAddrValid = false))
    (equal : call.word = call.expected) (words : call.mutexAddr ≠ call.addr)
    (located : futexFind state (call.key state) = some src)
    (given : futexAlloc state (call.mutexKey state) = some (dst, found)) :
    call.Served state := by
  have slot := futexAlloc_given given
  obtain ⟨used, is⟩ := futexFind_some located
  have apart : src ≠ dst := by
    rintro rfl
    rw [← slot.others' src used] at is
    exact words (Prod.mk.inj (is.symm.trans slot.named)).2.symm
  have runs := fun fuel =>
    (futexRequeueFor_apart fuel valid equal words located given).trans
      (congrArg (Option.map _) (moveLoop_apart apart fuel 0 _))
  refine ⟨⟨maxParkers + 1, ?_⟩, fun fuel after result ends => ?_⟩
  · rw [runs, if_pos (Nat.lt_succ_of_le ((Nat.min_le_right _ _).trans (Nat.sub_le _ _)))]
    rfl
  · rw [runs] at ends
    split at ends
    · obtain ⟨rfl, -⟩ := Prod.mk.inj (Option.some.inj ends)
      exact preserved_moved keyed words located slot apart _ _
    · exact absurd ends nofun

/-- A word requeued to itself comes to its end when nobody or a full queue is left. -/
theorem served_self (keyed : state.Keyed) (valid : ¬(call.addrValid = false ∨ call.mutexAddrValid = false))
    (equal : call.word = call.expected) (words : call.mutexAddr = call.addr)
    (located : futexFind state (call.key state) = some src) :
    call.Served state ↔
      (standing state.may call.maxWake.toNat (state.queue (call.key state)) = [] ∨
        maxParkers ≤
          (standing state.may call.maxWake.toNat (state.queue (call.key state))).length) := by
  have left : ((wakeFirst state src call.maxWake.toNat).1.futexes src).waiters =
      standing state.may call.maxWake.toNat (state.queue (call.key state)) := by
    rw [wakeFirst_self, queue_find located]
  have runs := fun fuel => (futexRequeueFor_self fuel valid equal words located).trans
    (congrArg (Option.map _) (moveLoop_self fuel 0 _ src))
  rw [left] at runs
  constructor
  · rintro ⟨⟨fuel, ends⟩, -⟩
    rw [runs] at ends
    split at ends
    · next stops => exact stops.1
    · exact absurd ends Bool.false_ne_true
  · intro stops
    refine ⟨⟨1, ?_⟩, fun fuel after result ends => ?_⟩
    · rw [runs, if_pos ⟨stops, Nat.one_pos⟩]
      rfl
    · rw [runs] at ends
      split at ends
      · obtain ⟨rfl, -⟩ := Prod.mk.inj (Option.some.inj ends)
        rw [vacate_self]
        exact preserved_woken keyed words located _
      · exact absurd ends nofun

/-- `futex_requeue` comes to its end and preserves the waiters exactly when the words differ, the
call fails before its loops, or the wakes leave an empty or a full queue. -/
theorem futexRequeue_served (keyed : state.Keyed) (call : RequeueCall) :
    call.Served state ↔ call.Ends state := by
  unfold RequeueCall.Ends
  by_cases invalid : call.addrValid = false ∨ call.mutexAddrValid = false
  · refine iff_of_true (@served_same state call (-2) fun fuel => if_pos invalid)
      fun _ valid validMutex _ => ?_
    exact invalid.elim (fun no => nomatch valid.symm.trans no)
      fun no => nomatch validMutex.symm.trans no
  · have valid : call.addrValid = true := Bool.of_not_eq_false fun no => invalid (Or.inl no)
    have validMutex : call.mutexAddrValid = true :=
      Bool.of_not_eq_false fun no => invalid (Or.inr no)
    by_cases equal : call.word = call.expected
    · cases located : futexFind state (call.key state) with
      | none =>
        have empty : state.queue (call.key state) = [] := by
          unfold Futexes.queue
          rw [located]
        refine iff_of_true (@served_same state call 0 fun fuel => ?_)
          fun _ _ _ _ => Or.inl ?_
        · unfold futexRequeueFor
          rw [if_neg invalid, if_neg (not_not.mpr equal), located]
        · rw [empty]
          cases call.maxWake.toNat <;> rfl
      | some src =>
        by_cases words : call.mutexAddr = call.addr
        · rw [served_self keyed invalid equal words located]
          exact ⟨fun stops _ _ _ _ => stops, fun stops => stops words valid validMutex equal⟩
        · refine iff_of_true ?_ fun same => absurd same words
          cases given : futexAlloc state (call.mutexKey state) with
          | none =>
            refine @served_same state call (-2) fun fuel => ?_
            unfold futexRequeueFor
            rw [if_neg invalid, if_neg (not_not.mpr equal), located]
            dsimp only
            rw [if_neg words, given]
          | some slot => exact served_apart keyed invalid equal words located given
    · refine iff_of_true (@served_same state call (-1) fun fuel => ?_)
        fun _ _ _ same => absurd same equal
      unfold futexRequeueFor
      rw [if_neg invalid, if_pos equal]

/-! ### The step of the transition system -/

theorem vacate_movedBy (apart : src ≠ dst) (state : Futexes)
    (used : (state.futexes src).inUse = true) :
    vacate (state.movedBy src dst (maxParkers - (state.futexes dst).waiters.length)) src dst =
      moveRest state src dst := by
  unfold vacate
  rw [movedBy_src]
  unfold Futexes.movedBy moveRest Futexes.setFutex
  dsimp only
  generalize (state.futexes src).waiters.drop _ = rest
  cases rest with
  | nil =>
    rw [if_pos ⟨rfl, apart⟩, update_idem]
    rfl
  | cons entry later =>
    rw [if_neg fun both => nomatch both.1]
    show _ = { state with
      futexes := update (update state.futexes dst _) src
        ⟨true, (state.futexes src).key, entry :: later⟩
      parks := _
      joins := _ }
    rw [← used]

/-! ### Runs -/

variable {next : Futexes}

/-- A slot that changes may lose its word but takes no other one. -/
theorem Futexes.Keyed.setFutex (keyed : state.Keyed) {index : Nat} {futex : Futex}
    (key : futex.key = (state.futexes index).key)
    (used : futex.inUse = true → (state.futexes index).inUse = true) :
    (state.setFutex index futex).Keyed := by
  refine keyed.kept fun other inUse => ?_
  rcases eq_or_ne other index with rfl | different
  · rw [setFutex_self] at inUse ⊢
    exact ⟨used inUse, key⟩
  · rw [setFutex_other state different] at inUse ⊢
    exact ⟨inUse, rfl⟩

theorem Futexes.Keyed.wait (keyed : state.Keyed) (tid addr : Nat) (equal : Bool)
    (timeout : Option Nat) : (futexWait state tid addr equal timeout).Keyed := by
  unfold futexWait
  split
  · exact keyed
  dsimp only
  split
  · exact keyed
  rename_i index found given
  have keyedFound := (futexAlloc_given given).keyed keyed
  split
  · exact keyedFound
  · exact keyedFound.setFutex rfl id

theorem Futexes.Keyed.wake (keyed : state.Keyed) (caller addr : Nat) (max : Int) :
    (futexWake state caller addr max).1.Keyed := by
  unfold futexWake
  split
  · exact keyed
  split
  · exact keyed
  rename_i index found
  exact keyed.setFutex rfl fun _ => (futexFind_some found).1

theorem Futexes.Keyed.requeue (keyed : state.Keyed) {caller addr mutexAddr : Nat} {equal : Bool}
    {maxWake : Int}
    (taken : futexRequeue state caller addr equal mutexAddr maxWake = some next) :
    next.Keyed := by
  unfold futexRequeue at taken
  split at taken
  · obtain rfl := Option.some.inj taken
    exact keyed
  split at taken
  · obtain rfl := Option.some.inj taken
    exact keyed
  rename_i src located
  obtain ⟨used, _⟩ := futexFind_some located
  split at taken
  · obtain rfl := Option.some.inj taken
    exact keyed
  rename_i dst found given
  have ready : found.Keyed ∧ (found.futexes src).inUse = true := by
    split at given
    · obtain ⟨rfl, rfl⟩ := Prod.mk.inj (Option.some.inj given)
      exact ⟨keyed, used⟩
    · have slot := futexAlloc_given given
      exact ⟨slot.keyed keyed, (slot.others' src used).symm ▸ used⟩
  obtain ⟨keyedFound, usedSrc⟩ := ready
  have woken : (wakeFirst found src maxWake.toNat).1.Keyed :=
    keyedFound.setFutex rfl fun _ => usedSrc
  have usedWoken : ((wakeFirst found src maxWake.toNat).1.futexes src).inUse = true := by
    rw [wakeFirst_self]
    exact usedSrc
  dsimp only at taken
  split at taken
  · obtain ⟨_, same⟩ := Option.ite_none_right_eq_some.mp taken
    obtain rfl := Option.some.inj same
    exact woken
  · rename_i apart
    obtain rfl := Option.some.inj taken
    show (moveRest (wakeFirst found src maxWake.toNat).1 src dst).Keyed
    rw [← vacate_movedBy apart _ usedWoken]
    have slots := shifted apart found maxWake.toNat
      (maxParkers - ((wakeFirst found src maxWake.toNat).1.futexes dst).waiters.length)
    exact keyedFound.kept fun index inUse =>
      ⟨((slots.used index).mp inUse).1, slots.key index⟩

theorem Futexes.Keyed.sweep (keyed : state.Keyed) : (futexSweep state).Keyed := by
  refine keyed.kept fun index inUse => ?_
  unfold futexSweep at inUse ⊢
  dsimp only at inUse ⊢
  split at inUse
  · next swept =>
    rw [if_pos swept]
    exact ⟨swept.2, rfl⟩
  · next other =>
    rw [if_neg other]
    exact ⟨inUse, rfl⟩

theorem Futexes.Keyed.cleanup (keyed : state.Keyed) (tid : Nat) :
    (futexCleanup state tid).Keyed := by
  unfold futexCleanup
  split
  · exact keyed
  · exact keyed.kept fun index inUse => ⟨inUse, rfl⟩

theorem Futexes.Keyed.step (keyed : state.Keyed) {label : FutexLabel}
    (taken : futexStep state label = some next) : next.Keyed := by
  cases label with
  | wait tid addr equal timeout =>
    obtain ⟨_, same⟩ := Option.ite_none_right_eq_some.mp taken
    obtain rfl := Option.some.inj same
    exact keyed.wait tid addr equal timeout
  | finish tid =>
    unfold futexStep at taken
    dsimp only at taken
    split at taken
    · obtain ⟨_, same⟩ := Option.ite_none_right_eq_some.mp taken
      obtain rfl := Option.some.inj same
      exact keyed
    · exact absurd taken nofun
  | wake caller addr maxWaiters =>
    obtain rfl := Option.some.inj taken
    exact keyed.wake caller addr maxWaiters
  | requeue caller addr equal mutexAddr maxWake => exact keyed.requeue taken
  | sweep =>
    obtain rfl := Option.some.inj taken
    exact keyed.sweep
  | tick =>
    obtain rfl := Option.some.inj taken
    exact keyed
  | cleanup tid =>
    obtain rfl := Option.some.inj taken
    exact keyed.cleanup tid
  | space tid pageDir =>
    obtain ⟨_, same⟩ := Option.ite_none_right_eq_some.mp taken
    obtain rfl := Option.some.inj same
    exact keyed
  | task step =>
    obtain ⟨tasks, _, rfl⟩ := Option.map_eq_some_iff.mp taken
    cases step <;> exact keyed

/-- In every state of every run the slots in use belong to different words. -/
theorem keyed_reachable (reachable : futexSystem.Reachable anyStep state) : state.Keyed :=
  reachable.invariant Futexes.Keyed
    (fun _ initial first _ _ _ used _ _ =>
      absurd ((initial.1 first).1.symm.trans used) Bool.false_ne_true)
    fun _ _ _ keyed _ taken => keyed.step taken

/-- Task 1 of `sixThreads` waits on word 8. -/
def oneParked : Futexes := futexWait sixThreads 1 8 true none

theorem oneParked_keyed : oneParked.Keyed :=
  keyed_reachable ((System.Reachable.init sixThreads_initial).step trivial
    (show futexStep sixThreads (.wait 1 8 true none) = some _ from rfl))

/-- A requeue of word 8 to word 9 moves its waiter. -/
theorem futexRequeue_served_moved :
    (⟨2, 8, 0, 9, 0, true, true, 0⟩ : RequeueCall).Served oneParked :=
  (futexRequeue_served oneParked_keyed ⟨2, 8, 0, 9, 0, true, true, 0⟩).mpr
    fun same => absurd same (by decide)

/-- A requeue of word 8 to itself turns its one waiter round for ever. -/
theorem futexRequeue_turns : ¬ ∀ (state : Futexes) (call : RequeueCall), state.Keyed →
    call.Served state := by
  intro always
  obtain ⟨⟨fuel, ends⟩, -⟩ := always oneParked ⟨2, 8, 0, 8, 0, true, true, 0⟩ oneParked_keyed
  have located : futexFind oneParked
      ((⟨2, 8, 0, 8, 0, true, true, 0⟩ : RequeueCall).key oneParked) = some 0 := by
    decide +kernel
  have waits : ¬(((wakeFirst oneParked 0 0).1.futexes 0).waiters = [] ∨
      maxParkers ≤ ((wakeFirst oneParked 0 0).1.futexes 0).waiters.length) := by
    decide +kernel
  rw [futexRequeueFor_self fuel (by decide) rfl rfl located, moveLoop_self,
    if_neg fun stops => waits stops.1] at ends
  exact absurd ends Bool.false_ne_true

end MectovOS.Sync
