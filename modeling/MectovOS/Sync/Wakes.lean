/-
This file proves that futex wakes are not lost in every run that does not
disturb the waiters. The invariant says that a queue holds tasks that are in a
wait on its word and have not been released, each once and in the order in
which they joined, and that every live waiter stands in the queue of its word.
-/

import MectovOS.Sync.Futex

namespace MectovOS.Sync

open Sched (maxTasks)
open Transition Function

/-! ### Waking several -/

theorem wakeable_congr {tasks others : Tasks} {tid : Nat} (same : others tid = tasks tid) :
    wakeable others tid = wakeable tasks tid := by
  unfold wakeable taskIsAlive
  rw [same]

/-- The loop wakes the first waiters that may be woken, and leaves the queue behind them. -/
theorem wakeUpTo_spec (max : Nat) {tasks : Tasks} {queue : List Entry}
    (nodup : (queue.map Entry.tid).Nodup) :
    ∃ front, queue = front ++ (wakeUpTo tasks max queue).2.1 ∧
      (wakeUpTo tasks max queue).1 = (front.map Entry.tid).filter (wakeable tasks) ∧
      (wakeUpTo tasks max queue).1.length ≤ max ∧
      ((wakeUpTo tasks max queue).1.length = max ∨ (wakeUpTo tasks max queue).2.1 = []) ∧
      ∀ tid, (wakeUpTo tasks max queue).2.2 tid =
        if tid ∈ (wakeUpTo tasks max queue).1 then { tasks tid with state := .ready }
        else tasks tid := by
  induction max generalizing tasks queue with
  | zero => exact ⟨[], rfl, rfl, Nat.le_refl 0, Or.inl rfl, fun _ => rfl⟩
  | succ max inductionHypothesis =>
    cases woken : wakeOne tasks Entry.tid queue with
    | mk first rest =>
      cases first with
      | none =>
        have nobody : (wakeOne tasks Entry.tid queue).1 = none := by rw [woken]
        obtain ⟨empty, none'⟩ := wakeOne_none nobody
        have here : wakeUpTo tasks (max + 1) queue = ([], rest, tasks) := by
          simp only [wakeUpTo, woken]
        rw [woken] at empty
        rw [here]
        refine ⟨queue, ?_, ?_, Nat.zero_le _, Or.inr empty, fun _ => rfl⟩
        · rw [show rest = [] from empty, List.append_nil]
        · refine (List.filter_eq_nil_iff.mpr fun tid member => ?_).symm
          obtain ⟨entry, inside, rfl⟩ := List.mem_map.mp member
          rw [none' entry inside]
          simp
      | some entry =>
        have somebody : (wakeOne tasks Entry.tid queue).1 = some entry := by rw [woken]
        obtain ⟨dropped, split, none', may⟩ := wakeOne_some somebody
        rw [woken] at split
        replace split : queue = dropped ++ entry :: rest := split
        have here : wakeUpTo tasks (max + 1) queue =
            (entry.tid :: (wakeUpTo (taskSetState tasks entry.tid .ready) max rest).1,
              (wakeUpTo (taskSetState tasks entry.tid .ready) max rest).2) := by
          simp only [wakeUpTo, woken]
        have apart : (rest.map Entry.tid).Nodup ∧ entry.tid ∉ rest.map Entry.tid := by
          rw [split, List.map_append, List.map_cons] at nodup
          have tail := List.nodup_cons.mp (List.nodup_append.mp nodup).2.1
          exact ⟨tail.2, tail.1⟩
        obtain ⟨front, later, chosen, few, ends, after⟩ :=
          @inductionHypothesis (taskSetState tasks entry.tid .ready) rest apart.1
        have same : ∀ tid ∈ front.map Entry.tid, wakeable (taskSetState tasks entry.tid .ready) tid =
            wakeable tasks tid := by
          intro tid member
          refine wakeable_congr (taskSetState_of_ne tasks ?_ .ready)
          rintro rfl
          refine apart.2 ?_
          rw [later, List.map_append]
          exact List.mem_append_left _ member
        rw [here]
        generalize wakeUpTo (taskSetState tasks entry.tid .ready) max rest = outcome at *
        refine ⟨dropped ++ entry :: front, ?_, ?_, Nat.succ_le_succ few, ?_, fun tid => ?_⟩
        · rw [split, later, List.append_assoc, List.cons_append]
        · have gone : (dropped.map Entry.tid).filter (wakeable tasks) = [] := by
            refine List.filter_eq_nil_iff.mpr fun tid member => ?_
            obtain ⟨other, inside, rfl⟩ := List.mem_map.mp member
            rw [none' other inside]
            simp
          rw [List.map_append, List.map_cons, List.filter_append, gone, List.nil_append,
            List.filter_cons_of_pos may, ← List.filter_congr same, ← chosen]
        · exact ends.imp (fun full => congrArg Nat.succ full) id
        · rw [after tid, taskSetState_ready may]
          rcases eq_or_ne tid entry.tid with rfl | different
          · rw [if_pos List.mem_cons_self]
            split
            · rw [update_self]
            · rw [update_self]
          · rw [update_of_ne different]
            simp only [List.mem_cons, different, false_or]

/-! ### The invariant -/

variable {state next : Futexes}

/-- A task that may call into the kernel. -/
def User (tasks : Tasks) (tid : Nat) : Prop :=
  0 < tid ∧ tid < maxTasks ∧ (tasks tid).isIdle = false

/-- A user task that is alive may be woken. -/
theorem User.wakeable_iff {tasks : Tasks} {tid : Nat} (user : User tasks tid) :
    wakeable tasks tid = true ↔ (tasks tid).state ≠ .dead := by
  rw [Sync.wakeable_iff]
  exact ⟨fun may => may.2.2.2, fun alive => ⟨user.1, user.2.2, user.2.1, alive⟩⟩

/-- What holds of one slot of the table: it is empty when it is not in use, and its queue holds
tasks that wait on its word, each once and in order. -/
structure Lined (state : Futexes) (index : Nat) : Prop where
  range : (state.futexes index).inUse = true → index < maxFutex
  unused : (state.futexes index).inUse = false → (state.futexes index).waiters = []
  queue : ∀ entry ∈ (state.futexes index).waiters,
    state.parks entry.tid = some ⟨(state.futexes index).key, false⟩ ∧ User state.tasks entry.tid
  nodup : ((state.futexes index).waiters.map Entry.tid).Nodup
  ordered : (state.futexes index).waiters.Pairwise fun first second => first.joined < second.joined
  joined : ∀ entry ∈ (state.futexes index).waiters, entry.joined < state.joins

/-- What an undisturbed run keeps. -/
structure Kept (state : Futexes) : Prop where
  lined : ∀ index, Lined state index
  distinct : ∀ first second, (state.futexes first).inUse = true →
    (state.futexes second).inUse = true →
    (state.futexes first).key = (state.futexes second).key → first = second
  present : ∀ key tid, state.Parked key tid → ∃ index, (state.futexes index).inUse = true ∧
    (state.futexes index).key = key ∧ tid ∈ (state.futexes index).waiters.map Entry.tid
  resting : ∀ tid, state.Waiting tid → (state.tasks tid).Resting

/-- A slot with an entry is in use. -/
theorem Lined.inUse {index : Nat} (lined : Lined state index) {entry : Entry}
    (member : entry ∈ (state.futexes index).waiters) : (state.futexes index).inUse = true := by
  by_contra idle
  rw [lined.unused (Bool.not_eq_true _ ▸ idle)] at member
  exact absurd member List.not_mem_nil

/-- A task stands in one queue at most. -/
theorem Kept.single (kept : Kept state) {first second : Nat} {one two : Entry}
    (member : one ∈ (state.futexes first).waiters)
    (member' : two ∈ (state.futexes second).waiters) (same : one.tid = two.tid) :
    first = second := by
  have park := ((kept.lined first).queue one member).1
  have park' := ((kept.lined second).queue two member').1
  rw [same, park'] at park
  exact kept.distinct first second ((kept.lined first).inUse member)
    ((kept.lined second).inUse member') (congrArg FutexPark.key (Option.some.inj park)).symm

/-- A task that is in no wait stands in no queue. -/
theorem Kept.absent (kept : Kept state) {tid : Nat} (free : ¬ state.Waiting tid) (index : Nat) :
    tid ∉ (state.futexes index).waiters.map Entry.tid := by
  intro member
  obtain ⟨entry, inside, rfl⟩ := List.mem_map.mp member
  exact free ⟨_, ((kept.lined index).queue entry inside).1, rfl⟩

/-- The slot of a word is found by its key. -/
theorem futexFind_some {key : Nat × Nat} {index : Nat} (found : futexFind state key = some index) :
    (state.futexes index).inUse = true ∧ (state.futexes index).key = key := by
  have holds := List.find?_some found
  rw [Bool.and_eq_true, decide_eq_true_iff] at holds
  exact holds

theorem Kept.find (kept : Kept state) {key : Nat × Nat} {index : Nat}
    (used : (state.futexes index).inUse = true) (is : (state.futexes index).key = key) :
    futexFind state key = some index := by
  cases found : futexFind state key with
  | none =>
    have none' := List.find?_eq_none.mp found index
      (List.mem_range.mpr ((kept.lined index).range used))
    rw [used, is] at none'
    simp at none'
  | some other =>
    obtain ⟨used', is'⟩ := futexFind_some found
    rw [kept.distinct other index used' used (is'.trans is.symm)]

/-- Entries leave the queues: each is released, or belongs to a dead task. -/
structure Released (state next : Futexes) (woken : List Nat) : Prop where
  key : ∀ index, (next.futexes index).key = (state.futexes index).key
  fewer : ∀ index, (next.futexes index).waiters.Sublist (state.futexes index).waiters
  used : ∀ index, (next.futexes index).inUse = true → (state.futexes index).inUse = true
  unused : ∀ index, (next.futexes index).inUse = false → (next.futexes index).waiters = []
  gone : ∀ index, ∀ entry ∈ (state.futexes index).waiters,
    entry ∈ (next.futexes index).waiters ∨ entry.tid ∈ woken ∨
      (state.tasks entry.tid).state = .dead
  stays : ∀ index, ∀ entry ∈ (next.futexes index).waiters, entry.tid ∉ woken
  parks : next.parks = releaseAll state.parks woken
  tasks : ∀ tid, tid ∉ woken → next.tasks tid = state.tasks tid
  joins : next.joins = state.joins

theorem releaseAll_of_notMem {parks : Nat → Option FutexPark} {woken : List Nat} {tid : Nat}
    (stays : tid ∉ woken) : releaseAll parks woken tid = parks tid := if_neg stays

/-- A park that is not released was not. -/
theorem releaseAll_waiting {parks : Nat → Option FutexPark} {woken : List Nat} {tid : Nat}
    {park : FutexPark} (is : releaseAll parks woken tid = some park)
    (waits : park.released = false) : tid ∉ woken ∧ parks tid = some park := by
  unfold releaseAll at is
  split at is
  · obtain ⟨before, _, rfl⟩ := Option.map_eq_some_iff.mp is
    exact absurd waits (by simp)
  · rename_i stays
    exact ⟨stays, is⟩

theorem Kept.released (kept : Kept state) {woken : List Nat}
    (released : Released state next woken) : Kept next := by
  have before : ∀ index, ∀ entry ∈ (next.futexes index).waiters,
      entry ∈ (state.futexes index).waiters :=
    fun index entry member => (released.fewer index).subset member
  refine ⟨fun index => ?_, fun first second used used' same => ?_, fun key tid parked => ?_,
    fun tid waits => ?_⟩
  · have lined := kept.lined index
    refine ⟨fun used => lined.range (released.used index used), released.unused index,
      fun entry member => ?_, lined.nodup.sublist ((released.fewer index).map Entry.tid),
      lined.ordered.sublist (released.fewer index), fun entry member => ?_⟩
    · obtain ⟨park, user⟩ := lined.queue entry (before index entry member)
      have stays := released.stays index entry member
      rw [released.parks, releaseAll_of_notMem stays, released.key]
      refine ⟨park, user.1, user.2.1, ?_⟩
      rw [released.tasks entry.tid stays]
      exact user.2.2
    · rw [released.joins]
      exact lined.joined entry (before index entry member)
  · rw [released.key, released.key] at same
    exact kept.distinct first second (released.used first used) (released.used second used') same
  · obtain ⟨is, alive⟩ := parked
    rw [released.parks] at is
    obtain ⟨stays, is⟩ := releaseAll_waiting is rfl
    rw [released.tasks tid stays] at alive
    obtain ⟨index, used, key', member⟩ := kept.present key tid ⟨is, alive⟩
    obtain ⟨entry, inside, rfl⟩ := List.mem_map.mp member
    rcases released.gone index entry inside with still | woke | dead
    · refine ⟨index, ?_, (released.key index).trans key', List.mem_map_of_mem still⟩
      by_contra idle
      rw [released.unused index (Bool.not_eq_true _ ▸ idle)] at still
      exact absurd still List.not_mem_nil
    · exact absurd woke stays
    · exact absurd dead alive
  · obtain ⟨park, is, waits⟩ := waits
    rw [released.parks] at is
    obtain ⟨stays, is⟩ := releaseAll_waiting is waits
    rw [released.tasks tid stays]
    exact kept.resting tid ⟨park, is, waits⟩

/-! ### Waking -/

/-- Waking up to a number of the waiters of one slot. -/
theorem Kept.wokenSlot (kept : Kept state) {index : Nat} (max : Nat) {inUse : Bool}
    (still : inUse = true → (state.futexes index).inUse = true)
    (empty : inUse = false →
      (wakeUpTo state.tasks max (state.futexes index).waiters).2.1 = []) :
    Released state
      { (state.setFutex index { state.futexes index with
          waiters := (wakeUpTo state.tasks max (state.futexes index).waiters).2.1,
          inUse := inUse }) with
        tasks := (wakeUpTo state.tasks max (state.futexes index).waiters).2.2
        parks := releaseAll state.parks
          (wakeUpTo state.tasks max (state.futexes index).waiters).1 }
      (wakeUpTo state.tasks max (state.futexes index).waiters).1 := by
  have lined := kept.lined index
  obtain ⟨front, split, chosen, _, _, after⟩ := @wakeUpTo_spec max state.tasks _ lined.nodup
  generalize wakeUpTo state.tasks max (state.futexes index).waiters = outcome at *
  obtain ⟨woken, rest, tasks⟩ := outcome
  simp only at split chosen after empty ⊢
  have slot : ∀ other, other ≠ index →
      update state.futexes index { state.futexes index with
        waiters := rest, inUse := inUse } other = state.futexes other :=
    fun other different => update_of_ne different _ _
  have wokenIn : ∀ tid ∈ woken, ∃ entry ∈ (state.futexes index).waiters,
      entry.tid = tid ∧ entry ∈ front := by
    intro tid member
    rw [chosen] at member
    obtain ⟨entry, inside, rfl⟩ := List.mem_map.mp (List.mem_of_mem_filter member)
    refine ⟨entry, ?_, rfl, inside⟩
    rw [split]
    exact List.mem_append_left _ inside
  refine ⟨fun other => ?_, fun other => ?_, fun other used => ?_, fun other idle => ?_,
    fun other entry member => ?_, fun other entry member => ?_, rfl, fun tid stays => ?_, rfl⟩
  · rcases eq_or_ne other index with rfl | different
    · simp only [Futexes.setFutex, update_self]
    · simp only [Futexes.setFutex, slot other different]
  · rcases eq_or_ne other index with rfl | different
    · simp only [Futexes.setFutex, update_self]
      rw [split]
      exact List.sublist_append_right front rest
    · simp only [Futexes.setFutex, slot other different]
      exact List.Sublist.refl _
  · rcases eq_or_ne other index with rfl | different
    · simp only [Futexes.setFutex, update_self] at used
      exact still used
    · simp only [Futexes.setFutex, slot other different] at used
      exact used
  · rcases eq_or_ne other index with rfl | different
    · simp only [Futexes.setFutex, update_self] at idle ⊢
      exact empty idle
    · simp only [Futexes.setFutex, slot other different] at idle ⊢
      exact (kept.lined other).unused idle
  · rcases eq_or_ne other index with rfl | different
    · simp only [Futexes.setFutex, update_self]
      have user := (lined.queue entry member).2
      rw [split] at member
      rcases List.mem_append.mp member with inFront | inRest
      · refine Or.inr ?_
        by_cases may : wakeable state.tasks entry.tid = true
        · refine Or.inl ?_
          rw [chosen]
          exact List.mem_filter.mpr ⟨List.mem_map_of_mem inFront, may⟩
        · exact Or.inr (not_not.mp fun alive => may (user.wakeable_iff.mpr alive))
      · exact Or.inl inRest
    · simp only [Futexes.setFutex, slot other different]
      exact Or.inl member
  · intro woke
    obtain ⟨taken, inside, same, inFront⟩ := wokenIn entry.tid woke
    rcases eq_or_ne other index with rfl | different
    · simp only [Futexes.setFutex, update_self] at member
      have nodup := lined.nodup
      rw [split, List.map_append] at nodup
      exact (List.nodup_append.mp nodup).2.2 taken.tid (List.mem_map_of_mem inFront) entry.tid
        (List.mem_map_of_mem member) same
    · simp only [Futexes.setFutex, slot other different] at member
      exact different (kept.single member inside same.symm)
  · exact (after tid).trans (if_neg stays)

/-- `futex_wake` takes entries out of one queue. -/
theorem Kept.wake (kept : Kept state) (caller addr : Nat) (max : Int) :
    Kept (futexWake state caller addr max).1 := by
  unfold futexWake
  split
  · exact kept
  split
  · exact kept
  · rename_i index found
    refine kept.released (kept.wokenSlot max.toNat (fun _ => (futexFind_some found).1) ?_)
    intro idle
    rwa [Bool.not_eq_false', List.isEmpty_iff] at idle

/-! ### A slot for a word -/

/-- What `futex_alloc` gives: the slot of the word, and every slot in use stays as it is. -/
structure Allotted (state next : Futexes) (key : Nat × Nat) (index : Nat) : Prop where
  used : (next.futexes index).inUse = true
  key : (next.futexes index).key = key
  kept : ∀ other, (state.futexes other).inUse = true → next.futexes other = state.futexes other
  rest : next = { state with futexes := next.futexes }

theorem Kept.alloc (kept : Kept state) {key : Nat × Nat} {index : Nat}
    (given : futexAlloc state key = some (index, next)) :
    Kept next ∧ Allotted state next key index := by
  unfold futexAlloc at given
  split at given
  · rename_i slot found
    obtain ⟨rfl, rfl⟩ := Prod.mk.inj (Option.some.inj given)
    obtain ⟨used, is⟩ := futexFind_some found
    exact ⟨kept, used, is, fun _ _ => rfl, rfl⟩
  · rename_i missing
    split at given
    · rename_i slot found
      obtain ⟨rfl, rfl⟩ := Prod.mk.inj (Option.some.inj given)
      have idle : (state.futexes slot).inUse = false := by
        simpa using List.find?_some found
      have within : slot < maxFutex := List.mem_range.mp (List.mem_of_find?_eq_some found)
      have fresh : ∀ other, (state.futexes other).inUse = true → other ≠ slot := by
        rintro other used rfl
        rw [idle] at used
        exact absurd used (by simp)
      have unknown : ∀ other, (state.futexes other).inUse = true →
          (state.futexes other).key ≠ key := by
        intro other used is
        rw [kept.find used is] at missing
        exact absurd missing (by simp)
      have same : ∀ other, other ≠ slot →
          (state.setFutex slot ⟨true, key, []⟩).futexes other = state.futexes other :=
        fun other different => update_of_ne different _ _
      have here : (state.setFutex slot ⟨true, key, []⟩).futexes slot = ⟨true, key, []⟩ :=
        update_self _ _ _
      refine ⟨⟨fun other => ?_, fun first second used used' is => ?_, fun word tid parked => ?_,
        kept.resting⟩, ⟨by rw [here], by rw [here], fun other used => same other (fresh other used),
        rfl⟩⟩
      · rcases eq_or_ne other slot with rfl | different
        · refine ⟨fun _ => within, fun _ => by rw [here], fun entry member => ?_, ?_, ?_,
            fun entry member => ?_⟩
          · rw [here] at member
            exact absurd member List.not_mem_nil
          · rw [here]
            exact List.nodup_nil
          · rw [here]
            exact List.Pairwise.nil
          · rw [here] at member
            exact absurd member List.not_mem_nil
        · obtain ⟨range, unused, queue, nodup, ordered, joined⟩ := kept.lined other
          rw [← same other different] at range unused queue nodup ordered joined
          exact ⟨range, unused, queue, nodup, ordered, joined⟩
      · rcases eq_or_ne first slot with rfl | one
        · rcases eq_or_ne second first with rfl | two
          · rfl
          · rw [same second two] at used' is
            rw [here] at is
            exact absurd is.symm (unknown second used')
        · rw [same first one] at used is
          rcases eq_or_ne second slot with rfl | two
          · rw [here] at is
            exact absurd is (unknown first used)
          · rw [same second two] at used' is
            exact kept.distinct first second used used' is
      · obtain ⟨other, used, is, member⟩ := kept.present word tid parked
        refine ⟨other, ?_⟩
        rw [same other (fresh other used)]
        exact ⟨used, is, member⟩
    · exact absurd given (by simp)

/-! ### Waiting -/

/-- A task that may make a system call is a user task in no wait. -/
theorem Futexes.caller_iff {tid : Nat} (caller : state.caller tid = true) :
    User state.tasks tid ∧ state.parks tid = none := by
  unfold Futexes.caller at caller
  simp only [Bool.and_eq_true, decide_eq_true_eq, Bool.not_eq_true', Option.isNone_iff_eq_none]
    at caller
  obtain ⟨⟨⟨⟨positive, within⟩, user⟩, _⟩, free⟩ := caller
  exact ⟨⟨positive, within, user⟩, free⟩

/-- A task joins the queue of a word and blocks. -/
theorem Kept.enqueue (kept : Kept state) {tid index : Nat} {key : Nat × Nat} (expire : Nat)
    (user : User state.tasks tid) (free : state.parks tid = none)
    (used : (state.futexes index).inUse = true) (is : (state.futexes index).key = key) :
    Kept { (state.setFutex index { state.futexes index with
        waiters := (state.futexes index).waiters ++ [⟨tid, expire, state.joins⟩] }) with
      tasks := taskSetState state.tasks tid .blocked
      parks := update state.parks tid (some ⟨key, false⟩)
      joins := state.joins + 1 } := by
  have outside : ¬ state.Waiting tid := by
    rintro ⟨park, parked, _⟩
    rw [free] at parked
    exact absurd parked (by simp)
  have absent := kept.absent outside
  have slot : ∀ other, other ≠ index → update state.futexes index
      { state.futexes index with
        waiters := (state.futexes index).waiters ++ [⟨tid, expire, state.joins⟩] } other =
      state.futexes other := fun other different => update_of_ne different _ _
  have queued : ∀ other, ∀ entry ∈ (state.futexes other).waiters,
      update state.parks tid (some ⟨key, false⟩) entry.tid =
        some ⟨(state.futexes other).key, false⟩ ∧
      User (taskSetState state.tasks tid .blocked) entry.tid := by
    intro other entry member
    obtain ⟨park, usual⟩ := (kept.lined other).queue entry member
    have different : entry.tid ≠ tid := by
      intro same
      exact absent other (same ▸ List.mem_map_of_mem member)
    refine ⟨by rw [update_of_ne different, park], usual.1, usual.2.1, ?_⟩
    rw [taskSetState_isIdle]
    exact usual.2.2
  refine ⟨fun other => ?_, fun first second one two same => ?_, fun word waiter parked => ?_,
    fun waiter waits => ?_⟩
  · have lined := kept.lined other
    rcases eq_or_ne other index with rfl | different
    · simp only [Futexes.setFutex]
      refine ⟨fun _ => lined.range used, fun idle => ?_, fun entry member => ?_, ?_, ?_,
        fun entry member => ?_⟩
      · simp only [update_self] at idle
        rw [used] at idle
        exact absurd idle (by simp)
      · simp only [update_self] at member ⊢
        rcases List.mem_append.mp member with before | now
        · exact queued other entry before
        · obtain rfl := List.mem_singleton.mp now
          refine ⟨by rw [update_self, is], user.1, user.2.1, ?_⟩
          rw [taskSetState_isIdle]
          exact user.2.2
      · simp only [update_self, List.map_append, List.map_cons, List.map_nil]
        exact List.nodup_append.mpr ⟨lined.nodup, List.nodup_singleton _,
          fun one first two second same => absent other
            ((List.mem_singleton.mp second) ▸ same ▸ first)⟩
      · simp only [update_self]
        refine List.pairwise_append.mpr ⟨lined.ordered, List.pairwise_singleton _ _,
          fun one first two second => ?_⟩
        obtain rfl := List.mem_singleton.mp second
        exact lined.joined one first
      · simp only [update_self] at member
        rcases List.mem_append.mp member with before | now
        · exact Nat.lt_succ_of_lt (lined.joined entry before)
        · obtain rfl := List.mem_singleton.mp now
          exact Nat.lt_succ_self _
    · simp only [Futexes.setFutex]
      refine ⟨fun inUse => ?_, fun idle => ?_, fun entry member => ?_, ?_, ?_,
        fun entry member => ?_⟩
      · simp only [slot other different] at inUse
        exact lined.range inUse
      · simp only [slot other different] at idle ⊢
        exact lined.unused idle
      · simp only [slot other different] at member ⊢
        exact queued other entry member
      · simp only [slot other different]
        exact lined.nodup
      · simp only [slot other different]
        exact lined.ordered
      · simp only [slot other different] at member
        exact Nat.lt_succ_of_lt (lined.joined entry member)
  · have still : ∀ other, (update state.futexes index { state.futexes index with
        waiters := (state.futexes index).waiters ++ [⟨tid, expire, state.joins⟩] } other).inUse =
        (state.futexes other).inUse ∧ (update state.futexes index
        { state.futexes index with
          waiters := (state.futexes index).waiters ++ [⟨tid, expire, state.joins⟩] } other).key =
        (state.futexes other).key := by
      intro other
      rcases eq_or_ne other index with rfl | different
      · rw [update_self]
        exact ⟨rfl, rfl⟩
      · rw [slot other different]
        exact ⟨rfl, rfl⟩
    simp only [Futexes.setFutex, (still _).1, (still _).2] at one two same
    exact kept.distinct first second one two same
  · obtain ⟨park, alive⟩ := parked
    simp only [Futexes.setFutex] at park alive ⊢
    rcases eq_or_ne waiter tid with rfl | different
    · rw [update_self] at park
      refine ⟨index, ?_, ?_, ?_⟩
      · rw [update_self]
        exact used
      · rw [update_self]
        exact is.trans (congrArg FutexPark.key (Option.some.inj park))
      · rw [update_self, List.map_append]
        exact List.mem_append_right _ (List.mem_singleton.mpr rfl)
    · rw [update_of_ne different] at park
      rw [taskSetState_of_ne state.tasks different] at alive
      obtain ⟨other, inUse, word', member⟩ := kept.present word waiter ⟨park, alive⟩
      refine ⟨other, ?_⟩
      rcases eq_or_ne other index with rfl | apart
      · rw [update_self, List.map_append]
        exact ⟨inUse, word', List.mem_append_left _ member⟩
      · rw [slot other apart]
        exact ⟨inUse, word', member⟩
  · obtain ⟨park, parked, without⟩ := waits
    rcases eq_or_ne waiter tid with rfl | different
    · show (taskSetState state.tasks waiter .blocked waiter).Resting
      rw [taskSetState_blocked user.2.1 user.2.2, update_self]
      exact Or.inl rfl
    · replace parked : update state.parks tid (some ⟨key, false⟩) waiter =
        some park := parked
      rw [update_of_ne different] at parked
      show (taskSetState state.tasks tid .blocked waiter).Resting
      rw [taskSetState_of_ne state.tasks different]
      exact kept.resting waiter ⟨park, parked, without⟩

theorem Kept.wait (kept : Kept state) {tid : Nat} (caller : state.caller tid = true) (addr : Nat)
    (equal : Bool) (timeout : Option Nat) : Kept (futexWait state tid addr equal timeout) := by
  obtain ⟨user, free⟩ := Futexes.caller_iff caller
  unfold futexWait
  split
  · exact kept
  simp only
  split
  · exact kept
  · rename_i index found given
    obtain ⟨keptFound, allotted⟩ := kept.alloc given
    split
    · exact keptFound
    · have tasks : found.tasks = state.tasks := by rw [allotted.rest]
      have parks : found.parks = state.parks := by rw [allotted.rest]
      have joins : found.joins = state.joins := by rw [allotted.rest]
      rw [← tasks] at user
      rw [← parks] at free
      have queued := keptFound.enqueue (deadline state.ticks timeout) user free allotted.used
        allotted.key
      rw [tasks, parks, joins] at queued
      exact queued

/-! ### Tasks -/

/-- Tasks and parked calls change, but no task that stands in a queue notices. -/
theorem Kept.frame (kept : Kept state) (futexes : next.futexes = state.futexes)
    (joins : next.joins = state.joins)
    (queued : ∀ index, ∀ entry ∈ (state.futexes index).waiters,
      next.parks entry.tid = state.parks entry.tid)
    (idle : ∀ tid, (next.tasks tid).isIdle = (state.tasks tid).isIdle)
    (parked : ∀ key tid, next.Parked key tid → state.Parked key tid)
    (resting : ∀ tid, next.Waiting tid → (next.tasks tid).Resting) : Kept next := by
  refine ⟨fun index => ?_, fun first second => ?_, fun key tid waits => ?_, resting⟩
  · have lined := kept.lined index
    refine ⟨?_, ?_, fun entry member => ?_, ?_, ?_, fun entry member => ?_⟩
    · rw [futexes]
      exact lined.range
    · rw [futexes]
      exact lined.unused
    · rw [futexes] at member ⊢
      obtain ⟨park, user⟩ := lined.queue entry member
      rw [queued index entry member]
      refine ⟨park, user.1, user.2.1, ?_⟩
      rw [idle]
      exact user.2.2
    · rw [futexes]
      exact lined.nodup
    · rw [futexes]
      exact lined.ordered
    · rw [futexes] at member
      rw [joins]
      exact lined.joined entry member
  · rw [futexes]
    exact kept.distinct first second
  · rw [futexes]
    exact kept.present key tid (parked key tid waits)

/-- A call that returns was released. -/
theorem Kept.finish (kept : Kept state) {tid : Nat} (onCpu : (state.tasks tid).onCpu = true)
    (awake : (state.tasks tid).state ≠ .blocked) :
    Kept { state with parks := update state.parks tid none } := by
  have free : ¬ state.Waiting tid := by
    intro waits
    rcases kept.resting tid waits with blocked | ⟨offCpu, _⟩
    · exact awake blocked
    · rw [onCpu] at offCpu
      exact absurd offCpu (by simp)
  have same : ∀ other park, update state.parks tid none other = some park →
      state.parks other = some park := by
    intro other park is
    rcases eq_or_ne other tid with rfl | different
    · rw [update_self] at is
      exact absurd is (by simp)
    · rwa [update_of_ne different] at is
  refine kept.frame rfl rfl (fun index entry member => ?_) (fun _ => rfl)
    (fun key other parked => ⟨same other _ parked.1, parked.2⟩)
    fun other ⟨park, is, waits⟩ => kept.resting other ⟨park, same other park is, waits⟩
  refine update_of_ne ?_ _ _
  rintro rfl
  exact kept.absent free index (List.mem_map_of_mem member)

/-- A step of a task keeps it idle or not, and revives it only as a new task. -/
theorem TaskStep.apply_keeps {step : TaskStep} {task next : Task}
    (taken : step.apply task = some next) :
    next.isIdle = task.isIdle ∧
      (task.state = .dead → next.state = .dead ∨ ∃ tid, step = .reuse tid) := by
  cases step with
  | wake tid =>
    obtain ⟨blocked, same⟩ := Option.ite_none_right_eq_some.mp taken
    obtain rfl := Option.some.inj same
    exact ⟨rfl, fun dead => absurd (blocked.symm.trans dead) (by simp)⟩
  | stop tid =>
    obtain ⟨alive, same⟩ := Option.ite_none_right_eq_some.mp taken
    obtain rfl := Option.some.inj same
    exact ⟨rfl, fun dead => absurd dead alive⟩
  | cont tid =>
    obtain ⟨stopped, same⟩ := Option.ite_none_right_eq_some.mp taken
    obtain rfl := Option.some.inj same
    exact ⟨rfl, fun dead => absurd (stopped.symm.trans dead) (by simp)⟩
  | kill tid =>
    obtain ⟨_, same⟩ := Option.ite_none_right_eq_some.mp taken
    obtain rfl := Option.some.inj same
    exact ⟨rfl, fun _ => Or.inl rfl⟩
  | reuse tid =>
    obtain ⟨_, same⟩ := Option.ite_none_right_eq_some.mp taken
    obtain rfl := Option.some.inj same
    exact ⟨rfl, fun _ => Or.inr ⟨tid, rfl⟩⟩
  | preempt tid =>
    obtain ⟨_, same⟩ := Option.ite_none_right_eq_some.mp taken
    obtain rfl := Option.some.inj same
    exact ⟨rfl, Or.inl⟩
  | dispatch tid =>
    obtain ⟨_, same⟩ := Option.ite_none_right_eq_some.mp taken
    obtain rfl := Option.some.inj same
    exact ⟨rfl, Or.inl⟩

theorem Kept.task (kept : Kept state) {step : TaskStep}
    (calm : step.Calm state.tasks state.Waiting state.Queued)
    (taken : futexStep state (.task step) = some next) : Kept next := by
  obtain ⟨tasks, ran, same⟩ := Option.map_eq_some_iff.mp taken
  obtain ⟨task, applied, rfl⟩ := Option.map_eq_some_iff.mp ran
  obtain ⟨idle, revived⟩ := TaskStep.apply_keeps applied
  have idles : ∀ tid, (update state.tasks step.tid task tid).isIdle =
      (state.tasks tid).isIdle := by
    intro tid
    rcases eq_or_ne tid step.tid with rfl | different
    · rw [update_self, idle]
    · rw [update_of_ne different]
  have rests : ∀ tid, state.Waiting tid → (∀ other, step = .reuse other → tid ≠ other) →
      (update state.tasks step.tid task tid).Resting := by
    intro tid waits old
    rcases eq_or_ne tid step.tid with rfl | different
    · rw [update_self]
      rcases (kept.resting _ waits).apply calm waits applied with still | ⟨other, rfl⟩
      · exact still
      · exact absurd rfl (old other rfl)
    · rw [update_of_ne different]
      exact kept.resting tid waits
  have alive : ∀ tid, (∀ other, step = .reuse other → tid ≠ other) →
      (update state.tasks step.tid task tid).state ≠ .dead →
      (state.tasks tid).state ≠ .dead := by
    intro tid old lives dead
    rcases eq_or_ne tid step.tid with rfl | different
    · rw [update_self] at lives
      rcases revived dead with still | ⟨other, rfl⟩
      · exact lives still
      · exact old other rfl rfl
    · rw [update_of_ne different] at lives
      exact lives dead
  by_cases reused : ∃ tid, step = .reuse tid
  · obtain ⟨tid, rfl⟩ := reused
    subst same
    have same : ∀ other park, update state.parks tid none other = some park →
        other ≠ tid ∧ state.parks other = some park := by
      intro other park is
      rcases eq_or_ne other tid with rfl | different
      · rw [update_self] at is
        exact absurd is (by simp)
      · exact ⟨different, by rwa [update_of_ne different] at is⟩
    refine kept.frame rfl rfl (fun index entry member => ?_) idles (fun key other parked => ?_)
      fun other waits => ?_
    · refine update_of_ne ?_ _ _
      rintro rfl
      exact calm ⟨index, (kept.lined index).inUse member, List.mem_map_of_mem member⟩
    · obtain ⟨different, park⟩ := same other _ parked.1
      exact ⟨park, alive other (fun _ is => (TaskStep.reuse.inj is) ▸ different) parked.2⟩
    · obtain ⟨park, is, without⟩ := waits
      obtain ⟨different, before⟩ := same other park is
      exact rests other ⟨park, before, without⟩ fun _ is => (TaskStep.reuse.inj is) ▸ different
  · have old : ∀ tid other, step = .reuse other → tid ≠ other :=
      fun tid other is => absurd ⟨other, is⟩ reused
    obtain rfl : { state with tasks := update state.tasks step.tid task } = next := by
      rw [← same]
      cases step with
      | reuse tid => exact absurd ⟨tid, rfl⟩ reused
      | wake tid => rfl
      | stop tid => rfl
      | cont tid => rfl
      | kill tid => rfl
      | preempt tid => rfl
      | dispatch tid => rfl
    exact kept.frame rfl rfl (fun _ _ _ => rfl) idles
      (fun _ other parked => ⟨parked.1, alive other (old other) parked.2⟩)
      fun other waits => rests other waits (old other)

/-! ### Moving waiters -/

theorem rejoin_tids (joins : Nat) (entries : List Entry) :
    (rejoin joins entries).map Entry.tid = entries.map Entry.tid := by
  induction entries generalizing joins with
  | nil => rfl
  | cons entry rest inductionHypothesis =>
    exact congrArg (entry.tid :: ·) (inductionHypothesis (joins + 1))

theorem rejoin_joined {joins : Nat} {entries : List Entry} {entry : Entry}
    (member : entry ∈ rejoin joins entries) :
    joins ≤ entry.joined ∧ entry.joined < joins + entries.length := by
  induction entries generalizing joins with
  | nil => exact absurd member List.not_mem_nil
  | cons first rest inductionHypothesis =>
    rw [List.length_cons]
    rcases List.mem_cons.mp member with rfl | later
    · exact ⟨Nat.le_refl _, by show joins < _; omega⟩
    · have bounds := inductionHypothesis later
      omega

theorem rejoin_ordered (joins : Nat) (entries : List Entry) :
    (rejoin joins entries).Pairwise fun first second => first.joined < second.joined := by
  induction entries generalizing joins with
  | nil => exact List.Pairwise.nil
  | cons entry rest inductionHypothesis =>
    refine List.pairwise_cons.mpr ⟨fun other member => ?_, inductionHypothesis (joins + 1)⟩
    exact Nat.lt_of_succ_le (rejoin_joined member).1

/-- The waiters that are left move behind those of the other word. -/
theorem Kept.moveRest (kept : Kept state) {src dst : Nat} (apart : src ≠ dst)
    (usedDst : (state.futexes dst).inUse = true) : Kept (moveRest state src dst) := by
  have source := kept.lined src
  have target := kept.lined dst
  unfold Sync.moveRest
  simp only
  generalize room : maxParkers - (state.futexes dst).waiters.length = count
  have split := List.take_append_drop count (state.futexes src).waiters
  have nodup := source.nodup
  have ordered := source.ordered
  rw [← split] at ordered
  rw [← split, List.map_append] at nodup
  have movedIn : ∀ entry ∈ (state.futexes src).waiters.take count,
      entry ∈ (state.futexes src).waiters := fun entry member => List.mem_of_mem_take member
  have restIn : ∀ entry ∈ (state.futexes src).waiters.drop count,
      entry ∈ (state.futexes src).waiters := fun entry member => List.mem_of_mem_drop member
  generalize (state.futexes src).waiters.take count = moved at *
  generalize (state.futexes src).waiters.drop count = rest at *
  have parkMoved : ∀ tid ∈ moved.map Entry.tid,
      moveAll state.parks moved (state.futexes dst).key tid =
        some ⟨(state.futexes dst).key, false⟩ := by
    intro tid member
    obtain ⟨entry, inside, rfl⟩ := List.mem_map.mp member
    unfold moveAll
    rw [if_pos member, (source.queue entry (movedIn entry inside)).1]
    rfl
  have parkOther : ∀ tid, tid ∉ moved.map Entry.tid →
      moveAll state.parks moved (state.futexes dst).key tid = state.parks tid :=
    fun tid stays => if_neg stays
  have stays : ∀ index, index ≠ src → ∀ entry ∈ (state.futexes index).waiters,
      entry.tid ∉ moved.map Entry.tid := by
    intro index different entry member other
    obtain ⟨taken, inside, same⟩ := List.mem_map.mp other
    exact different (kept.single member (movedIn taken inside) same.symm)
  have atSrc : ∀ (joined left : Futex), update (update state.futexes dst joined)
      src left src = left := fun _ _ => update_self _ _ _
  have atDst : ∀ (joined left : Futex), update (update state.futexes dst joined)
      src left dst = joined := by
    intro joined left
    rw [update_of_ne apart.symm, update_self]
  have atOther : ∀ (joined left : Futex) (index : Nat), index ≠ src → index ≠ dst →
      update (update state.futexes dst joined) src left index =
        state.futexes index := by
    intro joined left index notSrc notDst
    rw [update_of_ne notSrc, update_of_ne notDst]
  simp only [Futexes.setFutex]
  refine ⟨fun index => ?_, fun first second one two same => ?_, fun key tid parked => ?_,
    fun tid waits => ?_⟩
  · by_cases isSrc : index = src
    · subst isSrc
      refine ⟨fun used => ?_, fun idle => ?_, fun entry member => ?_, ?_, ?_,
        fun entry member => ?_⟩
      · simp only [atSrc, Bool.not_eq_true', List.isEmpty_eq_false_iff] at used
        obtain ⟨entry, member⟩ := List.exists_mem_of_ne_nil rest used
        exact source.range (source.inUse (restIn entry member))
      · simpa only [atSrc, Bool.not_eq_false', List.isEmpty_iff] using idle
      · simp only [atSrc] at member ⊢
        obtain ⟨park, user⟩ := source.queue entry (restIn entry member)
        rw [parkOther entry.tid fun other =>
          (List.nodup_append.mp nodup).2.2 _ other _ (List.mem_map_of_mem member) rfl]
        exact ⟨park, user⟩
      · simp only [atSrc]
        exact (List.nodup_append.mp nodup).2.1
      · simp only [atSrc]
        exact (List.pairwise_append.mp ordered).2.1
      · simp only [atSrc] at member
        exact Nat.lt_add_right _ (source.joined entry (restIn entry member))
    by_cases isDst : index = dst
    · subst isDst
      refine ⟨fun _ => target.range usedDst, fun idle => ?_, fun entry member => ?_, ?_, ?_,
        fun entry member => ?_⟩
      · simp only [atDst] at idle
        rw [usedDst] at idle
        exact absurd idle (by simp)
      · simp only [atDst] at member ⊢
        rcases List.mem_append.mp member with before | now
        · obtain ⟨park, user⟩ := target.queue entry before
          rw [parkOther entry.tid (stays index isSrc entry before)]
          exact ⟨park, user⟩
        · have inside : entry.tid ∈ moved.map Entry.tid := by
            rw [← rejoin_tids state.joins]
            exact List.mem_map_of_mem now
          obtain ⟨taken, member', same⟩ := List.mem_map.mp inside
          refine ⟨parkMoved entry.tid inside, ?_⟩
          rw [← same]
          exact (source.queue taken (movedIn taken member')).2
      · simp only [atDst]
        rw [List.map_append, rejoin_tids]
        refine List.nodup_append.mpr ⟨target.nodup, (List.nodup_append.mp nodup).1, ?_⟩
        rintro one before two now rfl
        obtain ⟨entry, member, rfl⟩ := List.mem_map.mp before
        exact stays index isSrc entry member now
      · simp only [atDst]
        refine List.pairwise_append.mpr ⟨target.ordered, rejoin_ordered _ _,
          fun one before two now => ?_⟩
        exact Nat.lt_of_lt_of_le (target.joined one before) (rejoin_joined now).1
      · simp only [atDst] at member
        rcases List.mem_append.mp member with before | now
        · exact Nat.lt_add_right _ (target.joined entry before)
        · exact (rejoin_joined now).2
    · have lined := kept.lined index
      refine ⟨?_, ?_, fun entry member => ?_, ?_, ?_, fun entry member => ?_⟩
      · simp only [atOther _ _ index isSrc isDst]
        exact lined.range
      · simp only [atOther _ _ index isSrc isDst]
        exact lined.unused
      · simp only [atOther _ _ index isSrc isDst] at member ⊢
        obtain ⟨park, user⟩ := lined.queue entry member
        rw [parkOther entry.tid (stays index isSrc entry member)]
        exact ⟨park, user⟩
      · simp only [atOther _ _ index isSrc isDst]
        exact lined.nodup
      · simp only [atOther _ _ index isSrc isDst]
        exact lined.ordered
      · simp only [atOther _ _ index isSrc isDst] at member
        exact Nat.lt_add_right _ (lined.joined entry member)
  · have before : ∀ index, (update (update state.futexes dst
        { state.futexes dst with
          waiters := (state.futexes dst).waiters ++ rejoin state.joins moved }) src
        { state.futexes src with waiters := rest, inUse := !rest.isEmpty } index).inUse = true →
        (state.futexes index).inUse = true := by
      intro index used
      by_cases isSrc : index = src
      · subst isSrc
        simp only [atSrc, Bool.not_eq_true', List.isEmpty_eq_false_iff] at used
        obtain ⟨entry, member⟩ := List.exists_mem_of_ne_nil rest used
        exact source.inUse (restIn entry member)
      by_cases isDst : index = dst
      · subst isDst
        exact usedDst
      · rwa [atOther _ _ index isSrc isDst] at used
    have named : ∀ index, (update (update state.futexes dst
        { state.futexes dst with
          waiters := (state.futexes dst).waiters ++ rejoin state.joins moved }) src
        { state.futexes src with waiters := rest, inUse := !rest.isEmpty } index).key =
        (state.futexes index).key := by
      intro index
      by_cases isSrc : index = src
      · subst isSrc
        rw [atSrc]
      by_cases isDst : index = dst
      · subst isDst
        rw [atDst]
      · rw [atOther _ _ index isSrc isDst]
    simp only [named] at same
    exact kept.distinct first second (before first one) (before second two) same
  · obtain ⟨park, alive⟩ := parked
    simp only at park alive ⊢
    by_cases goes : tid ∈ moved.map Entry.tid
    · rw [parkMoved tid goes] at park
      refine ⟨dst, ?_⟩
      simp only [atDst]
      refine ⟨usedDst, congrArg FutexPark.key (Option.some.inj park), ?_⟩
      rw [List.map_append, rejoin_tids]
      exact List.mem_append_right _ goes
    · rw [parkOther tid goes] at park
      obtain ⟨index, used, is, member⟩ := kept.present key tid ⟨park, alive⟩
      refine ⟨index, ?_⟩
      by_cases isSrc : index = src
      · subst isSrc
        rw [← split, List.map_append] at member
        have inRest := (List.mem_append.mp member).resolve_left goes
        simp only [atSrc]
        refine ⟨?_, is, inRest⟩
        rw [Bool.not_eq_true', List.isEmpty_eq_false_iff]
        rintro rfl
        exact absurd inRest List.not_mem_nil
      by_cases isDst : index = dst
      · subst isDst
        simp only [atDst]
        refine ⟨used, is, ?_⟩
        rw [List.map_append]
        exact List.mem_append_left _ member
      · simp only [atOther _ _ index isSrc isDst]
        exact ⟨used, is, member⟩
  · obtain ⟨park, is, without⟩ := waits
    simp only at is ⊢
    by_cases goes : tid ∈ moved.map Entry.tid
    · obtain ⟨entry, inside, rfl⟩ := List.mem_map.mp goes
      exact kept.resting entry.tid
        ⟨_, (source.queue entry (movedIn entry inside)).1, rfl⟩
    · rw [parkOther tid goes] at is
      exact kept.resting tid ⟨park, is, without⟩

theorem Kept.requeue (kept : Kept state) {caller addr mutexAddr : Nat} {equal : Bool}
    {maxWake : Int}
    (taken : futexRequeue state caller addr equal mutexAddr maxWake = some next) : Kept next := by
  unfold futexRequeue at taken
  split at taken
  · obtain rfl := Option.some.inj taken
    exact kept
  split at taken
  · obtain rfl := Option.some.inj taken
    exact kept
  rename_i src located
  obtain ⟨used, _⟩ := futexFind_some located
  split at taken
  · obtain rfl := Option.some.inj taken
    exact kept
  rename_i dst found given
  have ready : Kept found ∧ (found.futexes src).inUse = true ∧
      (found.futexes dst).inUse = true := by
    split at given
    · obtain ⟨rfl, rfl⟩ := Prod.mk.inj (Option.some.inj given)
      exact ⟨kept, used, used⟩
    · obtain ⟨keptFound, allotted⟩ := kept.alloc given
      refine ⟨keptFound, ?_, allotted.used⟩
      rw [allotted.kept src used]
      exact used
  obtain ⟨keptFound, usedSrc, usedDst⟩ := ready
  have woken := keptFound.released (keptFound.wokenSlot maxWake.toNat (fun _ => usedSrc)
    (fun idle => absurd (usedSrc.symm.trans idle) (by simp)))
  simp only at taken
  split at taken
  · obtain ⟨_, same⟩ := Option.ite_none_right_eq_some.mp taken
    obtain rfl := Option.some.inj same
    exact woken
  · rename_i apart
    obtain rfl := Option.some.inj taken
    refine woken.moveRest apart ?_
    simp only [Futexes.setFutex, update_of_ne (Ne.symm apart)]
    exact usedDst

/-! ### Sweep and purge -/

/-- Waking tasks of a list changes no other task. -/
theorem foldl_wake_other {woken : List Nat} (tasks : Tasks) {tid : Nat} (other : tid ∉ woken) :
    woken.foldl (fun tasks tid =>
      if wakeable tasks tid then taskSetState tasks tid .ready else tasks) tasks tid =
      tasks tid := by
  induction woken generalizing tasks with
  | nil => rfl
  | cons first rest inductionHypothesis =>
    rw [List.foldl_cons, inductionHypothesis _ (List.not_mem_of_not_mem_cons other)]
    split
    · exact taskSetState_of_ne tasks (List.ne_of_not_mem_cons other) .ready
    · rfl

/-- The sweep takes out the entries whose deadline has passed. -/
theorem Kept.mem_swept (kept : Kept state) (entry : Entry) :
    entry ∈ sweptEntries state ↔ ∃ index,
      entry ∈ (state.futexes index).waiters ∧ expired state.ticks entry = true := by
  unfold sweptEntries
  rw [List.mem_flatMap]
  refine ⟨fun ⟨index, _, member⟩ => ?_, fun ⟨index, member, late⟩ => ?_⟩
  · split at member
    · exact ⟨index, List.mem_of_mem_filter member, (List.mem_filter.mp member).2⟩
    · exact absurd member List.not_mem_nil
  · have used := (kept.lined index).inUse member
    refine ⟨index, List.mem_range.mpr ((kept.lined index).range used), ?_⟩
    rw [if_pos used]
    exact List.mem_filter.mpr ⟨member, late⟩

theorem Kept.sweep (kept : Kept state) : Kept (futexSweep state) := by
  have swept := kept.mem_swept
  have slot : ∀ index, ((futexSweep state).futexes index).key = (state.futexes index).key ∧
      ((futexSweep state).futexes index).waiters =
        (state.futexes index).waiters.filter (fun entry => !expired state.ticks entry) ∧
      (((futexSweep state).futexes index).inUse = true → (state.futexes index).inUse = true) ∧
      (((futexSweep state).futexes index).inUse = false →
        ((futexSweep state).futexes index).waiters = []) := by
    intro index
    simp only [futexSweep]
    split
    · rename_i inside
      refine ⟨rfl, rfl, fun _ => inside.2, fun idle => ?_⟩
      rwa [Bool.not_eq_false', List.isEmpty_iff] at idle
    · rename_i outside
      have idle : (state.futexes index).inUse = false := by
        by_contra used
        rw [Bool.not_eq_false] at used
        exact outside ⟨(kept.lined index).range used, used⟩
      rw [(kept.lined index).unused idle]
      exact ⟨rfl, rfl, id, fun _ => rfl⟩
  refine @Kept.released state _ kept ((sweptEntries state).map Entry.tid) ⟨fun index => (slot index).1,
    fun index => ?_, fun index => (slot index).2.2.1, fun index => (slot index).2.2.2,
    fun index entry member => ?_, fun index entry member => ?_, rfl,
    fun tid stays => foldl_wake_other state.tasks stays, rfl⟩
  · rw [(slot index).2.1]
    exact List.filter_sublist
  · rw [(slot index).2.1]
    by_cases late : expired state.ticks entry = true
    · exact Or.inr (Or.inl (List.mem_map_of_mem ((swept entry).mpr ⟨index, member, late⟩)))
    · exact Or.inl (List.mem_filter.mpr ⟨member, by simpa using late⟩)
  · rw [(slot index).2.1] at member
    obtain ⟨inside, early⟩ := List.mem_filter.mp member
    intro other
    obtain ⟨taken, member', same⟩ := List.mem_map.mp other
    obtain ⟨place, within, late⟩ := (swept taken).mp member'
    obtain rfl := kept.single within inside same
    obtain rfl := List.inj_on_of_nodup_map (kept.lined place).nodup within inside same
    rw [late] at early
    exact absurd early (by simp)

theorem Kept.cleanup (kept : Kept state) (tid : Nat) : Kept (futexCleanup state tid) := by
  unfold futexCleanup
  split
  · exact kept
  · rename_i gone
    refine @Kept.released state _ kept [] ⟨fun _ => rfl, fun _ => List.filter_sublist,
      fun _ => id, fun index idle => ?_, fun index entry member => ?_,
      fun _ _ _ => List.not_mem_nil, ?_, fun _ _ => rfl, rfl⟩
    · show ((state.futexes index).waiters.filter _) = []
      rw [(kept.lined index).unused idle]
      rfl
    · by_cases same : entry.tid = tid
      · refine Or.inr (Or.inr ?_)
        have user := ((kept.lined index).queue entry member).2
        unfold taskIsAlive at gone
        rw [← same] at gone
        simpa [user.2.1] using gone
      · exact Or.inl (List.mem_filter.mpr ⟨member, by simpa using same⟩)
    · funext other
      exact (releaseAll_of_notMem List.not_mem_nil).symm

/-! ### Runs -/

theorem Kept.step {label : FutexLabel} (kept : Kept state) (untroubled : Untroubled state label)
    (taken : futexStep state label = some next) : Kept next := by
  cases label with
  | wait tid addr equal timeout =>
    obtain ⟨caller, same⟩ := Option.ite_none_right_eq_some.mp taken
    obtain rfl := Option.some.inj same
    exact kept.wait caller addr equal timeout
  | finish tid =>
    cases is : state.parks tid with
    | none =>
      simp only [futexStep, is] at taken
      exact absurd taken (by simp)
    | some park =>
      simp only [futexStep, is] at taken
      obtain ⟨ready, same⟩ := Option.ite_none_right_eq_some.mp taken
      obtain rfl := Option.some.inj same
      rw [Bool.and_eq_true, decide_eq_true_iff] at ready
      exact kept.finish ready.1 ready.2
  | wake caller addr max =>
    obtain rfl := Option.some.inj taken
    exact kept.wake caller addr max
  | requeue caller addr equal mutexAddr maxWake => exact kept.requeue taken
  | sweep =>
    obtain rfl := Option.some.inj taken
    exact kept.sweep
  | tick =>
    obtain rfl := Option.some.inj taken
    exact kept.frame rfl rfl (fun _ _ _ => rfl) (fun _ => rfl) (fun _ _ => id) kept.resting
  | cleanup tid =>
    obtain rfl := Option.some.inj taken
    exact kept.cleanup tid
  | space tid pageDir =>
    obtain ⟨_, same⟩ := Option.ite_none_right_eq_some.mp taken
    obtain rfl := Option.some.inj same
    exact kept.frame rfl rfl (fun _ _ _ => rfl) (fun _ => rfl) (fun _ _ => id) kept.resting
  | task step => exact kept.task untroubled taken

theorem Futexes.Initial.kept (initial : state.Initial) : Kept state := by
  obtain ⟨unused, free⟩ := initial
  refine ⟨fun index => ⟨fun used => ?_, fun _ => (unused index).2, fun entry member => ?_, ?_, ?_,
    fun entry member => ?_⟩, fun first second used => ?_, fun key tid parked => ?_,
    fun tid waits => ?_⟩
  · rw [(unused index).1] at used
    exact absurd used (by simp)
  · rw [(unused index).2] at member
    exact absurd member List.not_mem_nil
  · rw [(unused index).2]
    exact List.nodup_nil
  · rw [(unused index).2]
    exact List.Pairwise.nil
  · rw [(unused index).2] at member
    exact absurd member List.not_mem_nil
  · rw [(unused first).1] at used
    exact absurd used (by simp)
  · obtain ⟨is, _⟩ := parked
    rw [free tid] at is
    exact absurd is (by simp)
  · obtain ⟨park, is, _⟩ := waits
    rw [free tid] at is
    exact absurd is (by simp)

/-! ### The law -/

/-- A live waiter stands in the queue of its word, once, and nowhere else. -/
theorem Kept.queued (kept : Kept state) {key : Nat × Nat} {tid : Nat}
    (parked : state.Parked key tid) : ((state.queue key).map Entry.tid).count tid = 1 ∧
      ∀ other, other ≠ key → tid ∉ (state.queue other).map Entry.tid := by
  obtain ⟨index, used, is, member⟩ := kept.present key tid parked
  refine ⟨?_, fun other different member' => ?_⟩
  · unfold Futexes.queue
    rw [kept.find used is]
    exact List.count_eq_one_of_mem (kept.lined index).nodup member
  · unfold Futexes.queue at member'
    split at member'
    · rename_i place found
      obtain ⟨_, named⟩ := futexFind_some found
      obtain ⟨entry, inside, rfl⟩ := List.mem_map.mp member'
      have park := ((kept.lined place).queue entry inside).1
      rw [parked.1, named] at park
      exact different (congrArg FutexPark.key (Option.some.inj park)).symm
    · exact absurd member' List.not_mem_nil

/-- A wake makes the first live waiters of the word ready. -/
theorem Kept.woken (kept : Kept state) (caller addr : Nat) {max : Nat} (positive : 0 < max) :
    ∃ parked : List Entry, parked.Pairwise (fun first second => first.joined < second.joined) ∧
      (parked.map Entry.tid).Nodup ∧
      (∀ tid, tid ∈ parked.map Entry.tid ↔ state.Parked (state.pageDir caller, addr) tid) ∧
      (futexWake state caller addr max).2 = (parked.map Entry.tid).take max ∧
      ∀ tid, (futexWake state caller addr max).1.tasks tid =
        if tid ∈ (parked.map Entry.tid).take max then { state.tasks tid with state := .ready }
        else state.tasks tid := by
  unfold futexWake
  rw [if_neg (by omega), Int.toNat_natCast]
  generalize (state.pageDir caller, addr) = key
  cases found : futexFind state key with
  | none =>
    refine ⟨[], List.Pairwise.nil, List.nodup_nil, fun tid => ⟨fun member =>
      absurd member List.not_mem_nil, fun parked => ?_⟩, List.take_nil.symm, fun tid => ?_⟩
    · obtain ⟨index, used, is, _⟩ := kept.present key tid parked
      rw [kept.find used is] at found
      exact absurd found (by simp)
    · rw [List.map_nil, List.take_nil, if_neg List.not_mem_nil]
  | some index =>
    obtain ⟨used, is⟩ := futexFind_some found
    have lined := kept.lined index
    obtain ⟨front, split, chosen, few, ends, after⟩ := @wakeUpTo_spec max state.tasks _ lined.nodup
    have first : ((((state.futexes index).waiters.filter fun entry =>
        wakeable state.tasks entry.tid).map Entry.tid).take max) =
        (wakeUpTo state.tasks max (state.futexes index).waiters).1 := by
      have tids : ((state.futexes index).waiters.filter fun entry =>
          wakeable state.tasks entry.tid).map Entry.tid =
          ((state.futexes index).waiters.map Entry.tid).filter (wakeable state.tasks) := by
        rw [List.filter_map]
        rfl
      rw [tids]
      generalize wakeUpTo state.tasks max (state.futexes index).waiters = outcome at *
      rw [split, List.map_append, List.filter_append, ← chosen]
      rcases ends with full | empty
      · rw [← full, List.take_left]
      · rw [empty, List.map_nil, List.filter_nil, List.append_nil, List.take_of_length_le few]
    refine ⟨(state.futexes index).waiters.filter fun entry => wakeable state.tasks entry.tid,
      lined.ordered.filter _, lined.nodup.sublist (List.filter_sublist.map Entry.tid),
      fun tid => ⟨fun member => ?_, fun parked => ?_⟩, first.symm, fun tid => ?_⟩
    · obtain ⟨entry, inside, rfl⟩ := List.mem_map.mp member
      obtain ⟨queued, may⟩ := List.mem_filter.mp inside
      obtain ⟨park, user⟩ := lined.queue entry queued
      rw [is] at park
      exact ⟨park, user.wakeable_iff.mp may⟩
    · obtain ⟨place, used', is', member⟩ := kept.present key tid parked
      obtain rfl := kept.distinct place index used' used (is'.trans is.symm)
      obtain ⟨entry, inside, rfl⟩ := List.mem_map.mp member
      refine List.mem_map_of_mem (List.mem_filter.mpr ⟨inside, ?_⟩)
      exact (lined.queue entry inside).2.wakeable_iff.mpr parked.2
    · rw [first]
      exact after tid

/-- In every run that does not disturb the waiters, wakes are not lost. -/
theorem futex_wakes_kept (reachable : futexSystem.Reachable Untroubled state) :
    WakesKept state := by
  have kept : Kept state := reachable.invariant Kept
    (fun _ initial => Futexes.Initial.kept initial)
    fun _ _ _ kept untroubled taken => kept.step untroubled taken
  exact ⟨fun _ _ parked => kept.queued parked,
    fun caller addr _ positive => kept.woken caller addr positive⟩

/-- Six tasks of one address space, one of them idle, and no futex. -/
def sixThreads : Futexes where
  futexes _ := ⟨false, (0, 0), []⟩
  tasks tid := ⟨if tid < 6 then .ready else .dead, decide (0 < tid ∧ tid < 6), decide (tid = 5)⟩
  pageDir _ := 0
  parks _ := none
  ticks := 0
  joins := 0

theorem sixThreads_initial : sixThreads.Initial :=
  ⟨fun _ => ⟨rfl, rfl⟩, fun _ => rfl⟩

/-- Tasks 1 and 2 wait on word 8, and a requeue moves the second one to word 9. -/
theorem futex_wakes_kept_requeued : ∃ state : Futexes,
    (state.queue (0, 9)).map Entry.tid = [2] ∧ WakesKept state := by
  have initial : futexSystem.Reachable Untroubled sixThreads := .init sixThreads_initial
  have first := initial.step (show Untroubled sixThreads (.wait 1 8 true none) from trivial)
    (show futexStep sixThreads (.wait 1 8 true none) = some _ from rfl)
  have second := first.step (show Untroubled _ (.wait 2 8 true none) from trivial)
    (show futexStep _ (.wait 2 8 true none) = some _ from rfl)
  have moved := second.step (show Untroubled _ (.requeue 3 8 true 9 1) from trivial)
    (show futexStep _ (.requeue 3 8 true 9 1) = some _ from rfl)
  exact ⟨_, by decide +kernel, futex_wakes_kept moved⟩

/-- A caught signal wakes a waiter, and the entry it leaves behind takes the next wake: task 2
waits on, although it is parked on the word. -/
theorem futex_wake_swallowed : ¬ ∀ state : Futexes, futexSystem.Reachable anyStep state →
    WakesKept state := by
  intro always
  have initial : futexSystem.Reachable anyStep sixThreads := .init sixThreads_initial
  have run : (execute futexStep sixThreads [.wait 1 8 true none, .task (.wake 1), .finish 1,
      .wait 2 8 true none]).map (fun state => ((futexWake state 3 8 1).2,
        (state.parks 1).isNone)) = some ([1], true) := by
    decide +kernel
  obtain ⟨final, ran, seen⟩ := Option.map_eq_some_iff.mp run
  obtain ⟨woken, free⟩ := Prod.mk.inj seen
  obtain ⟨parked, _, _, are, first, _⟩ :=
    (always final (reachable_execute initial ran)).woken 3 8 1 Nat.one_pos
  have taken : 1 ∈ (parked.map Entry.tid).take 1 := by
    rw [← first]
    exact woken ▸ List.mem_singleton_self 1
  obtain ⟨park, _⟩ := (are 1).mp (List.mem_of_mem_take taken)
  rw [park] at free
  exact absurd free (by simp)

end MectovOS.Sync
