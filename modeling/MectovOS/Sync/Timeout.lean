/-
This file proves when a timed futex wait ends that nobody wakes: no sweep before
its deadline makes the task ready, and the first one after it does, wherever the
entry of the task was moved. The exceptions are the deadline that comes out as
0, which marks a wait without a deadline, and a sweep that comes half the range
of the tick counter too late.
-/

import MectovOS.Sync.Requeue

namespace MectovOS.Sync

open Sched (maxTasks)
open Transition

variable {state next : Futexes}

/-! ### Entries and ticks in a step -/

/-- The entries of a task after a step have a deadline that one of its entries had before, and no
time has passed. -/
structure Carried (state next : Futexes) (tid : Nat) : Prop where
  entry : ∀ index, ∀ entry ∈ (next.futexes index).waiters, entry.tid = tid →
    ∃ source, ∃ before ∈ (state.futexes source).waiters,
      before.tid = tid ∧ before.expire = entry.expire
  ticks : next.ticks = state.ticks

theorem Carried.refl (state : Futexes) (tid : Nat) : Carried state state tid :=
  ⟨fun index entry member is => ⟨index, entry, member, is, rfl⟩, rfl⟩

theorem Carried.trans {tid : Nat} {middle : Futexes} (first : Carried state middle tid)
    (second : Carried middle next tid) : Carried state next tid := by
  refine ⟨fun index entry member is => ?_, second.ticks.trans first.ticks⟩
  obtain ⟨_, between, member', is', same⟩ := second.entry index entry member is
  obtain ⟨source, before, member'', is'', same'⟩ := first.entry _ between member' is'
  exact ⟨source, before, member'', is'', same'.trans same⟩

/-- Entries that only leave the queues carry their deadlines. -/
theorem Carried.subset {tid : Nat}
    (fewer : ∀ index, (next.futexes index).waiters ⊆ (state.futexes index).waiters)
    (ticks : next.ticks = state.ticks) : Carried state next tid :=
  ⟨fun index entry member is => ⟨index, entry, fewer index member, is, rfl⟩, ticks⟩

/-- A queue that is replaced by a part of it. -/
theorem setFutex_subset {index : Nat} {futex : Futex}
    (fewer : futex.waiters ⊆ (state.futexes index).waiters) (other : Nat) :
    ((state.setFutex index futex).futexes other).waiters ⊆ (state.futexes other).waiters := by
  rcases eq_or_ne other index with rfl | different
  · rw [setFutex_self]
    exact fewer
  · rw [setFutex_other state different]
    exact List.Subset.refl _

theorem wakeUpTo_subset {index : Nat} (lined : Lined state index) (max : Nat) :
    (wakeUpTo state.tasks max (state.futexes index).waiters).2.1 ⊆
      (state.futexes index).waiters := by
  obtain ⟨front, split, _⟩ := @wakeUpTo_spec max state.tasks _ lined.nodup
  intro entry member
  rw [split]
  exact List.mem_append_right front member

theorem futexAlloc_carried {key : Nat × Nat} {index : Nat} (tid : Nat)
    (given : futexAlloc state key = some (index, next)) : Carried state next tid := by
  unfold futexAlloc at given
  split at given
  · obtain ⟨_, rfl⟩ := Prod.mk.inj (Option.some.inj given)
    exact Carried.refl state tid
  split at given
  · obtain ⟨_, rfl⟩ := Prod.mk.inj (Option.some.inj given)
    exact Carried.subset (setFutex_subset (List.nil_subset _)) rfl
  · exact absurd given (by simp)

/-- A wait queues an entry of its caller only. -/
theorem futexWait_carried {tid caller : Nat} (other : caller ≠ tid) (addr : Nat) (equal : Bool)
    (timeout : Option Nat) : Carried state (futexWait state caller addr equal timeout) tid := by
  unfold futexWait
  split
  · exact Carried.refl state tid
  dsimp only
  split
  · exact Carried.refl state tid
  rename_i index found given
  have carried := futexAlloc_carried tid given
  split
  · exact carried
  refine carried.trans ⟨fun place entry member is => ?_, rfl⟩
  replace member : entry ∈ ((found.setFutex index { found.futexes index with
      waiters := (found.futexes index).waiters ++
        [⟨caller, deadline state.ticks timeout, state.joins⟩] }).futexes place).waiters := member
  rcases eq_or_ne place index with rfl | different
  · rw [setFutex_self] at member
    rcases List.mem_append.mp member with old | new
    · exact ⟨place, entry, old, is, rfl⟩
    · rw [List.mem_singleton.mp new] at is
      exact absurd is other
  · rw [setFutex_other found different] at member
    exact ⟨place, entry, member, is, rfl⟩

theorem futexWake_carried (kept : Kept state) (tid caller addr : Nat) (max : Int) :
    Carried state (futexWake state caller addr max).1 tid := by
  unfold futexWake
  split
  · exact Carried.refl state tid
  split
  · exact Carried.refl state tid
  · rename_i index _
    exact Carried.subset (setFutex_subset (wakeUpTo_subset (kept.lined index) max.toNat)) rfl

theorem rejoin_expire {joins : Nat} {entries : List Entry} {entry : Entry}
    (member : entry ∈ rejoin joins entries) :
    ∃ before ∈ entries, before.tid = entry.tid ∧ before.expire = entry.expire := by
  induction entries generalizing joins with
  | nil => exact absurd member List.not_mem_nil
  | cons first rest inductionHypothesis =>
    rcases List.mem_cons.mp member with rfl | later
    · exact ⟨first, List.mem_cons_self, rfl, rfl⟩
    · obtain ⟨before, member', same⟩ := inductionHypothesis later
      exact ⟨before, List.mem_cons_of_mem first member', same⟩

/-- Deadlines travel with the waiters that are moved. -/
theorem moveRest_carried {src dst : Nat} (tid : Nat) :
    Carried state (moveRest state src dst) tid := by
  unfold moveRest
  dsimp only
  generalize maxParkers - (state.futexes dst).waiters.length = room
  generalize joined : state.setFutex dst { state.futexes dst with
    waiters := (state.futexes dst).waiters ++
      rejoin state.joins ((state.futexes src).waiters.take room) } = appended
  have first : Carried state appended tid := by
    refine ⟨fun index entry member is => ?_, by rw [← joined]; rfl⟩
    rw [← joined] at member
    rcases eq_or_ne index dst with rfl | different
    · rw [setFutex_self] at member
      rcases List.mem_append.mp member with old | new
      · exact ⟨index, entry, old, is, rfl⟩
      · obtain ⟨before, member', same, same'⟩ := rejoin_expire new
        exact ⟨src, before, List.mem_of_mem_take member', same.trans is, same'⟩
    · rw [setFutex_other state different] at member
      exact ⟨index, entry, member, is, rfl⟩
  refine ⟨fun index entry member is => ?_, first.ticks⟩
  replace member : entry ∈ ((appended.setFutex src ⟨!((state.futexes src).waiters.drop room).isEmpty,
      (state.futexes src).key, (state.futexes src).waiters.drop room⟩).futexes index).waiters :=
    member
  rcases eq_or_ne index src with rfl | different
  · rw [setFutex_self] at member
    exact ⟨index, entry, List.mem_of_mem_drop member, is, rfl⟩
  · rw [setFutex_other appended different] at member
    exact first.entry index entry member is

theorem futexRequeue_carried (kept : Kept state) (tid : Nat) {caller addr mutexAddr : Nat}
    {equal : Bool} {maxWake : Int}
    (taken : futexRequeue state caller addr equal mutexAddr maxWake = some next) :
    Carried state next tid := by
  unfold futexRequeue at taken
  split at taken
  · obtain rfl := Option.some.inj taken
    exact Carried.refl state tid
  split at taken
  · obtain rfl := Option.some.inj taken
    exact Carried.refl state tid
  rename_i src located
  split at taken
  · obtain rfl := Option.some.inj taken
    exact Carried.refl state tid
  rename_i dst found given
  have ready : Kept found ∧ Carried state found tid := by
    split at given
    · obtain ⟨_, rfl⟩ := Prod.mk.inj (Option.some.inj given)
      exact ⟨kept, Carried.refl state tid⟩
    · exact ⟨(kept.alloc given).1, futexAlloc_carried tid given⟩
  obtain ⟨keptFound, carried⟩ := ready
  dsimp only at taken
  generalize woken : wakeUpTo found.tasks maxWake.toNat (found.futexes src).waiters = result
    at taken
  have fewer : result.2.1 ⊆ (found.futexes src).waiters := by
    rw [← woken]
    exact wakeUpTo_subset (keptFound.lined src) maxWake.toNat
  have released := carried.trans (@Carried.subset found
    { (found.setFutex src { found.futexes src with waiters := result.2.1 }) with
      tasks := result.2.2, parks := releaseAll found.parks result.1 } tid
    (setFutex_subset fewer) rfl)
  split at taken
  · obtain ⟨_, same⟩ := Option.ite_none_right_eq_some.mp taken
    obtain rfl := Option.some.inj same
    exact released
  · obtain rfl := Option.some.inj taken
    exact released.trans (moveRest_carried tid)

theorem futexSweep_carried (tid : Nat) : Carried state (futexSweep state) tid := by
  refine Carried.subset (fun index => ?_) rfl
  show (if index < maxFutex ∧ (state.futexes index).inUse = true then _
    else state.futexes index : Futex).waiters ⊆ _
  split
  · exact List.filter_subset_self _
  · exact List.Subset.refl _

/-- How many ticks pass in a step. -/
def FutexLabel.ticks : FutexLabel → Nat
  | .tick => 1
  | _ => 0

/-- The deadline of a task that is in a wait stays as it is, and time passes in ticks only. -/
theorem futexStep_carried (kept : Kept state) {tid : Nat} (busy : state.parks tid ≠ none)
    {label : FutexLabel} (taken : futexStep state label = some next) :
    (∀ index, ∀ entry ∈ (next.futexes index).waiters, entry.tid = tid →
      ∃ source, ∃ before ∈ (state.futexes source).waiters,
        before.tid = tid ∧ before.expire = entry.expire) ∧
      next.ticks % 2 ^ 32 = (state.ticks + label.ticks) % 2 ^ 32 := by
  have steady : Carried state next tid → label.ticks = 0 →
      (∀ index, ∀ entry ∈ (next.futexes index).waiters, entry.tid = tid →
        ∃ source, ∃ before ∈ (state.futexes source).waiters,
          before.tid = tid ∧ before.expire = entry.expire) ∧
        next.ticks % 2 ^ 32 = (state.ticks + label.ticks) % 2 ^ 32 := by
    intro carried still
    rw [carried.ticks, still]
    exact ⟨carried.entry, rfl⟩
  cases label with
  | wait caller addr equal timeout =>
    obtain ⟨may, same⟩ := Option.ite_none_right_eq_some.mp taken
    obtain rfl := Option.some.inj same
    refine steady (futexWait_carried ?_ addr equal timeout) rfl
    rintro rfl
    exact busy (Futexes.caller_iff may).2
  | finish other =>
    refine steady ?_ rfl
    unfold futexStep at taken
    dsimp only at taken
    split at taken
    · obtain ⟨_, same⟩ := Option.ite_none_right_eq_some.mp taken
      obtain rfl := Option.some.inj same
      exact Carried.subset (fun _ => List.Subset.refl _) rfl
    · exact absurd taken (by simp)
  | wake caller addr max =>
    obtain rfl := Option.some.inj taken
    exact steady (futexWake_carried kept tid caller addr max) rfl
  | requeue caller addr equal mutexAddr maxWake =>
    exact steady (futexRequeue_carried kept tid taken) rfl
  | sweep =>
    obtain rfl := Option.some.inj taken
    exact steady (futexSweep_carried tid) rfl
  | tick =>
    obtain rfl := Option.some.inj taken
    exact ⟨fun index entry member is => ⟨index, entry, member, is, rfl⟩, Nat.mod_mod _ _⟩
  | cleanup other =>
    obtain rfl := Option.some.inj taken
    refine steady ?_ rfl
    unfold futexCleanup
    split
    · exact Carried.refl state tid
    · exact Carried.subset (fun _ => List.filter_subset_self _) rfl
  | space other pageDir =>
    obtain ⟨_, same⟩ := Option.ite_none_right_eq_some.mp taken
    obtain rfl := Option.some.inj same
    exact steady (Carried.subset (fun _ => List.Subset.refl _) rfl) rfl
  | task step =>
    obtain ⟨tasks, _, rfl⟩ := Option.map_eq_some_iff.mp taken
    refine steady (Carried.subset (fun index => ?_) ?_) rfl
    · cases step <;> exact List.Subset.refl _
    · cases step <;> rfl

/-! ### The run of a timed wait -/

/-- Nobody has released or killed the task. -/
def Futexes.Held (state : Futexes) (tid : Nat) : Prop :=
  state.Waiting tid ∧ (state.tasks tid).state ≠ .dead

/-- The number of ticks a wait lasts. -/
def waitTicks (timeout : Nat) : Nat := if timeout = 0 then 1 else timeout

/-- A run behind a call of `futex_wait_timeout` that has parked its task, with the ticks that have
gone by: nothing but a sweep may release the task, and all sweeps come before the deadline. -/
inductive TimedRun (tid due : Nat) (parked : Futexes) : Nat → Futexes → Prop
  | parked : TimedRun tid due parked 0 parked
  | step {elapsed : Nat} {state next : Futexes} {label : FutexLabel} :
      TimedRun tid due parked elapsed state → Untroubled state label →
      futexStep state label = some next → (label = .sweep → elapsed < due) →
      (label ≠ .sweep → next.Held tid) → TimedRun tid due parked (elapsed + label.ticks) next

/-- Every entry of a task has this deadline. -/
def Futexes.DueAt (state : Futexes) (tid expire : Nat) : Prop :=
  ∀ index, ∀ entry ∈ (state.futexes index).waiters, entry.tid = tid → entry.expire = expire

/-- An entry is expired when its deadline is not the mark of an untimed wait and lies behind, by
less than half the range of the counter. -/
theorem expired_iff {entry : Entry} {ticks start due elapsed : Nat}
    (expire : entry.expire = (start + due) % 2 ^ 32)
    (now : ticks % 2 ^ 32 = (start + elapsed) % 2 ^ 32) :
    expired ticks entry = true ↔
      (start + due) % 2 ^ 32 ≠ 0 ∧
        (start + elapsed + 2 ^ 32 - (start + due) % 2 ^ 32) % 2 ^ 32 < 2 ^ 31 := by
  unfold expired
  rw [expire, Bool.and_eq_true, decide_eq_true_iff, decide_eq_true_iff]
  have below := Nat.mod_lt (start + due) (show 0 < 2 ^ 32 by decide)
  have same : (ticks + 2 ^ 32 - (start + due) % 2 ^ 32) % 2 ^ 32 =
      (start + elapsed + 2 ^ 32 - (start + due) % 2 ^ 32) % 2 ^ 32 := by
    omega
  rw [same]

/-- No entry is expired before its time. -/
theorem expired_early {start due elapsed : Nat} (short : due < 2 ^ 31) (early : elapsed < due) :
    ¬ (start + elapsed + 2 ^ 32 - (start + due) % 2 ^ 32) % 2 ^ 32 < 2 ^ 31 := by
  omega

theorem expired_late {start due elapsed : Nat} (late : due ≤ elapsed) :
    (start + elapsed + 2 ^ 32 - (start + due) % 2 ^ 32) % 2 ^ 32 = (elapsed - due) % 2 ^ 32 := by
  omega

/-- A sweep changes nothing for a task none of whose entries is expired. -/
theorem futexSweep_spares (kept : Kept state) {tid expire : Nat} (due : state.DueAt tid expire)
    (early : ∀ entry : Entry, entry.expire = expire → expired state.ticks entry = false) :
    (futexSweep state).parks tid = state.parks tid ∧
      (futexSweep state).tasks tid = state.tasks tid := by
  have stays : tid ∉ (sweptEntries state).map Entry.tid := by
    intro member
    obtain ⟨entry, swept, is⟩ := List.mem_map.mp member
    obtain ⟨index, inside, late⟩ := (kept.mem_swept entry).mp swept
    rw [early entry (due index entry inside is)] at late
    exact absurd late (by simp)
  exact ⟨releaseAll_of_notMem stays, foldl_wake_other state.tasks stays⟩

/-- A task of the list that may be woken is ready at the end. -/
theorem foldl_wake_ready {woken : List Nat} {tasks : Tasks} {tid : Nat}
    (may : wakeable tasks tid = true)
    (listed : tid ∈ woken ∨ (tasks tid).state = .ready) :
    (woken.foldl (fun tasks tid =>
      if wakeable tasks tid then taskSetState tasks tid .ready else tasks) tasks tid).state =
      .ready := by
  induction woken generalizing tasks with
  | nil =>
    rcases listed with member | ready
    · exact absurd member List.not_mem_nil
    · exact ready
  | cons first rest inductionHypothesis =>
    rw [List.foldl_cons]
    refine inductionHypothesis ?_ ?_
    · split
      · rw [wakeable_ready]
        exact may
      · exact may
    · rcases listed with member | ready
      · rcases List.mem_cons.mp member with rfl | later
        · refine Or.inr ?_
          rw [if_pos may, taskSetState_ready may, Function.update_self]
        · exact Or.inl later
      · refine Or.inr ?_
        split
        · exact state_ready first ready
        · exact ready

/-- A sweep makes a task ready that has an expired entry. -/
theorem futexSweep_releases (kept : Kept state) {tid expire : Nat} (due : state.DueAt tid expire)
    (held : state.Held tid)
    (late : ∀ entry : Entry, entry.expire = expire → expired state.ticks entry = true) :
    ((futexSweep state).tasks tid).state = .ready := by
  obtain ⟨⟨⟨key, released⟩, parked, (waits : released = false)⟩, alive⟩ := held
  obtain rfl := waits
  obtain ⟨index, _, _, member⟩ := kept.present key tid ⟨parked, alive⟩
  obtain ⟨entry, inside, rfl⟩ := List.mem_map.mp member
  have user := ((kept.lined index).queue entry inside).2
  have swept : entry ∈ sweptEntries state :=
    (kept.mem_swept entry).mpr ⟨index, inside, late entry (due index entry inside rfl)⟩
  exact foldl_wake_ready (user.wakeable_iff.mpr alive) (Or.inl (List.mem_map_of_mem swept))

/-- What a run behind a timed wait keeps. -/
theorem TimedRun.kept {tid timeout start elapsed : Nat} {parked : Futexes}
    (run : TimedRun tid (waitTicks timeout) parked elapsed state) (short : timeout < 2 ^ 31)
    (kept : Kept parked) (held : parked.Held tid)
    (due : parked.DueAt tid ((start + waitTicks timeout) % 2 ^ 32))
    (ticks : parked.ticks % 2 ^ 32 = start % 2 ^ 32) :
    Kept state ∧ state.Held tid ∧ state.DueAt tid ((start + waitTicks timeout) % 2 ^ 32) ∧
      state.ticks % 2 ^ 32 = (start + elapsed) % 2 ^ 32 := by
  have short' : waitTicks timeout < 2 ^ 31 := by
    unfold waitTicks
    split <;> omega
  induction run with
  | parked => exact ⟨kept, held, due, ticks⟩
  | @step elapsed state next label _ untroubled taken sweeps others inductionHypothesis =>
    obtain ⟨kept', held', due', ticks'⟩ := inductionHypothesis
    have busy : state.parks tid ≠ none := by
      obtain ⟨⟨park, is, _⟩, _⟩ := held'
      rw [is]
      exact Option.some_ne_none park
    obtain ⟨carried, now⟩ := futexStep_carried kept' busy taken
    refine ⟨kept'.step untroubled taken, ?_, fun index entry member is => ?_, ?_⟩
    · by_cases sweep : label = .sweep
      · obtain rfl := sweep
        obtain rfl := Option.some.inj taken
        obtain ⟨parks, tasks⟩ := futexSweep_spares kept' due' fun entry expire => by
          rw [← Bool.not_eq_true, expired_iff expire ticks']
          exact fun past => expired_early short' (sweeps rfl) past.2
        unfold Futexes.Held Futexes.Waiting
        rw [parks, tasks]
        exact held'
      · exact others sweep
    · obtain ⟨source, before, member', is', same⟩ := carried index entry member is
      exact same ▸ due' source before member' is'
    · rw [now, ← Nat.add_assoc, Nat.add_mod, ticks', ← Nat.add_mod]

/-- The entry that a timed wait queues is the only one of its task. -/
theorem futexWait_due (kept : Kept state) {tid : Nat} (free : state.parks tid = none) (addr : Nat)
    (equal : Bool) (timeout : Nat) :
    (futexWait state tid addr equal (some timeout)).DueAt tid
      ((state.ticks + waitTicks timeout) % 2 ^ 32) ∧
      (futexWait state tid addr equal (some timeout)).ticks = state.ticks := by
  have absent : ∀ other : Futexes, Carried state other tid →
      other.DueAt tid ((state.ticks + waitTicks timeout) % 2 ^ 32) := by
    intro other carried index entry member is
    obtain ⟨source, before, member', is', _⟩ := carried.entry index entry member is
    have unparked : ¬ state.Waiting tid := by
      rintro ⟨park, parked, _⟩
      rw [free] at parked
      exact absurd parked (by simp)
    exact absurd (is' ▸ List.mem_map_of_mem member') (kept.absent unparked source)
  have none' := absent state (Carried.refl state tid)
  unfold futexWait
  split
  · exact ⟨none', rfl⟩
  dsimp only
  split
  · exact ⟨none', rfl⟩
  rename_i index found given
  have carried := futexAlloc_carried tid given
  split
  · exact ⟨absent found carried, carried.ticks⟩
  refine ⟨fun place entry member is => ?_, carried.ticks⟩
  replace member : entry ∈ ((found.setFutex index { found.futexes index with
      waiters := (found.futexes index).waiters ++
        [⟨tid, deadline state.ticks (some timeout), state.joins⟩] }).futexes place).waiters := member
  rcases eq_or_ne place index with rfl | different
  · rw [setFutex_self] at member
    rcases List.mem_append.mp member with old | new
    · exact absent found carried place entry old is
    · rw [List.mem_singleton.mp new]
      rfl
  · rw [setFutex_other found different] at member
    exact absent found carried place entry member is

/-- A task parked by `futex_wait_timeout` that nobody wakes is made ready by no sweep before its
deadline, and by the first one after it exactly when the deadline does not come out as 0 and the
sweep is not late by half the range of the tick counter. -/
theorem futex_timeout_expires_iff {before parked : Futexes} {tid addr timeout elapsed : Nat}
    (reachable : futexSystem.Reachable Untroubled before) (short : timeout < 2 ^ 31)
    (waited : futexStep before (.wait tid addr true (some timeout)) = some parked)
    (held : parked.Held tid)
    (run : TimedRun tid (waitTicks timeout) parked elapsed state)
    (late : waitTicks timeout ≤ elapsed) :
    (state.Held tid ∧ (state.tasks tid).state ≠ .ready) ∧
      (((futexSweep state).tasks tid).state = .ready ↔
        (before.ticks + waitTicks timeout) % 2 ^ 32 ≠ 0 ∧
          (elapsed - waitTicks timeout) % 2 ^ 32 < 2 ^ 31) := by
  have kept : Kept before := reachable.invariant Kept
    (fun _ initial => Futexes.Initial.kept initial)
    fun _ _ _ kept untroubled taken => kept.step untroubled taken
  have keptParked := kept.step
    (show Untroubled before (.wait tid addr true (some timeout)) from trivial) waited
  obtain ⟨may, same⟩ := Option.ite_none_right_eq_some.mp waited
  obtain ⟨due, ticks⟩ := futexWait_due kept (Futexes.caller_iff may).2 addr true timeout
  rw [Option.some.inj same] at due ticks
  obtain ⟨kept', held', due', ticks'⟩ :=
    run.kept short keptParked held due (congrArg (· % 2 ^ 32) ticks)
  have asleep : (state.tasks tid).state ≠ .ready := by
    intro ready
    rcases kept'.resting tid held'.1 with blocked | ⟨_, stopped | dead⟩
    · exact absurd (ready.symm.trans blocked) (by simp)
    · exact absurd (ready.symm.trans stopped) (by simp)
    · exact absurd (ready.symm.trans dead) (by simp)
  refine ⟨⟨held', asleep⟩, ?_⟩
  rw [← @expired_late before.ticks _ _ late]
  have expires : ∀ entry : Entry, entry.expire = (before.ticks + waitTicks timeout) % 2 ^ 32 →
      (expired state.ticks entry = true ↔ _) := fun entry expire => expired_iff expire ticks'
  refine ⟨fun ready => ?_, fun past => ?_⟩
  · by_contra early
    have spared := futexSweep_spares kept' due' fun entry expire => by
      rw [← Bool.not_eq_true, expires entry expire]
      exact early
    rw [spared.2] at ready
    exact asleep ready
  · exact futexSweep_releases kept' due' held' fun entry expire => (expires entry expire).mpr past

/-- The six tasks at a value of the tick counter. -/
def sixThreadsAt (ticks : Nat) : Futexes := { sixThreads with ticks := ticks }

theorem sixThreadsAt_initial (ticks : Nat) : (sixThreadsAt ticks).Initial := sixThreads_initial

/-- Task 1 waits two ticks on word 8 and is moved to word 9, where the second sweep finds it. -/
theorem futex_timeout_expires_moved : ∃ state : Futexes,
    ((state.Held 1 ∧ (state.tasks 1).state ≠ .ready) ∧
      (((futexSweep state).tasks 1).state = .ready ↔
        (0 + waitTicks 2) % 2 ^ 32 ≠ 0 ∧ (2 - waitTicks 2) % 2 ^ 32 < 2 ^ 31)) ∧
    (state.queue (0, 9)).map Entry.tid = [1] := by
  have waited : futexStep (sixThreadsAt 0) (.wait 1 8 true (some 2)) =
      some (futexWait (sixThreadsAt 0) 1 8 true (some 2)) := rfl
  have asleep : TimedRun 1 (waitTicks 2) (futexWait (sixThreadsAt 0) 1 8 true (some 2)) 0 _ :=
    .parked
  have moved := asleep.step (show Untroubled _ (.requeue 3 8 true 9 0) from trivial)
    (show futexStep _ _ = some _ from rfl) (fun sweep => absurd sweep (by simp))
    fun _ => ⟨⟨⟨(0, 9), false⟩, rfl, rfl⟩, by decide⟩
  have ticked := moved.step (show Untroubled _ .tick from trivial)
    (show futexStep _ _ = some _ from rfl) (fun sweep => absurd sweep (by simp))
    fun _ => ⟨⟨⟨(0, 9), false⟩, rfl, rfl⟩, by decide⟩
  have swept := ticked.step (show Untroubled _ .sweep from trivial)
    (show futexStep _ _ = some _ from rfl) (fun _ => by decide) fun other => absurd rfl other
  have due := swept.step (show Untroubled _ .tick from trivial)
    (show futexStep _ _ = some _ from rfl) (fun sweep => absurd sweep (by simp))
    fun _ => ⟨⟨⟨(0, 9), false⟩, rfl, rfl⟩, by decide⟩
  exact ⟨_, futex_timeout_expires_iff (.init (sixThreadsAt_initial 0)) (by decide) waited
    ⟨⟨⟨(0, 8), false⟩, rfl, rfl⟩, by decide⟩ due (by decide), by decide +kernel⟩

/-- A wait of one tick that starts on the last tick before the counter wraps has the deadline 0 and
is never released by a sweep. -/
theorem futex_timeout_expires_untimed : ¬ ∀ (before parked state : Futexes)
    (tid addr timeout elapsed : Nat), futexSystem.Reachable Untroubled before →
    timeout < 2 ^ 31 → futexStep before (.wait tid addr true (some timeout)) = some parked →
    parked.Held tid → TimedRun tid (waitTicks timeout) parked elapsed state →
    waitTicks timeout ≤ elapsed → ((futexSweep state).tasks tid).state = .ready := by
  intro always
  have asleep : TimedRun 1 (waitTicks 1)
      (futexWait (sixThreadsAt (2 ^ 32 - 1)) 1 8 true (some 1)) 0 _ := .parked
  have ticked := asleep.step (show Untroubled _ .tick from trivial)
    (show futexStep _ _ = some _ from rfl) (fun sweep => absurd sweep (by simp))
    fun _ => ⟨⟨⟨(0, 8), false⟩, rfl, rfl⟩, by decide⟩
  have ready := always (sixThreadsAt (2 ^ 32 - 1)) _ _ 1 8 1 _
    (.init (sixThreadsAt_initial (2 ^ 32 - 1))) (by decide) rfl
    ⟨⟨⟨(0, 8), false⟩, rfl, rfl⟩, by decide⟩ ticked (by decide)
  have blocked : ((futexSweep { futexWait (sixThreadsAt (2 ^ 32 - 1)) 1 8 true (some 1) with
      ticks := 0 }).tasks 1).state = .blocked := by
    decide +kernel
  exact absurd (ready.symm.trans blocked) (by simp)

end MectovOS.Sync
