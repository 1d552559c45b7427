/-
This file is the abstract scheduler: which task is current on which core, which
tasks are queued where, and the states they are in, without frames, signals or
memory. Its invariant is stated here once, and each elementary change of the
roster (queue, dequeue, change of state, release and occupation of a slot,
commit of a task to a core) is shown to keep it.
-/

import MectovOS.Lib.SwapRemove
import MectovOS.Task.Fixed

namespace MectovOS.Sched

open SwapRemove Function

/-! ### The roster -/

/-- What the scheduler invariant is about. -/
structure Roster where
  currentTask : Nat → Option Nat
  rq : Nat → List Nat
  numTasks : Int
  smpCpuCount : Nat
  commits : List (Nat × TaskState)
  state : Nat → TaskState
  rqCpu : Nat → Option Nat
  isIdle : Nat → Bool
  ring : Nat → Nat
  waiting : Nat → Int

namespace Roster

variable {roster : Roster}

/-- The slots that are not FREE. -/
def live (roster : Roster) : Finset Nat :=
  (Finset.range maxTasks).filter fun tid => roster.state tid ≠ .free

def setState (roster : Roster) (tid : Nat) (state : TaskState) : Roster :=
  { roster with state := update roster.state tid state }

def setWaiting (roster : Roster) (tid : Nat) (waiting : Int) : Roster :=
  { roster with waiting := update roster.waiting tid waiting }

def enqueue (roster : Roster) (cpu tid : Nat) : Roster :=
  { roster with
    rq := update roster.rq cpu (roster.rq cpu ++ [tid])
    rqCpu := update roster.rqCpu tid (some cpu) }

def dequeue (roster : Roster) (cpu tid : Nat) : Roster :=
  { roster with
    rq := update roster.rq cpu (swapRemove (roster.rq cpu) tid)
    rqCpu := update roster.rqCpu tid none }

def release (roster : Roster) (tid : Nat) : Roster :=
  { roster.setState tid .free with numTasks := roster.numTasks - 1 }

def occupy (roster : Roster) (tid ring : Nat) (waiting : Int) : Roster :=
  { roster with
    numTasks := roster.numTasks + 1
    state := update roster.state tid .ready
    rqCpu := update roster.rqCpu tid none
    isIdle := update roster.isIdle tid false
    ring := update roster.ring tid ring
    waiting := update roster.waiting tid waiting }

def commit (roster : Roster) (cid next : Nat) : Roster :=
  { roster.setState next .running with
    currentTask := update roster.currentTask cid (some next)
    commits := (next, roster.state next) :: roster.commits }

/-! ### The invariant -/

/-- The joint invariant of cores, queues and states. A slot below the number of cores is
pinned: task 0 to the boot core, an idle task to the core of its own number. -/
structure Sane (roster : Roster) : Prop where
  cores_pos : 0 < roster.smpCpuCount
  cores_le : roster.smpCpuCount ≤ maxCpus
  current_core : ∀ cid tid, roster.currentTask cid = some tid → cid < roster.smpCpuCount
  current_slot : ∀ cid tid, roster.currentTask cid = some tid → tid < maxTasks
  current_once : ∀ first second tid, roster.currentTask first = some tid →
    roster.currentTask second = some tid → first = second
  queued : ∀ cpu tid, tid ∈ roster.rq cpu ↔ tid < maxTasks ∧ roster.rqCpu tid = some cpu
  queued_once : ∀ cpu, (roster.rq cpu).Nodup
  queue_core : ∀ tid cpu, tid < maxTasks → roster.rqCpu tid = some cpu →
    cpu < roster.smpCpuCount
  dead_unqueued : ∀ tid, tid < maxTasks → (roster.state tid).dead = true →
    roster.rqCpu tid = none
  pinned_queue : ∀ tid cpu, tid < roster.smpCpuCount → roster.rqCpu tid = some cpu → cpu = tid
  pinned_current : ∀ tid cid, tid < roster.smpCpuCount → roster.currentTask cid = some tid →
    cid = tid
  pinned_alive : ∀ tid, tid < roster.smpCpuCount → (roster.state tid).dead = false
  idle_iff : ∀ tid, tid < maxTasks →
    (roster.isIdle tid = true ↔ 0 < tid ∧ tid < roster.smpCpuCount)
  idle_ring : ∀ tid, 0 < tid → tid < roster.smpCpuCount → roster.ring tid = 0
  idle_waiting : ∀ tid, 0 < tid → tid < roster.smpCpuCount → roster.waiting tid = 0
  idle_state : ∀ tid, 0 < tid → tid < roster.smpCpuCount →
    roster.state tid ≠ .sleep ∧ roster.state tid ≠ .blocked
  count : roster.numTasks = roster.live.card
  committed_alive : ∀ entry ∈ roster.commits, entry.2.dead = false

/-- Every READY task outside the exempt ones is queued or current. -/
def Placed (roster : Roster) (exempt : Nat → Prop) : Prop :=
  ∀ tid, tid < maxTasks → ¬exempt tid → roster.state tid = .ready →
    roster.rqCpu tid ≠ none ∨ ∃ cid, roster.currentTask cid = some tid

/-- The invariant between two critical sections. -/
structure Safe (roster : Roster) : Prop where
  sane : roster.Sane
  placed : roster.Placed fun _ => False

theorem Sane.cores_lt_slots (sane : roster.Sane) {tid : Nat} (pinned : tid < roster.smpCpuCount) :
    tid < maxTasks :=
  pinned.trans_le (sane.cores_le.trans (by decide))

/-- A FREE or dying slot is not pinned. -/
theorem Sane.unpinned (sane : roster.Sane) {tid : Nat} (dead : (roster.state tid).dead = true) :
    roster.smpCpuCount ≤ tid := by
  by_contra pinned
  have alive := sane.pinned_alive tid (Nat.lt_of_not_le pinned)
  rw [dead] at alive
  cases alive

theorem Placed.exempting {exempt : Nat → Prop} (placed : roster.Placed exempt)
    (wider : Nat → Prop) (weaker : ∀ tid, exempt tid → wider tid) : roster.Placed wider :=
  fun tid slot outside ready => placed tid slot (fun inside => outside (weaker tid inside)) ready

/-! ### Changes of state -/

@[simp] theorem setState_self (roster : Roster) (tid : Nat) (state : TaskState) :
    (roster.setState tid state).state tid = state :=
  update_self _ _ _

theorem setState_other (roster : Roster) {tid other : Nat} (state : TaskState)
    (apart : other ≠ tid) : (roster.setState tid state).state other = roster.state other :=
  update_of_ne apart _ _

theorem mem_live {tid : Nat} : tid ∈ roster.live ↔ tid < maxTasks ∧ roster.state tid ≠ .free := by
  simp only [live, Finset.mem_filter, Finset.mem_range]

theorem live_setState_of_iff {tid : Nat} {state : TaskState}
    (same : state = .free ↔ roster.state tid = .free) :
    (roster.setState tid state).live = roster.live := by
  ext other
  rw [mem_live, mem_live]
  by_cases apart : other = tid
  · rw [apart, setState_self, ne_eq, same]
  · rw [setState_other _ _ apart]

/-- A change of state that leaves the slot FREE or not FREE. -/
theorem Sane.setState (sane : roster.Sane) {tid : Nat} {state : TaskState}
    (same : state = .free ↔ roster.state tid = .free)
    (dead : state.dead = true → roster.rqCpu tid = none)
    (pinned : tid < roster.smpCpuCount → state.dead = false)
    (idle : 0 < tid → tid < roster.smpCpuCount → state ≠ .sleep ∧ state ≠ .blocked) :
    (roster.setState tid state).Sane :=
  { sane with
    dead_unqueued := by
      intro other slot died
      by_cases apart : other = tid
      · rw [apart, setState_self] at died
        rw [apart]
        exact dead died
      · rw [setState_other _ _ apart] at died
        exact sane.dead_unqueued other slot died
    pinned_alive := by
      intro other low
      by_cases apart : other = tid
      · rw [apart, setState_self]
        exact pinned (apart ▸ low)
      · rw [setState_other _ _ apart]
        exact sane.pinned_alive other low
    idle_state := by
      intro other positive low
      by_cases apart : other = tid
      · rw [apart, setState_self]
        exact idle (apart ▸ positive) (apart ▸ low)
      · rw [setState_other _ _ apart]
        exact sane.idle_state other positive low
    count := by
      rw [live_setState_of_iff same]
      exact sane.count }

/-- A task that leaves READY, or is READY already, moves no other task out of place. -/
theorem Placed.setState {exempt : Nat → Prop} (placed : roster.Placed exempt) {tid : Nat}
    {state : TaskState} (settled : state ≠ .ready ∨ exempt tid ∨ roster.state tid = .ready) :
    (roster.setState tid state).Placed exempt := by
  intro other slot outside ready
  by_cases apart : other = tid
  · rw [apart, setState_self] at ready
    rw [apart] at outside slot ⊢
    rcases settled with unready | inside | already
    · exact absurd ready unready
    · exact absurd inside outside
    · exact placed tid slot outside already
  · rw [setState_other _ _ apart] at ready
    exact placed other slot outside ready

/-- A task that is no longer READY needs no place. -/
theorem Placed.settle {tid : Nat} (placed : roster.Placed (· = tid))
    (unready : roster.state tid ≠ .ready) : roster.Placed fun _ => False := by
  intro other slot _ ready
  refine placed other slot (fun equal => ?_) ready
  rw [equal] at ready
  exact unready ready

/-- A task that is queued or current has a place. -/
theorem Placed.seat {tid : Nat} (placed : roster.Placed (· = tid))
    (seated : roster.rqCpu tid ≠ none ∨ ∃ cid, roster.currentTask cid = some tid) :
    roster.Placed fun _ => False := by
  intro other slot _ ready
  by_cases apart : other = tid
  · rw [apart]
    exact seated
  · exact placed other slot apart ready

theorem Sane.setWaiting (sane : roster.Sane) {tid : Nat} {waiting : Int}
    (idle : 0 < tid → tid < roster.smpCpuCount → waiting = 0) :
    (roster.setWaiting tid waiting).Sane :=
  { sane with
    idle_waiting := by
      intro other positive low
      by_cases apart : other = tid
      · refine (congrArg _ apart).trans ((update_self _ _ _).trans ?_)
        exact idle (apart ▸ positive) (apart ▸ low)
      · exact (update_of_ne apart _ _).trans (sane.idle_waiting other positive low) }

/-! ### Slots -/

theorem live_release {tid : Nat} : (roster.release tid).live = roster.live.erase tid := by
  ext other
  rw [Finset.mem_erase, mem_live, mem_live]
  by_cases apart : other = tid
  · rw [apart]
    exact iff_of_false (fun member => member.2 (setState_self _ _ _)) fun member => member.1 rfl
  · rw [release, setState_other _ _ apart]
    exact ⟨fun member => ⟨apart, member⟩, fun member => member.2⟩

/-- A slot that is not pinned and not queued is given back. -/
theorem Sane.release (sane : roster.Sane) {tid : Nat} (slot : tid < maxTasks)
    (occupied : roster.state tid ≠ .free) (unqueued : roster.rqCpu tid = none)
    (unpinned : roster.smpCpuCount ≤ tid) : (roster.release tid).Sane :=
  { sane with
    dead_unqueued := by
      intro other bound died
      by_cases apart : other = tid
      · rw [apart]
        exact unqueued
      · rw [Roster.release, setState_other _ _ apart] at died
        exact sane.dead_unqueued other bound died
    pinned_alive := by
      intro other low
      rw [Roster.release, setState_other _ _ (low.trans_le unpinned).ne]
      exact sane.pinned_alive other low
    idle_state := by
      intro other positive low
      rw [Roster.release, setState_other _ _ (low.trans_le unpinned).ne]
      exact sane.idle_state other positive low
    count := by
      have member : tid ∈ roster.live := mem_live.mpr ⟨slot, occupied⟩
      rw [live_release, Finset.card_erase_of_mem member, Nat.cast_pred (Finset.card_pos.mpr
        ⟨tid, member⟩), ← sane.count]
      rfl }

theorem live_occupy {tid ring : Nat} {waiting : Int} (slot : tid < maxTasks) :
    (roster.occupy tid ring waiting).live = insert tid roster.live := by
  ext other
  rw [Finset.mem_insert, mem_live, mem_live]
  by_cases apart : other = tid
  · rw [apart]
    refine iff_of_true ⟨slot, ?_⟩ (.inl rfl)
    simp only [occupy]
    rw [update_self]
    exact TaskState.noConfusion
  · simp only [occupy]
    rw [update_of_ne apart]
    exact ⟨.inr, fun member => member.resolve_left apart⟩

/-- A FREE slot is filled by a READY task that is no idle task. -/
theorem Sane.occupy (sane : roster.Sane) {tid ring : Nat} {waiting : Int} (slot : tid < maxTasks)
    (unused : roster.state tid = .free) : (roster.occupy tid ring waiting).Sane := by
  have unpinned : roster.smpCpuCount ≤ tid := sane.unpinned (by rw [unused]; rfl)
  have unqueued : roster.rqCpu tid = none := sane.dead_unqueued tid slot (by rw [unused]; rfl)
  have homes : (roster.occupy tid ring waiting).rqCpu = roster.rqCpu := by
    rw [Roster.occupy, ← unqueued, update_eq_self]
  have other_ne : ∀ other, other < roster.smpCpuCount → other ≠ tid :=
    fun other low => (low.trans_le unpinned).ne
  exact
    { sane with
      queued := by
        rw [homes]
        exact sane.queued
      queue_core := by
        rw [homes]
        exact sane.queue_core
      dead_unqueued := by
        rw [homes]
        intro other bound died
        by_cases apart : other = tid
        · rw [apart]
          exact unqueued
        · simp only [Roster.occupy] at died
          rw [update_of_ne apart] at died
          exact sane.dead_unqueued other bound died
      pinned_queue := by
        rw [homes]
        exact sane.pinned_queue
      pinned_alive := by
        intro other low
        simp only [Roster.occupy]
        rw [update_of_ne (other_ne other low)]
        exact sane.pinned_alive other low
      idle_iff := by
        intro other bound
        by_cases apart : other = tid
        · simp only [Roster.occupy]
          rw [apart, update_self]
          exact iff_of_false Bool.false_ne_true fun low => Nat.not_lt_of_le unpinned low.2
        · simp only [Roster.occupy]
          rw [update_of_ne apart]
          exact sane.idle_iff other bound
      idle_ring := by
        intro other positive low
        simp only [Roster.occupy]
        rw [update_of_ne (other_ne other low)]
        exact sane.idle_ring other positive low
      idle_waiting := by
        intro other positive low
        simp only [Roster.occupy]
        rw [update_of_ne (other_ne other low)]
        exact sane.idle_waiting other positive low
      idle_state := by
        intro other positive low
        simp only [Roster.occupy]
        rw [update_of_ne (other_ne other low)]
        exact sane.idle_state other positive low
      count := by
        have absent : tid ∉ roster.live := fun member => (mem_live.mp member).2 unused
        rw [live_occupy slot, Finset.card_insert_of_notMem absent, Nat.cast_succ, ← sane.count]
        rfl }

/-! ### Queues -/

theorem Sane.queue_short (sane : roster.Sane) {cpu tid : Nat} (slot : tid < maxTasks)
    (unqueued : roster.rqCpu tid = none) : (roster.rq cpu).length < maxTasks := by
  refine length_lt_of_nodup (sane.queued_once cpu)
    (fun other member => ((sane.queued cpu other).mp member).1) slot fun member => ?_
  have home := ((sane.queued cpu tid).mp member).2
  rw [unqueued] at home
  cases home

/-- An alive task that is on no queue joins one; a pinned task only its own. -/
theorem Sane.enqueue (sane : roster.Sane) {cpu tid : Nat} (slot : tid < maxTasks)
    (core : cpu < roster.smpCpuCount) (unqueued : roster.rqCpu tid = none)
    (alive : (roster.state tid).dead = false) (pinned : tid < roster.smpCpuCount → cpu = tid) :
    (roster.enqueue cpu tid).Sane := by
  have absent : ∀ other, tid ∉ roster.rq other := by
    intro other member
    have home := ((sane.queued other tid).mp member).2
    rw [unqueued] at home
    cases home
  exact
    { sane with
      queued := by
        intro other queued
        simp only [Roster.enqueue]
        by_cases own : other = cpu
        · subst own
          rw [update_self, List.mem_append, List.mem_singleton, sane.queued]
          by_cases apart : queued = tid
          · subst apart
            rw [update_self]
            exact iff_of_true (.inr rfl) ⟨slot, rfl⟩
          · rw [update_of_ne apart]
            exact ⟨fun member => member.resolve_right apart, .inl⟩
        · rw [update_of_ne own, sane.queued]
          by_cases apart : queued = tid
          · subst apart
            rw [update_self, unqueued]
            refine iff_of_false (fun member => by cases member.2) fun member => ?_
            exact own (Option.some.inj member.2).symm
          · rw [update_of_ne apart]
      queued_once := by
        intro other
        simp only [Roster.enqueue]
        by_cases own : other = cpu
        · subst own
          rw [update_self]
          refine List.nodup_append.mpr ⟨sane.queued_once other, List.nodup_singleton tid, ?_⟩
          intro first member second single equal
          rw [List.mem_singleton] at single
          exact absent other (single ▸ equal ▸ member)
        · rw [update_of_ne own]
          exact sane.queued_once other
      queue_core := by
        intro other home bound
        simp only [Roster.enqueue]
        by_cases apart : other = tid
        · subst apart
          rw [update_self]
          exact fun equal => Option.some.inj equal ▸ core
        · rw [update_of_ne apart]
          exact sane.queue_core other home bound
      dead_unqueued := by
        intro other bound died
        simp only [Roster.enqueue] at died ⊢
        by_cases apart : other = tid
        · subst apart
          rw [alive] at died
          cases died
        · rw [update_of_ne apart]
          exact sane.dead_unqueued other bound died
      pinned_queue := by
        intro other home low
        simp only [Roster.enqueue] at low ⊢
        by_cases apart : other = tid
        · subst apart
          rw [update_self]
          exact fun equal => Option.some.inj equal ▸ pinned low
        · rw [update_of_ne apart]
          exact sane.pinned_queue other home low }

/-- A queued task leaves its queue. -/
theorem Sane.dequeue (sane : roster.Sane) {cpu tid : Nat}
    (home : roster.rqCpu tid = some cpu) : (roster.dequeue cpu tid).Sane :=
  { sane with
    queued := by
      intro other queued
      simp only [Roster.dequeue]
      by_cases own : other = cpu
      · subst own
        rw [update_self, mem_swapRemove (sane.queued_once other), sane.queued]
        by_cases apart : queued = tid
        · subst apart
          rw [update_self]
          exact iff_of_false (fun member => member.1 rfl) fun member => by cases member.2
        · rw [update_of_ne apart]
          exact ⟨fun member => member.2, fun member => ⟨apart, member⟩⟩
      · rw [update_of_ne own, sane.queued]
        by_cases apart : queued = tid
        · subst apart
          rw [update_self, home]
          refine iff_of_false (fun member => ?_) fun member => by cases member.2
          exact own (Option.some.inj member.2).symm
        · rw [update_of_ne apart]
    queued_once := by
      intro other
      simp only [Roster.dequeue]
      by_cases own : other = cpu
      · subst own
        rw [update_self]
        exact nodup_swapRemove (sane.queued_once other) tid
      · rw [update_of_ne own]
        exact sane.queued_once other
    queue_core := by
      intro other elsewhere bound
      simp only [Roster.dequeue]
      by_cases apart : other = tid
      · subst apart
        rw [update_self]
        exact fun equal => by cases equal
      · rw [update_of_ne apart]
        exact sane.queue_core other elsewhere bound
    dead_unqueued := by
      intro other bound died
      simp only [Roster.dequeue] at died ⊢
      by_cases apart : other = tid
      · subst apart
        exact update_self _ _ _
      · rw [update_of_ne apart]
        exact sane.dead_unqueued other bound died
    pinned_queue := by
      intro other elsewhere low
      simp only [Roster.dequeue] at low ⊢
      by_cases apart : other = tid
      · subst apart
        rw [update_self]
        exact fun equal => by cases equal
      · rw [update_of_ne apart]
        exact sane.pinned_queue other elsewhere low }

theorem Placed.enqueue {exempt : Nat → Prop} (placed : roster.Placed exempt) (cpu tid : Nat) :
    (roster.enqueue cpu tid).Placed exempt := by
  intro other slot outside ready
  by_cases apart : other = tid
  · refine .inl ?_
    simp only [Roster.enqueue]
    rw [apart, update_self]
    exact Option.some_ne_none cpu
  · simp only [Roster.enqueue]
    rw [update_of_ne apart]
    exact placed other slot outside ready

theorem Placed.dequeue {exempt : Nat → Prop} (placed : roster.Placed exempt) (cpu : Nat)
    {tid : Nat} (inside : exempt tid) : (roster.dequeue cpu tid).Placed exempt := by
  intro other slot outside ready
  have apart : other ≠ tid := fun equal => outside (equal ▸ inside)
  simp only [Roster.dequeue]
  rw [update_of_ne apart]
  exact placed other slot outside ready

/-- Take a task off whatever queue it is on. -/
def remove (roster : Roster) (tid : Nat) : Roster :=
  match roster.rqCpu tid with
  | none => roster
  | some cpu => roster.dequeue cpu tid

theorem remove_kept (roster : Roster) (tid : Nat) :
    (roster.remove tid).state = roster.state ∧
      (roster.remove tid).currentTask = roster.currentTask ∧
      (roster.remove tid).smpCpuCount = roster.smpCpuCount ∧
      (roster.remove tid).rqCpu tid = none := by
  unfold remove
  split
  · rename_i unqueued
    exact ⟨rfl, rfl, rfl, unqueued⟩
  · exact ⟨rfl, rfl, rfl, update_self _ _ _⟩

theorem Sane.remove (sane : roster.Sane) (tid : Nat) : (roster.remove tid).Sane := by
  unfold Roster.remove
  split
  · exact sane
  · rename_i home
    exact sane.dequeue home

theorem Placed.remove {exempt : Nat → Prop} (placed : roster.Placed exempt) {tid : Nat}
    (inside : exempt tid) : (roster.remove tid).Placed exempt := by
  unfold Roster.remove
  split
  · exact placed
  · exact placed.dequeue _ inside

/-- A task that is alive parks in a state that is neither dead nor READY. -/
theorem Safe.park (safe : roster.Safe) {tid : Nat} {state : TaskState} (parked : state ≠ .ready)
    (lasting : state.dead = false) (occupied : roster.state tid ≠ .free)
    (idle : 0 < tid → tid < roster.smpCpuCount → state ≠ .sleep ∧ state ≠ .blocked) :
    ((roster.setState tid state).remove tid).Safe := by
  have kept : state = .free ↔ roster.state tid = .free := by
    refine iff_of_false (fun equal => ?_) occupied
    rw [equal] at lasting
    cases lasting
  have sane := safe.sane.setState kept (fun dead => by rw [lasting] at dead; cases dead)
    (fun _ => lasting) idle
  have placed : (roster.setState tid state).Placed (· = tid) :=
    (safe.placed.setState (.inl parked)).exempting (· = tid) fun _ => False.elim
  refine ⟨sane.remove tid, (placed.remove rfl).settle ?_⟩
  rw [(remove_kept _ tid).1, setState_self]
  exact parked

/-! ### The commit -/

/-- A task that is alive and current nowhere else becomes the current task of a core. -/
theorem Sane.commit (sane : roster.Sane) {cid next : Nat} (core : cid < roster.smpCpuCount)
    (slot : next < maxTasks) (alive : (roster.state next).dead = false)
    (elsewhere : ∀ other, roster.currentTask other = some next → other = cid)
    (pinned : next < roster.smpCpuCount → cid = next) : (roster.commit cid next).Sane := by
  have occupied : roster.state next ≠ .free := by
    intro unused
    rw [unused] at alive
    cases alive
  have running : (roster.setState next .running).Sane :=
    sane.setState (iff_of_false TaskState.noConfusion occupied) (fun dead => by cases dead)
      (fun _ => rfl) (fun _ _ => ⟨TaskState.noConfusion, TaskState.noConfusion⟩)
  have current : ∀ {other tid : Nat}, (roster.commit cid next).currentTask other = some tid →
      (other = cid ∧ tid = next) ∨ (other ≠ cid ∧ roster.currentTask other = some tid) := by
    intro other tid equal
    simp only [Roster.commit] at equal
    by_cases own : other = cid
    · rw [own, update_self] at equal
      exact .inl ⟨own, (Option.some.inj equal).symm⟩
    · rw [update_of_ne own] at equal
      exact .inr ⟨own, equal⟩
  exact
    { running with
      current_core := by
        intro other tid equal
        rcases current equal with ⟨rfl, rfl⟩ | ⟨_, before⟩
        · exact core
        · exact sane.current_core other tid before
      current_slot := by
        intro other tid equal
        rcases current equal with ⟨rfl, rfl⟩ | ⟨_, before⟩
        · exact slot
        · exact sane.current_slot other tid before
      current_once := by
        intro first second tid former latter
        rcases current former with ⟨rfl, rfl⟩ | ⟨apart, before⟩
        · rcases current latter with ⟨rfl, _⟩ | ⟨apart, before⟩
          · rfl
          · exact absurd (elsewhere second before) apart
        · rcases current latter with ⟨rfl, rfl⟩ | ⟨_, later⟩
          · exact absurd (elsewhere first before) apart
          · exact sane.current_once first second tid before later
      pinned_current := by
        intro tid other low equal
        rcases current equal with ⟨rfl, rfl⟩ | ⟨_, before⟩
        · exact pinned low
        · exact sane.pinned_current tid other low before
      count := running.count
      committed_alive := by
        intro entry member
        rcases List.mem_cons.mp member with rfl | earlier
        · exact alive
        · exact sane.committed_alive entry earlier }

/-- The task that loses the core keeps its place when it is queued or not READY. -/
theorem Placed.commit (placed : roster.Placed fun _ => False) {cid next : Nat}
    (saved : ∀ tid, roster.currentTask cid = some tid → roster.state tid = .ready →
      roster.rqCpu tid ≠ none) : (roster.commit cid next).Placed fun _ => False := by
  intro tid slot _ ready
  have apart : tid ≠ next := by
    rintro rfl
    rw [Roster.commit, setState_self] at ready
    cases ready
  rw [Roster.commit, setState_other _ _ apart] at ready
  rcases placed tid slot not_false ready with queued | ⟨other, current⟩
  · exact .inl queued
  · by_cases own : other = cid
    · exact .inl (saved tid (own ▸ current) ready)
    · refine .inr ⟨other, ?_⟩
      simp only [Roster.commit]
      rw [update_of_ne own]
      exact current

end Roster

end MectovOS.Sched
