/-
This file proves that the tokens of semaphores are conserved in every run that
does not disturb the waiters. The invariant says who stands in the queues: each
entry is a task that is in a wait on that very semaphore, has no token yet and
will notice nothing until it gets one.
-/

import MectovOS.Sync.Semaphore

namespace MectovOS.Sync

open Sched (maxTasks)
open Transition Function

variable {state next : Semaphores}

/-! ### The invariant -/

/-- The tokens of one semaphore add up. -/
def Balanced (state : Semaphores) (id : Nat) : Prop :=
  (state.accounts (state.key id)).returns + (state.sems id).count +
      (state.accounts (state.key id)).handed =
    (state.accounts (state.key id)).initial + (state.accounts (state.key id)).posts +
      (state.accounts (state.key id)).redeemed

/-- What holds of one semaphore: its tokens add up, its queue is empty when it does not exist,
and the tasks in its queue wait on it, each once. -/
structure Orderly (state : Semaphores) (id : Nat) : Prop where
  balanced : (state.sems id).inUse = true → Balanced state id
  unused : (state.sems id).inUse = false → (state.sems id).waiters = []
  queue : ∀ tid ∈ (state.sems id).waiters, state.parks tid = some ⟨id, state.lives id, false⟩
  nodup : (state.sems id).waiters.Nodup

/-- What an undisturbed run keeps. -/
structure Accounted (state : Semaphores) : Prop where
  orderly : ∀ id, Orderly state id
  resting : ∀ tid, state.Waiting tid → (state.tasks tid).Resting
  paid : TokenEvent.returned false ∉ state.history
  parked : TokenEvent.handed false ∉ state.history

/-- A semaphore that a step does not touch stays as it is, when its waiters stay parked. -/
theorem Orderly.other {id : Nat} (orderly : Orderly state id)
    (sem : next.sems id = state.sems id) (lives : next.lives id = state.lives id)
    (account : next.accounts (id, state.lives id) = state.accounts (id, state.lives id))
    (parks : ∀ tid ∈ (state.sems id).waiters, next.parks tid = state.parks tid) :
    Orderly next id := by
  have key : next.key id = state.key id := by
    unfold Semaphores.key
    rw [lives]
  refine ⟨fun live => ?_, fun idle => ?_, fun tid member => ?_, ?_⟩
  · unfold Balanced
    rw [key, sem]
    unfold Semaphores.key
    rw [account]
    exact orderly.balanced (sem ▸ live)
  · rw [sem] at idle ⊢
    exact orderly.unused idle
  · rw [sem] at member
    rw [parks tid member, lives]
    exact orderly.queue tid member
  · rw [sem]
    exact orderly.nodup

/-- A task that is in no wait without a token stands in no queue. -/
theorem Accounted.absent (accounted : Accounted state) {tid : Nat}
    (free : ¬ state.Waiting tid) (id : Nat) : tid ∉ (state.sems id).waiters :=
  fun member => free ⟨_, (accounted.orderly id).queue tid member, rfl⟩

/-- A task stands in the queue of one semaphore at most. -/
theorem Accounted.single (accounted : Accounted state) {tid first second : Nat}
    (one : tid ∈ (state.sems first).waiters) (two : tid ∈ (state.sems second).waiters) :
    first = second := by
  have same := ((accounted.orderly first).queue tid one).symm.trans
    ((accounted.orderly second).queue tid two)
  exact congrArg Park.sem (Option.some.inj same)

/-! ### Operations -/

theorem Accounted.create (accounted : Accounted state) (initial : Int) :
    Accounted (semCreate state initial) := by
  unfold semCreate
  split
  · exact accounted
  · rename_i id found
    refine ⟨fun other => ?_, accounted.resting, accounted.paid, accounted.parked⟩
    rcases eq_or_ne other id with rfl | different
    · refine ⟨fun _ => ?_, fun _ => ?_, fun tid member => ?_, ?_⟩
      · simp only [Balanced, Semaphores.key, Semaphores.setSem, update_self]
        omega
      · simp only [Semaphores.setSem, update_self]
      · simp only [Semaphores.setSem, update_self] at member
        exact absurd member List.not_mem_nil
      · simp only [Semaphores.setSem, update_self]
        exact List.nodup_nil
    · refine (accounted.orderly other).other (update_of_ne different _ _)
        (update_of_ne different _ _) (update_of_ne ?_ _ _) fun _ _ => rfl
      exact fun same => different (congrArg Prod.fst same)

theorem Accounted.wait (accounted : Accounted state) {tid : Nat}
    (caller : state.caller tid = true) (id : Nat) : Accounted (semWait state tid id) := by
  unfold Semaphores.caller at caller
  simp only [Bool.and_eq_true, decide_eq_true_eq, Bool.not_eq_true', Option.isNone_iff_eq_none]
    at caller
  obtain ⟨⟨⟨⟨_, within⟩, user⟩, _⟩, free⟩ := caller
  have orderly := accounted.orderly id
  have apart : ∀ other, other ≠ id → (other, state.lives other) ≠ state.key id :=
    fun other different same => different (congrArg Prod.fst same)
  unfold semWait
  split
  · exact accounted
  split
  · exact accounted
  rename_i used
  rw [Bool.not_eq_false] at used
  split
  · rename_i positive
    refine ⟨fun other => ?_, accounted.resting, fun member => ?_, fun member => ?_⟩
    · rcases eq_or_ne other id with rfl | different
      · have balanced := orderly.balanced used
        unfold Balanced at balanced
        refine ⟨fun _ => ?_, fun idle => ?_, fun waiter member => ?_, ?_⟩
        · simp only [Balanced, Semaphores.key, Semaphores.book, Semaphores.setSem,
            update_self] at balanced ⊢
          omega
        · simp only [Semaphores.book, Semaphores.setSem, update_self] at idle ⊢
          exact orderly.unused idle
        · simp only [Semaphores.book, Semaphores.setSem, update_self] at member ⊢
          exact orderly.queue waiter member
        · simp only [Semaphores.book, Semaphores.setSem, update_self]
          exact orderly.nodup
      · exact (accounted.orderly other).other (update_of_ne different _ _) rfl
          (update_of_ne (apart other different) _ _) fun _ _ => rfl
    · exact accounted.paid (by simpa using member)
    · exact accounted.parked (by simpa using member)
  split
  · exact accounted
  · have notWaiting : ¬ state.Waiting tid := by
      rintro ⟨park, is, _⟩
      rw [free] at is
      exact absurd is (by simp)
    have others : ∀ other, other ≠ tid → update state.parks tid
        (some ⟨id, state.lives id, false⟩) other = state.parks other :=
      fun other different => update_of_ne different _ _
    refine ⟨fun other => ?_, fun waiter waits => ?_, accounted.paid, accounted.parked⟩
    · rcases eq_or_ne other id with rfl | different
      · refine ⟨fun _ => ?_, fun idle => ?_, fun waiter member => ?_, ?_⟩
        · have balanced := orderly.balanced used
          simp only [Balanced, Semaphores.key, Semaphores.setSem,
            update_self] at balanced ⊢
          exact balanced
        · simp only [Semaphores.setSem, update_self] at idle
          rw [used] at idle
          exact absurd idle (by simp)
        · simp only [Semaphores.setSem, update_self] at member ⊢
          rcases List.mem_append.mp member with before | here
          · rw [others waiter fun same => accounted.absent notWaiting other (same ▸ before)]
            exact orderly.queue waiter before
          · rw [List.mem_singleton.mp here, update_self]
        · simp only [Semaphores.setSem, update_self]
          refine List.nodup_append.mpr ⟨orderly.nodup, List.nodup_singleton tid, ?_⟩
          rintro waiter before _ here rfl
          exact accounted.absent notWaiting other (List.mem_singleton.mp here ▸ before)
      · exact (accounted.orderly other).other (update_of_ne different _ _) rfl rfl
          fun waiter member => others waiter fun same =>
            accounted.absent notWaiting other (same ▸ member)
    · show (taskSetState state.tasks tid .blocked waiter).Resting
      rcases eq_or_ne waiter tid with rfl | different
      · rw [taskSetState_blocked within user, update_self]
        exact Or.inl rfl
      · rw [taskSetState_of_ne state.tasks different]
        obtain ⟨park, is, without⟩ := waits
        exact accounted.resting waiter ⟨park, (others waiter different) ▸ is, without⟩

/-- A task that returns from a wait is not at rest, so it had a token. -/
theorem Accounted.finish (accounted : Accounted state) {tid : Nat} {park : Park}
    (is : state.parks tid = some park) (running : (state.tasks tid).onCpu = true)
    (awake : (state.tasks tid).state ≠ .blocked) : Accounted (semReturn state tid park) := by
  have handed : park.handed = true := by
    by_contra without
    rcases accounted.resting tid ⟨park, is, Bool.not_eq_true _ ▸ without⟩ with blocked | ⟨off, _⟩
    · exact awake blocked
    · rw [running] at off
      exact absurd off (by simp)
  have notWaiting : ¬ state.Waiting tid := by
    rintro ⟨other, is', without⟩
    obtain rfl := Option.some.inj (is.symm.trans is')
    rw [handed] at without
    exact absurd without (by simp)
  have others : ∀ other, other ≠ tid →
      update state.parks tid none other = state.parks other :=
    fun other different => update_of_ne different _ _
  unfold semReturn
  refine ⟨fun id => ?_, fun waiter waits => ?_, fun member => ?_, fun member => ?_⟩
  · have parks : ∀ waiter ∈ (state.sems id).waiters,
        update state.parks tid none waiter = state.parks waiter :=
      fun waiter member => others waiter fun same => accounted.absent notWaiting id (same ▸ member)
    by_cases here : (id, state.lives id) = (park.sem, park.life)
    · refine ⟨fun live => ?_, (accounted.orderly id).unused, fun waiter member => ?_,
        (accounted.orderly id).nodup⟩
      · have balanced := (accounted.orderly id).balanced live
        simp only [Balanced, Semaphores.key, Semaphores.book, here, update_self,
          handed, if_true] at balanced ⊢
        omega
      · exact (parks waiter member).trans ((accounted.orderly id).queue waiter member)
    · exact (accounted.orderly id).other rfl rfl (update_of_ne here _ _) parks
  · obtain ⟨other, is', without⟩ := waits
    replace is' : update state.parks tid none waiter = some other := is'
    have different : waiter ≠ tid := by
      rintro rfl
      rw [update_self] at is'
      exact absurd is' (by simp)
    exact accounted.resting waiter ⟨other, (others waiter different) ▸ is', without⟩
  · rcases List.mem_cons.mp member with unpaid | before
    · rw [handed] at unpaid
      exact absurd unpaid (by simp)
    · exact accounted.paid before
  · rcases List.mem_cons.mp member with unpaid | before
    · exact absurd unpaid (by simp)
    · exact accounted.parked before

/-- The task that a post wakes was waiting on this semaphore. -/
theorem Accounted.postSome (accounted : Accounted state) {id tid : Nat}
    (used : (state.sems id).inUse = true)
    (woken : (wakeOne state.tasks (fun tid => tid) (state.sems id).waiters).1 = some tid) :
    Accounted (Semaphores.hand { (state.setSem id { state.sems id with
      waiters := (wakeOne state.tasks (fun tid => tid) (state.sems id).waiters).2 }).book
        (state.key id) fun account =>
          { account with posts := account.posts + 1, handed := account.handed + 1 } with
      tasks := taskSetState state.tasks tid .ready } id tid) := by
  obtain ⟨dropped, split, _, may⟩ := wakeOne_some woken
  generalize (wakeOne state.tasks (fun tid => tid) (state.sems id).waiters).2 = rest at split
  have orderly := accounted.orderly id
  have inside : tid ∈ (state.sems id).waiters := by
    rw [split]
    exact List.mem_append_right _ List.mem_cons_self
  have park := orderly.queue tid inside
  have kept : ∀ waiter ∈ rest, waiter ∈ (state.sems id).waiters ∧ waiter ≠ tid := by
    intro waiter member
    have nodup := orderly.nodup
    rw [split] at nodup ⊢
    refine ⟨List.mem_append_right _ (List.mem_cons_of_mem _ member), ?_⟩
    rintro rfl
    exact (List.nodup_cons.mp (List.nodup_append.mp nodup).2.1).1 member
  have others : ∀ other, other ≠ tid → update state.parks tid
      (some ⟨id, state.lives id, true⟩) other = state.parks other :=
    fun other different => update_of_ne different _ _
  unfold Semaphores.hand
  simp only [Semaphores.book, Semaphores.setSem, park, and_self, if_true]
  refine ⟨fun other => ?_, fun waiter waits => ?_, fun member => ?_, fun member => ?_⟩
  · rcases eq_or_ne other id with rfl | different
    · refine ⟨fun _ => ?_, fun idle => ?_, fun waiter member => ?_, ?_⟩
      · have balanced := orderly.balanced used
        simp only [Balanced, Semaphores.key, update_self] at balanced ⊢
        omega
      · simp only [update_self] at idle
        rw [used] at idle
        exact absurd idle (by simp)
      · simp only [update_self] at member ⊢
        obtain ⟨before, apart⟩ := kept waiter member
        rw [others waiter apart]
        exact orderly.queue waiter before
      · simp only [update_self]
        have nodup := orderly.nodup
        rw [split] at nodup
        exact (List.nodup_cons.mp (List.nodup_append.mp nodup).2.1).2
    · refine (accounted.orderly other).other (update_of_ne different _ _) rfl
        (update_of_ne (fun same => different (congrArg Prod.fst same)) _ _)
        fun waiter member => others waiter ?_
      rintro rfl
      exact different (accounted.single member inside)
  · obtain ⟨held, is, without⟩ := waits
    replace is : update state.parks tid (some ⟨id, state.lives id, true⟩) waiter =
      some held := is
    have different : waiter ≠ tid := by
      rintro rfl
      rw [update_self] at is
      rw [← Option.some.inj is] at without
      exact absurd without (by simp)
    show (taskSetState state.tasks tid .ready waiter).Resting
    rw [taskSetState_of_ne state.tasks different]
    exact accounted.resting waiter ⟨held, (others waiter different) ▸ is, without⟩
  · exact accounted.paid (by simpa using member)
  · exact accounted.parked (by simpa using member)

theorem Accounted.post (accounted : Accounted state) {id : Nat}
    (undisturbing : Undisturbing state (.post id)) : Accounted (semPost state id) := by
  unfold semPost
  split
  · exact accounted
  split
  · exact accounted
  rename_i used
  rw [Bool.not_eq_false] at used
  simp only
  split
  · rename_i tid woken
    exact accounted.postSome used woken
  · rename_i nobody
    have below := undisturbing used nobody
    obtain ⟨empty, _⟩ := wakeOne_none nobody
    rw [empty, if_pos below]
    refine ⟨fun other => ?_, accounted.resting, accounted.paid, accounted.parked⟩
    rcases eq_or_ne other id with rfl | different
    · refine ⟨fun _ => ?_, fun _ => ?_, fun waiter member => ?_, ?_⟩
      · have balanced := (accounted.orderly other).balanced used
        simp only [Balanced, Semaphores.key, Semaphores.book, Semaphores.setSem,
          update_self] at balanced ⊢
        omega
      · simp only [Semaphores.book, Semaphores.setSem, update_self]
      · simp only [Semaphores.book, Semaphores.setSem, update_self] at member
        exact absurd member List.not_mem_nil
      · simp only [Semaphores.book, Semaphores.setSem, update_self]
        exact List.nodup_nil
    · exact (accounted.orderly other).other (update_of_ne different _ _) rfl
        (update_of_ne (fun same => different (congrArg Prod.fst same)) _ _) fun _ _ => rfl

/-- Waking nobody changes no task. -/
theorem foldl_wake_none {tasks : Tasks} {queue : List Nat}
    (nobody : ∀ tid ∈ queue, wakeable tasks tid = false) :
    queue.foldl (fun tasks tid =>
      if wakeable tasks tid then taskSetState tasks tid .ready else tasks) tasks = tasks := by
  induction queue with
  | nil => rfl
  | cons tid rest inductionHypothesis =>
    rw [List.foldl_cons, if_neg (by rw [nobody tid List.mem_cons_self]; simp)]
    exact inductionHypothesis fun other member => nobody other (List.mem_cons_of_mem _ member)

theorem Accounted.destroy (accounted : Accounted state) {id : Nat}
    (undisturbing : Undisturbing state (.destroy id)) : Accounted (semDestroy state id) := by
  unfold semDestroy
  split
  · exact accounted
  split
  · exact accounted
  simp only [foldl_wake_none undisturbing]
  refine ⟨fun other => ?_, accounted.resting, accounted.paid, accounted.parked⟩
  rcases eq_or_ne other id with rfl | different
  · refine ⟨fun live => ?_, fun _ => ?_, fun waiter member => ?_, ?_⟩
    · simp only [Semaphores.setSem, update_self] at live
      exact absurd live (by simp)
    · simp only [Semaphores.setSem, update_self]
    · simp only [Semaphores.setSem, update_self] at member
      exact absurd member List.not_mem_nil
    · simp only [Semaphores.setSem, update_self]
      exact List.nodup_nil
  · exact (accounted.orderly other).other (update_of_ne different _ _) rfl rfl
      fun _ _ => rfl

theorem Accounted.cleanup (accounted : Accounted state) (tid : Nat) :
    Accounted (semCleanup state tid) := by
  unfold semCleanup
  split
  · exact accounted
  · refine ⟨fun id => ?_, accounted.resting, accounted.paid, accounted.parked⟩
    have orderly := accounted.orderly id
    refine ⟨orderly.balanced, fun idle => ?_, fun waiter member => ?_, ?_⟩
    · show ((state.sems id).waiters.filter _) = []
      rw [orderly.unused idle]
      rfl
    · exact orderly.queue waiter (List.mem_of_mem_filter member)
    · exact orderly.nodup.filter _

/-- A task changes, and its park is kept or forgotten with it. -/
theorem Accounted.task (accounted : Accounted state) {step : TaskStep}
    (undisturbing : Undisturbing state (.task step))
    (taken : semStep state (.task step) = some next) : Accounted next := by
  obtain ⟨tasks, ran, same⟩ := Option.map_eq_some_iff.mp taken
  obtain ⟨task, applied, rfl⟩ := Option.map_eq_some_iff.mp ran
  have calm : step.Calm state.tasks state.Waiting state.Queued := undisturbing
  have rests : ∀ waiter, state.Waiting waiter → (∀ tid, step = .reuse tid → waiter ≠ tid) →
      (update state.tasks step.tid task waiter).Resting := by
    intro waiter waits kept
    rcases eq_or_ne waiter step.tid with rfl | different
    · rw [update_self]
      rcases (accounted.resting _ waits).apply calm waits applied with still | ⟨tid, rfl⟩
      · exact still
      · exact absurd rfl (kept tid rfl)
    · rw [update_of_ne different]
      exact accounted.resting waiter waits
  cases step with
  | reuse tid =>
    subst same
    have absent : ∀ id, tid ∉ (state.sems id).waiters := by
      intro id member
      cases used : (state.sems id).inUse with
      | true => exact calm ⟨id, used, member⟩
      | false =>
        rw [(accounted.orderly id).unused used] at member
        exact absurd member List.not_mem_nil
    refine ⟨fun id => ?_, fun waiter waits => ?_, accounted.paid, accounted.parked⟩
    · refine (accounted.orderly id).other rfl rfl rfl fun waiter member => ?_
      exact update_of_ne (fun same : waiter = tid => absent id (same ▸ member)) _ _
    · obtain ⟨park, is, without⟩ := waits
      replace is : update state.parks tid none waiter = some park := is
      have different : waiter ≠ tid := by
        rintro rfl
        rw [update_self] at is
        exact absurd is (by simp)
      refine rests waiter ⟨park, ?_, without⟩ fun other same => ?_
      · rwa [update_of_ne different] at is
      · exact (TaskStep.reuse.inj same) ▸ different
  | wake tid =>
    subst same
    exact ⟨fun id => (accounted.orderly id).other rfl rfl rfl fun _ _ => rfl,
      fun waiter waits => rests waiter waits fun _ is => absurd is (by simp), accounted.paid,
      accounted.parked⟩
  | stop tid =>
    subst same
    exact ⟨fun id => (accounted.orderly id).other rfl rfl rfl fun _ _ => rfl,
      fun waiter waits => rests waiter waits fun _ is => absurd is (by simp), accounted.paid,
      accounted.parked⟩
  | cont tid =>
    subst same
    exact ⟨fun id => (accounted.orderly id).other rfl rfl rfl fun _ _ => rfl,
      fun waiter waits => rests waiter waits fun _ is => absurd is (by simp), accounted.paid,
      accounted.parked⟩
  | kill tid =>
    subst same
    exact ⟨fun id => (accounted.orderly id).other rfl rfl rfl fun _ _ => rfl,
      fun waiter waits => rests waiter waits fun _ is => absurd is (by simp), accounted.paid,
      accounted.parked⟩
  | preempt tid =>
    subst same
    exact ⟨fun id => (accounted.orderly id).other rfl rfl rfl fun _ _ => rfl,
      fun waiter waits => rests waiter waits fun _ is => absurd is (by simp), accounted.paid,
      accounted.parked⟩
  | dispatch tid =>
    subst same
    exact ⟨fun id => (accounted.orderly id).other rfl rfl rfl fun _ _ => rfl,
      fun waiter waits => rests waiter waits fun _ is => absurd is (by simp), accounted.paid,
      accounted.parked⟩

/-! ### Runs -/

theorem Accounted.step {label : SemLabel} (accounted : Accounted state)
    (undisturbing : Undisturbing state label) (taken : semStep state label = some next) :
    Accounted next := by
  cases label with
  | create initial =>
    obtain rfl := Option.some.inj taken
    exact accounted.create initial
  | wait tid id =>
    obtain ⟨caller, same⟩ := Option.ite_none_right_eq_some.mp taken
    obtain rfl := Option.some.inj same
    exact accounted.wait caller id
  | finish tid =>
    cases is : state.parks tid with
    | none =>
      simp only [semStep, is] at taken
      exact absurd taken (by simp)
    | some park =>
      simp only [semStep, is] at taken
      obtain ⟨ready, same⟩ := Option.ite_none_right_eq_some.mp taken
      obtain rfl := Option.some.inj same
      rw [Bool.and_eq_true, decide_eq_true_iff] at ready
      exact accounted.finish is ready.1 ready.2
  | post id =>
    obtain rfl := Option.some.inj taken
    exact accounted.post undisturbing
  | destroy id =>
    obtain rfl := Option.some.inj taken
    exact accounted.destroy undisturbing
  | cleanup tid =>
    obtain rfl := Option.some.inj taken
    exact accounted.cleanup tid
  | task step => exact accounted.task undisturbing taken

theorem Semaphores.Initial.accounted (initial : state.Initial) : Accounted state := by
  obtain ⟨unused, free, none'⟩ := initial
  refine ⟨fun id => ⟨fun live => ?_, fun _ => (unused id).2, fun tid member => ?_, ?_⟩,
    fun tid waits => ?_, ?_, ?_⟩
  · rw [(unused id).1] at live
    exact absurd live (by simp)
  · rw [(unused id).2] at member
    exact absurd member List.not_mem_nil
  · rw [(unused id).2]
    exact List.nodup_nil
  · obtain ⟨park, is, _⟩ := waits
    rw [free tid] at is
    exact absurd is (by simp)
  · rw [none']
    exact List.not_mem_nil
  · rw [none']
    exact List.not_mem_nil

/-- In every run that does not disturb the waiters, tokens are conserved. -/
theorem tokens_conserved (reachable : semSystem.Reachable Undisturbing state) :
    TokensConserved state := by
  have accounted : Accounted state := reachable.invariant Accounted
    (fun _ initial => Semaphores.Initial.accounted initial)
    fun _ _ _ accounted undisturbing taken => accounted.step undisturbing taken
  refine ⟨fun id live => ?_, accounted.paid, accounted.parked⟩
  have balanced := (accounted.orderly id).balanced live
  unfold Balanced at balanced
  omega

/-- Six tasks, one of them idle, and no semaphore. -/
def sixTasks : Semaphores where
  sems _ := ⟨false, 0, []⟩
  tasks tid := ⟨if tid < 6 then .ready else .dead, decide (0 < tid ∧ tid < 6), decide (tid = 5)⟩
  parks _ := none
  lives _ := 0
  accounts _ := ⟨0, 0, 0, 0, 0⟩
  history := []

theorem sixTasks_initial : sixTasks.Initial :=
  ⟨fun _ => ⟨rfl, rfl⟩, fun _ => rfl, rfl⟩

/-- Task 1 waits, and task 2 posts. -/
theorem tokens_conserved_handed : ∃ state : Semaphores,
    (state.accounts (0, 1)).returns = 1 ∧ TokensConserved state := by
  have initial : semSystem.Reachable Undisturbing sixTasks := .init sixTasks_initial
  have created := initial.step (show Undisturbing sixTasks (.create 0) from trivial)
    (show semStep sixTasks (.create 0) = some _ from rfl)
  have waited := created.step (show Undisturbing _ (.wait 1 0) from trivial)
    (show semStep _ (.wait 1 0) = some _ from rfl)
  have posted := waited.step (show Undisturbing _ (.post 0) from fun _ nobody =>
    absurd nobody (by decide)) (show semStep _ (.post 0) = some _ from rfl)
  have finished := posted.step (show Undisturbing _ (.finish 1) from trivial)
    (show semStep _ (.finish 1) = some _ from rfl)
  exact ⟨_, by decide +kernel, tokens_conserved finished⟩

/-- A caught signal wakes a waiter: its wait returns 0 without a token, and the entry it leaves
behind takes the next token away. -/
theorem tokens_signalled : ¬ ∀ state : Semaphores, semSystem.Reachable anyStep state →
    TokensConserved state := by
  intro conserved
  have initial : semSystem.Reachable anyStep sixTasks := .init sixTasks_initial
  have run : (execute semStep sixTasks [.create 0, .wait 1 0, .task (.wake 1), .finish 1,
      .post 0]).map Semaphores.history = some [.handed false, .returned false] := by
    decide +kernel
  obtain ⟨final, ran, history⟩ := Option.map_eq_some_iff.mp run
  have kept := conserved final (reachable_execute initial ran)
  refine kept.paid ?_
  rw [history]
  exact List.mem_cons_of_mem _ List.mem_cons_self

end MectovOS.Sync
