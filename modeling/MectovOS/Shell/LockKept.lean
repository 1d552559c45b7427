/-
This file proves that the shell lock keeps one task inside in every run in which one
task blocks at a time, and shows two tasks that block in turn.
-/

import MectovOS.Shell.Lock

namespace MectovOS.Shell

open Sched (maxTasks maxCpus)
open Transition

variable {task other : Task} {lock : ShellLock} {caller : Caller} {shells : Shells}

/-! ### Keys -/

theorem lockKey_nonneg (core : Fin maxCpus) (task : Task) : 0 ≤ lockKey core task := by
  unfold lockKey
  omega

theorem lockKey_injective {core otherCore : Fin maxCpus}
    (same : lockKey core task = lockKey otherCore other) : task = other := by
  have inside : task.val < 64 := task.isLt
  have otherInside : other.val < 64 := other.isLt
  unfold lockKey at same
  exact Fin.ext (by omega)

/-! ### What a task knows of the lock -/

/-- Does a task hold the lock? -/
def Caller.holds (caller : Caller) : Prop :=
  match caller.pc with
  | .running | .acquireTest | .blockTest | .blockKey => 0 < caller.nesting
  | .acquireSpin | .parked | .reacquireTest | .reacquireClear | .reacquireSpin => False
  | _ => True

/-- What the holder knows of the owner and the depth. -/
def Owned (key : Int) (lock : ShellLock) (caller : Caller) : Prop :=
  match caller.pc with
  | .acquireOwner | .reacquireOwner => lock.owner = -1
  | .blockFlag | .blockUnlock => lock.owner = -1
  | .releaseUnlock => lock.owner = -1 ∧ caller.nesting = 1
  | .acquireDepth | .reacquireDepth | .blockDepth | .blockOwner => lock.owner = key
  | .releaseDepth | .releaseOwner => lock.owner = key ∧ caller.nesting = 1
  | _ => lock.owner = key ∧ lock.depth = caller.nesting ∧ 0 < caller.nesting

/-- What a task that blocks knows of the saved depth and the mark. -/
def Saved (lock : ShellLock) (caller : Caller) : Prop :=
  match caller.pc with
  | .blockTest | .blockKey => caller.nesting = 0 → lock.blockReleased = false
  | .blockDepth | .blockOwner | .blockFlag | .reacquireClear | .reacquireSpin | .reacquireOwner
  | .reacquireDepth => lock.savedDepth = caller.nesting ∧ 0 < caller.nesting
  | .blockUnlock =>
    lock.savedDepth = caller.nesting ∧ 0 < caller.nesting ∧ lock.blockReleased = true
  | .parked | .reacquireTest =>
    (caller.nesting = 0 → lock.blockReleased = false) ∧
      (0 < caller.nesting → lock.savedDepth = caller.nesting ∧ lock.blockReleased = true)
  | .acquireSpin | .acquireOwner | .acquireDepth => caller.nesting = 0
  | _ => True

/-- The variables are as a task expects them. -/
structure Settled (task : Task) (lock : ShellLock) (caller : Caller) : Prop where
  holder : lock.holder = some task ↔ caller.holds
  owned : caller.holds → Owned (lockKey caller.core task) lock caller
  saved : Saved lock caller

theorem Owned.owner {key : Int} (owned : Owned key lock caller) :
    lock.owner = -1 ∨ lock.owner = key := by
  unfold Owned at owned
  split at owned
  · exact Or.inl owned
  · exact Or.inl owned
  · exact Or.inl owned
  · exact Or.inl owned
  · exact Or.inl owned.1
  · exact Or.inr owned
  · exact Or.inr owned
  · exact Or.inr owned
  · exact Or.inr owned
  · exact Or.inr owned.1
  · exact Or.inr owned.1
  · exact Or.inr owned.1

/-- What an access leaves alone for the other tasks. -/
structure Frame (task : Task) (lock next : ShellLock) (blocks : Bool) : Prop where
  others : ∀ other, other ≠ task → (next.holder = some other ↔ lock.holder = some other)
  holder : ∀ other, other ≠ task → lock.holder = some other →
    next.owner = lock.owner ∧ next.depth = lock.depth
  saved : blocks = true ∨
    next.savedDepth = lock.savedDepth ∧ next.blockReleased = lock.blockReleased
  free : next.holder = none → next.owner = -1

/-! ### One access -/

/-- A task that has nothing to release is parked without a mark. -/
theorem parks_outside {nesting : Nat} (core : Fin maxCpus) (interrupts : Bool)
    (outside : ¬ 0 < nesting) (unheld : lock.holder ≠ some task)
    (unmarked : nesting = 0 → lock.blockReleased = false) :
    Settled task lock ⟨.parked, nesting, core, interrupts⟩ :=
  ⟨⟨unheld, False.elim⟩, False.elim, unmarked, fun inside => absurd inside outside⟩

/-- An access leaves the variables as its task expects them. -/
theorem access_settled (settled : Settled task lock caller)
    (free : lock.holder = none → lock.owner = -1)
    (keyed : lock.owner = lockKey caller.core task → lock.holder = some task) :
    Settled task (access task lock caller).1 (access task lock caller).2 := by
  obtain ⟨holder, owned, saved⟩ := settled
  obtain ⟨pc, nesting, core, interrupts⟩ := caller
  cases pc with
  | running => exact ⟨holder, owned, saved⟩
  | parked => exact ⟨holder, owned, saved⟩
  | acquireTest =>
    rw [access]
    dsimp only
    split
    · next mine =>
      obtain ⟨is, depth, inside⟩ := owned (holder.mp (keyed mine))
      exact ⟨⟨fun _ => Nat.succ_pos _, fun _ => keyed mine⟩,
        fun _ => ⟨is, congrArg (· + 1) depth, Nat.succ_pos _⟩, trivial⟩
    · next foreign =>
      have outside : nesting = 0 := by
        by_contra inside
        exact foreign (owned (Nat.pos_of_ne_zero inside)).1
      refine ⟨⟨fun held => ?_, False.elim⟩, False.elim, outside⟩
      exact absurd (holder.mp held) (outside ▸ Nat.lt_irrefl 0)
  | acquireSpin =>
    rw [access]
    dsimp only
    split
    · next unheld => exact ⟨⟨fun _ => trivial, fun _ => rfl⟩, fun _ => free unheld, saved⟩
    · exact ⟨holder, owned, saved⟩
  | acquireOwner => exact ⟨holder, fun _ => rfl, saved⟩
  | acquireDepth =>
    have outside : nesting = 0 := saved
    refine ⟨⟨fun _ => Nat.succ_pos _, fun _ => holder.mpr trivial⟩,
      fun _ => ⟨owned trivial, ?_, Nat.succ_pos _⟩, trivial⟩
    show 1 = nesting + 1
    rw [outside]
  | releaseTest =>
    obtain ⟨is, depth, inside⟩ := owned trivial
    have held := holder.mpr trivial
    dsimp only at depth inside
    rw [access]
    dsimp only
    split
    · next nested =>
      rw [depth] at nested
      have rest : 0 < nesting - 1 := Nat.sub_pos_of_lt nested
      exact ⟨⟨fun _ => rest, fun _ => held⟩,
        fun _ => ⟨is, congrArg (· - 1) depth, rest⟩, trivial⟩
    · next last =>
      rw [depth] at last
      exact ⟨⟨fun _ => trivial, fun _ => held⟩,
        fun _ => ⟨is, Nat.le_antisymm (not_lt.mp last) inside⟩, trivial⟩
  | releaseDepth => exact ⟨holder, owned, trivial⟩
  | releaseOwner => exact ⟨holder, fun _ => ⟨rfl, (owned trivial).2⟩, trivial⟩
  | releaseUnlock =>
    have last : nesting = 1 := (owned trivial).2
    have outside : ¬ 0 < nesting - 1 := by
      rw [last]
      exact Nat.lt_irrefl 0
    exact ⟨⟨fun held => absurd held (Option.some_ne_none task).symm, fun inside => absurd inside outside⟩,
      fun inside => absurd inside outside, trivial⟩
  | blockTest =>
    rw [access]
    dsimp only
    split
    · next unowned =>
      have outside : ¬ 0 < nesting := by
        intro inside
        have is : lock.owner = lockKey core task := (owned inside).1
        rw [is] at unowned
        exact absurd unowned (not_lt.mpr (lockKey_nonneg core task))
      exact parks_outside core interrupts outside (fun held => outside (holder.mp held)) saved
    · exact ⟨holder, owned, saved⟩
  | blockKey =>
    rw [access]
    dsimp only
    split
    · next foreign =>
      have outside : ¬ 0 < nesting := fun inside => foreign (owned inside).1
      exact parks_outside core interrupts outside (fun held => outside (holder.mp held)) saved
    · next mine =>
      have held := keyed (not_not.mp mine)
      exact ⟨⟨fun _ => trivial, fun _ => held⟩, fun _ => owned (holder.mp held), trivial⟩
  | blockSave =>
    obtain ⟨is, depth, inside⟩ := owned trivial
    exact ⟨holder, fun _ => is, depth, inside⟩
  | blockDepth => exact ⟨holder, owned, saved⟩
  | blockOwner => exact ⟨holder, fun _ => rfl, saved⟩
  | blockFlag => exact ⟨holder, owned, saved.1, saved.2, rfl⟩
  | blockUnlock =>
    obtain ⟨depth, inside, marked⟩ := saved
    refine ⟨⟨fun held => absurd held (Option.some_ne_none task).symm, False.elim⟩, False.elim,
      fun outside => ?_, fun _ => ⟨depth, marked⟩⟩
    exact absurd outside inside.ne'
  | reacquireTest =>
    obtain ⟨unmarked, marked⟩ := saved
    rw [access]
    dsimp only
    split
    · next clear =>
      have outside : ¬ 0 < nesting := by
        intro inside
        exact absurd (clear.symm.trans (marked inside).2) Bool.false_ne_true
      exact ⟨⟨fun held => (holder.mp held).elim, fun inside => absurd inside outside⟩,
        fun inside => absurd inside outside, trivial⟩
    · next set =>
      have inside : 0 < nesting := Nat.pos_of_ne_zero fun outside => set (unmarked outside)
      exact ⟨holder, False.elim, (marked inside).1, inside⟩
  | reacquireClear => exact ⟨holder, False.elim, saved⟩
  | reacquireSpin =>
    rw [access]
    dsimp only
    split
    · next unheld => exact ⟨⟨fun _ => trivial, fun _ => rfl⟩, fun _ => free unheld, saved⟩
    · exact ⟨holder, owned, saved⟩
  | reacquireOwner => exact ⟨holder, fun _ => rfl, saved⟩
  | reacquireDepth =>
    obtain ⟨depth, inside⟩ := saved
    refine ⟨holder, fun _ => ⟨owned trivial, ?_, inside⟩, trivial⟩
    show (if 0 < lock.savedDepth then lock.savedDepth else 1) = nesting
    rw [depth]
    exact if_pos inside
  | reacquireSaved =>
    obtain ⟨is, depth, inside⟩ := owned trivial
    exact ⟨⟨fun _ => inside, fun _ => holder.mpr trivial⟩, fun _ => ⟨is, depth, inside⟩, trivial⟩

/-- A task that writes the owner and the depth holds the lock. -/
theorem Frame.of_holder {next : ShellLock} {blocks : Bool} (held : lock.holder = some task)
    (same : next.holder = some task)
    (saved : blocks = true ∨
      next.savedDepth = lock.savedDepth ∧ next.blockReleased = lock.blockReleased) :
    Frame task lock next blocks where
  others other distinct := by rw [same, held]
  holder other distinct holds := absurd (Option.some.inj (holds.symm.trans held)) distinct
  saved := saved
  free unheld := absurd (unheld.symm.trans same) (Option.some_ne_none task).symm

theorem Frame.refl (free : lock.holder = none → lock.owner = -1) (blocks : Bool) :
    Frame task lock lock blocks :=
  ⟨fun _ _ => Iff.rfl, fun _ _ _ => ⟨rfl, rfl⟩, Or.inr ⟨rfl, rfl⟩, free⟩

/-- A task that takes the lock takes it from nobody. -/
theorem Frame.of_free {next : ShellLock} {blocks : Bool} (unheld : lock.holder = none)
    (same : next.holder = some task)
    (saved : blocks = true ∨
      next.savedDepth = lock.savedDepth ∧ next.blockReleased = lock.blockReleased) :
    Frame task lock next blocks where
  others other distinct := by
    rw [same, unheld]
    exact ⟨fun is => absurd (Option.some.inj is).symm distinct,
      fun is => absurd is (Option.some_ne_none other).symm⟩
  holder other distinct holds := absurd (unheld.symm.trans holds) (Option.some_ne_none other).symm
  saved := saved
  free empty := absurd (empty.symm.trans same) (Option.some_ne_none task).symm

/-- A task that frees the lock holds it, and has cleared the owner. -/
theorem Frame.of_holder_free {next : ShellLock} {blocks : Bool} (held : lock.holder = some task)
    (unheld : next.holder = none) (cleared : next.owner = -1)
    (saved : blocks = true ∨
      next.savedDepth = lock.savedDepth ∧ next.blockReleased = lock.blockReleased) :
    Frame task lock next blocks where
  others other distinct := by
    rw [unheld, held]
    exact ⟨fun is => absurd is (Option.some_ne_none other).symm,
      fun is => absurd (Option.some.inj is).symm distinct⟩
  holder other distinct holds := absurd (Option.some.inj (holds.symm.trans held)) distinct
  saved := saved
  free _ := cleared

/-- An access leaves the rest alone. -/
theorem access_frame (settled : Settled task lock caller)
    (free : lock.holder = none → lock.owner = -1)
    (keyed : lock.owner = lockKey caller.core task → lock.holder = some task) :
    Frame task lock (access task lock caller).1 caller.pc.blocking := by
  obtain ⟨holder, owned, saved⟩ := settled
  obtain ⟨pc, nesting, core, interrupts⟩ := caller
  cases pc with
  | running => exact .refl free _
  | parked => exact .refl free _
  | acquireTest =>
    rw [access]
    dsimp only
    split
    · next mine => exact .of_holder (keyed mine) (keyed mine) (Or.inr ⟨rfl, rfl⟩)
    · exact .refl free _
  | acquireSpin =>
    rw [access]
    dsimp only
    split
    · next unheld => exact .of_free unheld rfl (Or.inr ⟨rfl, rfl⟩)
    · exact .refl free _
  | acquireOwner => exact .of_holder (holder.mpr trivial) (holder.mpr trivial) (Or.inr ⟨rfl, rfl⟩)
  | acquireDepth => exact .of_holder (holder.mpr trivial) (holder.mpr trivial) (Or.inr ⟨rfl, rfl⟩)
  | releaseTest =>
    rw [access]
    dsimp only
    split
    · exact .of_holder (holder.mpr trivial) (holder.mpr trivial) (Or.inr ⟨rfl, rfl⟩)
    · exact .refl free _
  | releaseDepth => exact .of_holder (holder.mpr trivial) (holder.mpr trivial) (Or.inr ⟨rfl, rfl⟩)
  | releaseOwner => exact .of_holder (holder.mpr trivial) (holder.mpr trivial) (Or.inr ⟨rfl, rfl⟩)
  | releaseUnlock =>
    exact .of_holder_free (holder.mpr trivial) rfl (owned trivial).1 (Or.inr ⟨rfl, rfl⟩)
  | blockTest =>
    rw [access]
    dsimp only
    split
    · exact .refl free _
    · exact .refl free _
  | blockKey =>
    rw [access]
    dsimp only
    split
    · exact .refl free _
    · exact .refl free _
  | blockSave => exact .of_holder (holder.mpr trivial) (holder.mpr trivial) (Or.inl rfl)
  | blockDepth => exact .of_holder (holder.mpr trivial) (holder.mpr trivial) (Or.inl rfl)
  | blockOwner => exact .of_holder (holder.mpr trivial) (holder.mpr trivial) (Or.inl rfl)
  | blockFlag => exact .of_holder (holder.mpr trivial) (holder.mpr trivial) (Or.inl rfl)
  | blockUnlock => exact .of_holder_free (holder.mpr trivial) rfl (owned trivial) (Or.inl rfl)
  | reacquireTest =>
    rw [access]
    dsimp only
    split
    · exact .refl free _
    · exact .refl free _
  | reacquireClear => exact ⟨fun _ _ => Iff.rfl, fun _ _ _ => ⟨rfl, rfl⟩, Or.inl rfl, free⟩
  | reacquireSpin =>
    rw [access]
    dsimp only
    split
    · next unheld => exact .of_free unheld rfl (Or.inl rfl)
    · exact .refl free _
  | reacquireOwner => exact .of_holder (holder.mpr trivial) (holder.mpr trivial) (Or.inl rfl)
  | reacquireDepth => exact .of_holder (holder.mpr trivial) (holder.mpr trivial) (Or.inl rfl)
  | reacquireSaved => exact .of_holder (holder.mpr trivial) (holder.mpr trivial) (Or.inl rfl)

/-- An access starts no blocking. -/
theorem access_blocking (blocks : (access task lock caller).2.pc.blocking = true) :
    caller.pc.blocking = true := by
  obtain ⟨pc, nesting, core, interrupts⟩ := caller
  cases pc <;> try rfl
  all_goals
    exfalso
    revert blocks
    rw [access]
    dsimp only
  case running => exact Bool.false_ne_true
  case acquireOwner => exact Bool.false_ne_true
  case acquireDepth => exact Bool.false_ne_true
  case releaseDepth => exact Bool.false_ne_true
  case releaseOwner => exact Bool.false_ne_true
  case releaseUnlock => exact Bool.false_ne_true
  all_goals
    split
    · exact Bool.false_ne_true
    · exact Bool.false_ne_true

/-! ### All tasks -/

/-- Every task finds the variables as it expects them, and one task blocks. -/
structure ShellInv (shells : Shells) : Prop where
  settled : ∀ task, Settled task shells.lock (shells.callers task)
  free : shells.lock.holder = none → shells.lock.owner = -1
  one : ∀ first second, (shells.callers first).pc.blocking = true →
    (shells.callers second).pc.blocking = true → first = second

/-- The owner is the key of the holder. -/
theorem ShellInv.keyed (inv : ShellInv shells)
    (is : shells.lock.owner = lockKey (shells.callers task).core task) :
    shells.lock.holder = some task := by
  have owned : shells.lock.owner ≠ -1 := by
    have := lockKey_nonneg (shells.callers task).core task
    omega
  cases held : shells.lock.holder with
  | none => exact absurd (inv.free held) owned
  | some other =>
    have settled := inv.settled other
    have key := (settled.owned (settled.holder.mp held)).owner.resolve_left owned
    rw [lockKey_injective (key.symm.trans is)]

theorem Owned.of_same {next : ShellLock} {key : Int} (owned : Owned key lock caller)
    (owner : next.owner = lock.owner) (depth : next.depth = lock.depth) :
    Owned key next caller := by
  unfold Owned at owned ⊢
  rw [owner, depth]
  exact owned

theorem Saved.of_same {next : ShellLock} (saved : Saved lock caller)
    (same : caller.pc.blocking = false ∨
      next.savedDepth = lock.savedDepth ∧ next.blockReleased = lock.blockReleased) :
    Saved next caller := by
  obtain ⟨pc, nesting, core, interrupts⟩ := caller
  rcases same with idle | ⟨depth, mark⟩
  · cases pc <;> first | exact saved | exact Bool.noConfusion idle
  · unfold Saved at saved ⊢
    rw [depth, mark]
    exact saved

/-- What one task does within its frame keeps the invariant. -/
theorem ShellInv.turn (inv : ShellInv shells) {next : ShellLock}
    (frame : Frame task shells.lock next (shells.callers task).pc.blocking)
    (settled : Settled task next caller)
    (blocks : caller.pc.blocking = true → (shells.callers task).pc.blocking = true ∨
      ∀ other, other ≠ task → (shells.callers other).pc.blocking = false) :
    ShellInv (shells.turn task next caller) := by
  have self : (shells.turn task next caller).callers task = caller := Function.update_self ..
  have same {other : Task} (distinct : other ≠ task) :
      (shells.turn task next caller).callers other = shells.callers other :=
    Function.update_of_ne distinct ..
  have alone {other : Task} (distinct : other ≠ task) (mine : caller.pc.blocking = true)
      (yours : (shells.callers other).pc.blocking = true) : False := by
    rcases blocks mine with before | none
    · exact distinct (inv.one other task yours before)
    · exact absurd ((none other distinct).symm.trans yours) Bool.false_ne_true
  refine ⟨fun other => ?_, frame.free, fun first second one two => ?_⟩
  · by_cases distinct : other = task
    · rw [distinct, self]
      exact settled
    · rw [same distinct]
      obtain ⟨holder, owned, saved⟩ := inv.settled other
      refine ⟨(frame.others other distinct).trans holder, fun holds => ?_, saved.of_same ?_⟩
      · obtain ⟨owner, depth⟩ := frame.holder other distinct (holder.mpr holds)
        exact (owned holds).of_same owner depth
      · rcases frame.saved with mine | same
        · refine Or.inl (Bool.eq_false_of_not_eq_true fun yours => ?_)
          exact distinct (inv.one other task yours mine)
        · exact Or.inr same
  · by_cases firstMine : first = task
    · by_cases secondMine : second = task
      · exact firstMine.trans secondMine.symm
      · rw [firstMine, self] at one
        rw [same secondMine] at two
        exact (alone secondMine one two).elim
    · rw [same firstMine] at one
      by_cases secondMine : second = task
      · rw [secondMine, self] at two
        exact (alone firstMine two one).elim
      · rw [same secondMine] at two
        exact inv.one first second one two

/-- What a task finds when it calls one of the functions. -/
theorem Settled.acquire (settled : Settled task lock caller) (is : caller.pc = .running) :
    Settled task lock { caller with pc := .acquireTest } := by
  obtain ⟨pc, nesting, core, interrupts⟩ := caller
  obtain rfl : pc = .running := is
  exact ⟨settled.holder, settled.owned, trivial⟩

theorem Settled.release (settled : Settled task lock caller) (is : caller.pc = .running)
    (inside : 0 < caller.nesting) : Settled task lock { caller with pc := .releaseTest } := by
  obtain ⟨pc, nesting, core, interrupts⟩ := caller
  obtain rfl : pc = .running := is
  exact ⟨settled.holder.trans ⟨fun _ => trivial, fun _ => inside⟩,
    fun _ => settled.owned inside, trivial⟩

theorem Settled.releaseForBlock (settled : Settled task lock caller) (is : caller.pc = .running)
    (unmarked : caller.nesting = 0 → lock.blockReleased = false) :
    Settled task lock { caller with pc := .blockTest } := by
  obtain ⟨pc, nesting, core, interrupts⟩ := caller
  obtain rfl : pc = .running := is
  exact ⟨settled.holder, settled.owned, unmarked⟩

theorem Settled.reacquire (settled : Settled task lock caller) (is : caller.pc = .parked) :
    Settled task lock { caller with pc := .reacquireTest } := by
  obtain ⟨pc, nesting, core, interrupts⟩ := caller
  obtain rfl : pc = .parked := is
  exact ⟨settled.holder, settled.owned, settled.saved⟩

/-- A task that is blocked or outside may go to another core. -/
theorem Settled.move (settled : Settled task lock caller)
    (is : caller.pc = .parked ∨ (caller.pc = .running ∧ caller.nesting = 0))
    (core : Fin maxCpus) : Settled task lock { caller with core := core } := by
  obtain ⟨pc, nesting, old, interrupts⟩ := caller
  rcases is with parked | ⟨running, outside⟩
  · obtain rfl : pc = .parked := parked
    exact ⟨settled.holder, False.elim, settled.saved⟩
  · obtain rfl : pc = .running := running
    have none : ¬ 0 < nesting := Nat.not_lt.mpr (Nat.le_of_eq outside)
    exact ⟨settled.holder, fun inside => absurd inside none, settled.saved⟩

theorem Settled.kill (settled : Settled task lock caller) (is : caller.pc = .parked) :
    Settled task lock { caller with pc := .running, nesting := 0 } := by
  obtain ⟨pc, nesting, core, interrupts⟩ := caller
  obtain rfl : pc = .parked := is
  have none : ¬ 0 < 0 := Nat.lt_irrefl 0
  exact ⟨⟨fun held => (settled.holder.mp held).elim, fun inside => absurd inside none⟩,
    fun inside => absurd inside none, trivial⟩

theorem oneBlocks_iff : oneBlocks shells (.releaseForBlock task) = true ↔
    (∀ other, other ≠ task → (shells.callers other).pc.blocking = false) ∧
      ((shells.callers task).nesting = 0 → shells.lock.blockReleased = false) := by
  rw [oneBlocks, Bool.and_eq_true, decide_eq_true_iff, Bool.or_eq_true, decide_eq_true_iff,
    Bool.not_eq_true', Nat.pos_iff_ne_zero, ← imp_iff_not_or]

/-- A step under the guard keeps the invariant. -/
theorem ShellInv.on (inv : ShellInv shells) {event : ShellEvent}
    (blocksAlone : oneBlocks shells event = true) {next : Shells} (step : shells.on event = some next) :
    ShellInv next := by
  cases event with
  | acquire task =>
    obtain ⟨running, step⟩ := Option.ite_none_right_eq_some.mp step
    obtain rfl := Option.some.inj step
    exact inv.turn (.refl inv.free _) ((inv.settled task).acquire running) Bool.noConfusion
  | release task =>
    obtain ⟨⟨running, inside⟩, step⟩ := Option.ite_none_right_eq_some.mp step
    obtain rfl := Option.some.inj step
    exact inv.turn (.refl inv.free _) ((inv.settled task).release running inside) Bool.noConfusion
  | releaseForBlock task =>
    obtain ⟨running, step⟩ := Option.ite_none_right_eq_some.mp step
    obtain rfl := Option.some.inj step
    obtain ⟨alone, unmarked⟩ := oneBlocks_iff.mp blocksAlone
    exact inv.turn (.refl inv.free _) ((inv.settled task).releaseForBlock running unmarked)
      fun _ => Or.inr alone
  | reacquire task =>
    obtain ⟨parked, step⟩ := Option.ite_none_right_eq_some.mp step
    obtain rfl := Option.some.inj step
    refine inv.turn (.refl inv.free _) ((inv.settled task).reacquire parked) fun _ => Or.inl ?_
    rw [parked]
    rfl
  | access task =>
    obtain rfl := Option.some.inj step
    have settled := inv.settled task
    exact inv.turn (access_frame settled inv.free inv.keyed)
      (access_settled settled inv.free inv.keyed) fun blocks => Or.inl (access_blocking blocks)
  | move task core =>
    obtain ⟨still, step⟩ := Option.ite_none_right_eq_some.mp step
    obtain rfl := Option.some.inj step
    exact inv.turn (.refl inv.free _) ((inv.settled task).move still core) Or.inl
  | kill task =>
    obtain ⟨parked, step⟩ := Option.ite_none_right_eq_some.mp step
    obtain rfl := Option.some.inj step
    exact inv.turn (.refl inv.free _) ((inv.settled task).kill parked) Bool.noConfusion

theorem ShellInv.initial (initial : shells.Initial) : ShellInv shells := by
  obtain ⟨unheld, unowned, -, -, -, fresh⟩ := initial
  refine ⟨fun task => ?_, fun _ => unowned, fun first second one => ?_⟩
  · obtain ⟨running, outside⟩ := fresh task
    generalize shells.callers task = caller at running outside
    obtain ⟨pc, nesting, core, interrupts⟩ := caller
    obtain rfl : pc = .running := running
    have none : ¬ 0 < nesting := Nat.not_lt.mpr (Nat.le_of_eq outside)
    refine ⟨⟨fun held => ?_, fun inside => absurd inside none⟩,
      fun inside => absurd inside none, trivial⟩
    exact absurd (unheld.symm.trans held) (Option.some_ne_none task).symm
  · rw [(fresh first).1] at one
    exact Bool.noConfusion one

/-! ### The law -/

theorem ShellInv.exclusive (inv : ShellInv shells) : Exclusive shells := by
  have holds (task : Task) (inside : shells.Inside task) :
      shells.lock.holder = some task ∧
        shells.lock.depth = (shells.callers task).nesting := by
    obtain ⟨running, nested⟩ := inside
    obtain ⟨holder, owned, -⟩ := inv.settled task
    have held : (shells.callers task).holds := by
      unfold Caller.holds
      rw [running]
      exact nested
    have known := owned held
    unfold Owned at known
    rw [running] at known
    exact ⟨holder.mpr held, known.2.1⟩
  refine ⟨fun first second one two => ?_, holds, fun task frees => ?_⟩
  · exact Option.some.inj ((holds first one).1.symm.trans (holds second two).1)
  · refine (inv.settled task).holder.mpr ?_
    unfold Caller.holds
    rcases frees with is | is
    · rw [is]
      exact trivial
    · rw [is]
      exact trivial

/-- One task at a time runs shell code in every run in which one task blocks at a time. -/
theorem shell_exclusive
    (reachable : shellSystem.Reachable (fun shells event => oneBlocks shells event) shells) :
    Exclusive shells := by
  refine ShellInv.exclusive (reachable.invariant ShellInv ?_ ?_)
  · exact fun _ => ShellInv.initial
  · exact fun state event next inv blocksAlone step => inv.on blocksAlone step

/-! ### Two terminals -/

def oneTerminal : Task := ⟨1, by decide⟩
def otherTerminal : Task := ⟨2, by decide⟩
def bootCore : Fin maxCpus := ⟨0, by decide⟩
def otherCore : Fin maxCpus := ⟨1, by decide⟩

/-- No task has called anything, and all are on one core. -/
def quiet : Shells := ⟨⟨none, true, -1, 0, 0, false⟩, fun _ => ⟨.running, 0, bootCore, true⟩⟩

theorem quiet_initial : quiet.Initial := ⟨rfl, rfl, rfl, rfl, rfl, fun _ => ⟨rfl, rfl⟩⟩

/-- A call with the accesses that it takes on a free lock. -/
def acquires (task : Task) : List ShellEvent :=
  .acquire task :: List.replicate 4 (.access task)
def nests (task : Task) : List ShellEvent := [.acquire task, .access task]
def releases (task : Task) : List ShellEvent := .release task :: List.replicate 4 (.access task)
def blocks (task : Task) : List ShellEvent :=
  .releaseForBlock task :: List.replicate 7 (.access task)
def reacquires (task : Task) : List ShellEvent :=
  .reacquire task :: List.replicate 6 (.access task)

/-- A task blocks inside two acquires, another one runs its command, and the first wakes on another
core. -/
def wakesElsewhere : List ShellEvent :=
  acquires oneTerminal ++ nests oneTerminal ++ blocks oneTerminal ++ acquires otherTerminal ++
    releases otherTerminal ++ [.move oneTerminal otherCore] ++ reacquires oneTerminal

theorem wakesElsewhere_runs :
    ((executeGuarded oneBlocks Shells.on quiet wakesElsewhere).map fun shells =>
      (decide ((shells.callers oneTerminal).pc = .running), (shells.callers oneTerminal).nesting,
        shells.lock.depth)) = some (true, 2, 2) := by
  decide +kernel

theorem shell_exclusive_wakes : ∃ shells, shells.Inside oneTerminal ∧ shells.lock.depth = 2 ∧
    Exclusive shells := by
  cases ran : executeGuarded oneBlocks Shells.on quiet wakesElsewhere with
  | none =>
    have runs := wakesElsewhere_runs
    rw [ran] at runs
    cases runs
  | some shells =>
    have runs := wakesElsewhere_runs
    rw [ran, Option.map_some, Option.some.injEq, Prod.mk.injEq, Prod.mk.injEq,
      decide_eq_true_iff] at runs
    obtain ⟨running, nested, depth⟩ := runs
    exact ⟨shells, ⟨running, nested ▸ Nat.zero_lt_two⟩, depth,
      shell_exclusive (reachable_executeGuarded (.init quiet_initial) ran)⟩

/-- Two tasks block in turn, and both come back. -/
def overlaps : List ShellEvent :=
  acquires oneTerminal ++ blocks oneTerminal ++ acquires otherTerminal ++ blocks otherTerminal ++
    reacquires oneTerminal ++ reacquires otherTerminal

theorem overlaps_runs :
    ((execute Shells.on quiet overlaps).map fun shells =>
      (decide ((shells.callers oneTerminal).pc = .running), (shells.callers oneTerminal).nesting,
        decide ((shells.callers otherTerminal).pc = .running),
        (shells.callers otherTerminal).nesting)) = some (true, 1, true, 1) := by
  decide +kernel

/-- Both tasks are inside. -/
theorem overlaps_both : ¬ ∀ shells, shellSystem.Reachable anyStep shells → Exclusive shells := by
  intro exclusive
  cases ran : execute Shells.on quiet overlaps with
  | none =>
    have runs := overlaps_runs
    rw [ran] at runs
    cases runs
  | some shells =>
    have runs := overlaps_runs
    rw [ran, Option.map_some, Option.some.injEq, Prod.mk.injEq, Prod.mk.injEq, Prod.mk.injEq,
      decide_eq_true_iff, decide_eq_true_iff] at runs
    obtain ⟨firstRuns, firstNested, secondRuns, secondNested⟩ := runs
    have both := (exclusive shells (reachable_execute (.init quiet_initial) ran)).one oneTerminal
      otherTerminal
      ⟨firstRuns, firstNested ▸ Nat.one_pos⟩ ⟨secondRuns, secondNested ▸ Nat.one_pos⟩
    exact absurd both (by decide)

end MectovOS.Shell
