/-
This file states the law of the descriptor tables and an invariant that carries
it, and proves that calls, pipe creations and the stretches of a failed pipe
call keep the invariant. It follows two kinds of half-finished work: a pipe call
in its cleanup, whose ends no other task can have got at, and a copy of a table,
whose entries not reached yet are masked.
-/

import MectovOS.Fd.System

namespace MectovOS.Fd

open Sched (maxTasks)
open Transition Function

/-! ### The law -/

/-- Each descriptor in use counts the entries that name it and is named, no entry names a free
one, and a pipe slot is in use exactly while one of its ends is. -/
structure Settled (tables : Tables) : Prop where
  counted : ∀ gfd, (tables.globalFds gfd).inUse = true →
    (tables.globalFds gfd).refCount = names tables gfd ∧ 0 < (tables.globalFds gfd).refCount
  named : ∀ entry gfd, tables.fdTable entry = some gfd → (tables.globalFds gfd).inUse = true
  slots : ∀ pipe, (tables.pipes pipe).inUse = true ↔
    ∃ gfd, (tables.globalFds gfd).inUse = true ∧ IsEnd (tables.globalFds gfd).type ∧
      (tables.globalFds gfd).pipeId = pipe

/-- No failed pipe call is in its cleanup and no table is being copied. -/
def Descriptors.Quiet (state : Descriptors) : Prop :=
  (∀ tid, state.cleanups tid = none) ∧ state.copying = none

theorem Consistent.settled' {tables : Tables} {spare building : Nat → Prop}
    (consistent : Consistent tables spare building) (none' : ∀ gfd, ¬ spare gfd)
    (idle : ∀ pipe, ¬ building pipe) : Settled tables where
  counted gfd live := by
    obtain ⟨count, positive⟩ := consistent.counted gfd live (none' gfd)
    rw [count]
    exact ⟨rfl, by exact_mod_cast positive⟩
  named := consistent.named
  slots pipe := by
    constructor
    · exact fun live => consistent.used pipe live (idle pipe)
    · rintro ⟨gfd, live, isEnd, rfl⟩
      exact consistent.ends gfd live isEnd

/-! ### Pipe calls in their cleanup -/

/-- The descriptors a cleanup still has to free itself. -/
def PipeCleanup.Holds (rest : PipeCleanup) (stage gfd : Nat) : Prop :=
  (stage = 0 ∧ rest.r0 = none ∧ gfd = rest.gRead) ∨ (stage ≤ 1 ∧ gfd = rest.gWrite)

/-- The spare descriptors of a state. -/
def Descriptors.Spare (state : Descriptors) (gfd : Nat) : Prop :=
  ∃ tid rest stage, state.cleanups tid = some (rest, stage) ∧ rest.Holds stage gfd

/-- The pipes being taken down. -/
def Descriptors.Building (state : Descriptors) (pipe : Nat) : Prop :=
  ∃ tid rest stage, state.cleanups tid = some (rest, stage) ∧ rest.pipe = pipe

/-- What is left of a pipe in its cleanup: its ends are those the call allocated, and the read
end is named, if at all, only by the entry the call got for it. -/
structure Cleaning (tables : Tables) (tid : Nat) (rest : PipeCleanup) (stage : Nat) : Prop where
  unmapped : rest.r1 = none
  reads : ∀ gfd, (tables.globalFds gfd).inUse = true → (tables.globalFds gfd).type = .pipeRead →
    (tables.globalFds gfd).pipeId = rest.pipe → stage = 0 ∧ (rest.r0 = none → gfd = rest.gRead) ∧
      ∀ entry, tables.fdTable entry = some gfd → ∃ fd, rest.r0 = some fd ∧ entry = (tid, fd)
  writes : ∀ gfd, (tables.globalFds gfd).inUse = true → (tables.globalFds gfd).type = .pipeWrite →
    (tables.globalFds gfd).pipeId = rest.pipe → stage ≤ 1 ∧ gfd = rest.gWrite
  read : stage = 0 → rest.r0 = none → (tables.globalFds rest.gRead).type = .pipeRead ∧
    (tables.globalFds rest.gRead).pipeId = rest.pipe
  write : stage ≤ 1 → (tables.globalFds rest.gWrite).type = .pipeWrite ∧
    (tables.globalFds rest.gWrite).pipeId = rest.pipe
  range : ∀ fd, rest.r0 = some fd → (tid, fd) ∈ entries

/-- A change after which every end in use was one before, the held descriptors are as they
were, and an end of a pipe is named only by entries that named it or are copies from free
tables. -/
structure Gentle (free : Nat → Prop) (tables next : Tables) (held : Nat → Prop) : Prop where
  ends : ∀ gfd, (next.globalFds gfd).inUse = true → IsEnd (next.globalFds gfd).type →
    (tables.globalFds gfd).inUse = true ∧
      (tables.globalFds gfd).type = (next.globalFds gfd).type ∧
      (tables.globalFds gfd).pipeId = (next.globalFds gfd).pipeId
  held : ∀ gfd, held gfd → (next.globalFds gfd).type = (tables.globalFds gfd).type ∧
    (next.globalFds gfd).pipeId = (tables.globalFds gfd).pipeId
  naming : ∀ gfd, (next.globalFds gfd).inUse = true → IsEnd (next.globalFds gfd).type →
    ∀ entry, next.fdTable entry = some gfd → tables.fdTable entry = some gfd ∨
      ∃ source : Nat × Nat, free source.1 ∧ tables.fdTable source = some gfd

variable {tables next : Tables} {spare building free : Nat → Prop}

/-- A gentle change keeps a cleanup of a task whose table is not free for copying. -/
theorem Cleaning.gentle {tid stage : Nat} {rest : PipeCleanup}
    (cleaning : Cleaning tables tid rest stage) {held : Nat → Prop}
    (gentle : Gentle free tables next held) (busy : ¬ free tid)
    (holds : ∀ gfd, rest.Holds stage gfd → held gfd) : Cleaning next tid rest stage where
  unmapped := cleaning.unmapped
  reads gfd live read same := by
    obtain ⟨live', type, pipeId⟩ := gentle.ends gfd live (Or.inl read)
    obtain ⟨stage', own, only⟩ := cleaning.reads gfd live' (type.trans read) (pipeId.trans same)
    refine ⟨stage', own, fun entry naming => ?_⟩
    rcases gentle.naming gfd live (Or.inl read) entry naming with before | ⟨source, admitted, before⟩
    · exact only entry before
    · obtain ⟨fd, _, rfl⟩ := only source before
      exact absurd admitted busy
  writes gfd live write same := by
    obtain ⟨live', type, pipeId⟩ := gentle.ends gfd live (Or.inr write)
    exact cleaning.writes gfd live' (type.trans write) (pipeId.trans same)
  read stage' unmapped' := by
    obtain ⟨type, pipeId⟩ := gentle.held rest.gRead (holds _ (Or.inl ⟨stage', unmapped', rfl⟩))
    rw [type, pipeId]
    exact cleaning.read stage' unmapped'
  write stage' := by
    obtain ⟨type, pipeId⟩ := gentle.held rest.gWrite (holds _ (Or.inr ⟨stage', rfl⟩))
    rw [type, pipeId]
    exact cleaning.write stage'
  range := cleaning.range

/-- Every move is gentle towards the spare descriptors. -/
theorem Move.gentle (consistent : Consistent tables spare building)
    (move : Move free tables next) : Gentle free tables next spare := by
  cases move with
  | agree agree =>
    refine ⟨fun gfd live isEnd => ?_, fun gfd held => ?_, fun gfd _ _ entry naming => ?_⟩
    · rw [agree.inUse] at live
      exact ⟨live, (agree.type gfd live).symm, (agree.pipeId gfd live).symm⟩
    · have live := (consistent.spared gfd held).1
      exact ⟨agree.type gfd live, agree.pipeId gfd live⟩
    · exact Or.inl (agree.table ▸ naming)
  | opened opened own =>
    rename_i opening entry
    have endsOf : ∀ gfd, IsEnd (next.globalFds gfd).type → gfd ≠ opening := by
      rintro gfd isEnd rfl
      exact opened.type isEnd
    refine ⟨fun gfd live isEnd => ?_, fun gfd held => ?_, fun gfd _ isEnd other naming => ?_⟩
    · rw [opened.others gfd (endsOf gfd isEnd)] at live ⊢
      exact ⟨live, rfl, rfl⟩
    · have different : gfd ≠ opening := by
        rintro rfl
        have live := (consistent.spared gfd held).1
        rw [opened.idle] at live
        exact absurd live (by simp)
      rw [opened.others gfd different]
      exact ⟨rfl, rfl⟩
    · rw [opened.table] at naming
      rcases eq_or_ne other entry with rfl | different
      · rw [update_self] at naming
        exact absurd (Option.some.inj naming).symm (endsOf gfd isEnd)
      · rw [update_of_ne different] at naming
        exact Or.inl naming
  | share member vacant naming own admitted =>
    rename_i shared entry source
    have shape := (sameShape_refCount tables shared ((tables.globalFds shared).refCount + 1)).trans
      (sameShape_setEntry _ entry (some shared))
    refine ⟨fun gfd live isEnd => ?_, fun gfd held => ?_, fun gfd _ _ other naming' => ?_⟩
    · rw [shape.inUse] at live
      exact ⟨live, (shape.type gfd live).symm, (shape.pipeId gfd live).symm⟩
    · have live := (consistent.spared gfd held).1
      exact ⟨shape.type gfd live, shape.pipeId gfd live⟩
    · replace naming' : update tables.fdTable entry (some shared) other = some gfd :=
        naming'
      rcases eq_or_ne other entry with rfl | different
      · rw [update_self] at naming'
        obtain rfl := Option.some.inj naming'
        exact Or.inr ⟨source, admitted, naming⟩
      · rw [update_of_ne different] at naming'
        exact Or.inl naming'
  | release naming =>
    rename_i released entry
    have free' := consistent.not_spare naming
    rcases fdReleaseGlobal_cases (tables.setEntry entry none) released with
      ⟨_, same⟩ | ⟨_, freed, _, table, others⟩
    · rw [same]
      have shape := (sameShape_setEntry tables entry none).trans
        (sameShape_refCount (tables.setEntry entry none) released
          ((tables.globalFds released).refCount - 1))
      refine ⟨fun gfd live isEnd => ?_, fun gfd held => ?_, fun gfd _ _ other naming' => ?_⟩
      · replace live := (shape.inUse gfd).symm.trans live
        exact ⟨live, (shape.type gfd live).symm, (shape.pipeId gfd live).symm⟩
      · have live := (consistent.spared gfd held).1
        exact ⟨shape.type gfd live, shape.pipeId gfd live⟩
      · exact Or.inl (fdTable_of_cleared rfl naming')
    · refine ⟨fun gfd live isEnd => ?_, fun gfd held => ?_, fun gfd _ _ other naming' => ?_⟩
      · have different : gfd ≠ released := by
          rintro rfl
          rw [freed] at live
          exact absurd live (by simp)
        rw [others gfd different] at live ⊢
        exact ⟨live, rfl, rfl⟩
      · rw [others gfd fun is => free' (is ▸ held)]
        exact ⟨rfl, rfl⟩
      · exact Or.inl (fdTable_of_cleared table naming')

/-- The cleanups of a state survive the moves of tasks that are in none. -/
theorem Cleaning.moves {tid stage : Nat} {rest : PipeCleanup}
    (consistent : Consistent tables spare building) (cleaning : Cleaning tables tid rest stage)
    (moves : Moves free tables next) (busy : ¬ free tid)
    (holds : ∀ gfd, rest.Holds stage gfd → spare gfd) : Cleaning next tid rest stage := by
  induction moves with
  | refl => exact cleaning
  | tail earlier move inductionHypothesis =>
    exact inductionHypothesis.gentle (move.gentle (consistent.moves earlier)) busy holds

/-! ### The invariant -/

/-- The tables with the entries a copy has not reached taken out. -/
def masked (tables : Tables) (copy : Copy) : Tables :=
  { tables with
    fdTable := fun entry =>
      if entry.1 = copy.child ∧ copy.nextFd ≤ entry.2 ∧ entry.2 < maxFdsPerTask then none
      else tables.fdTable entry }

/-- A copy under way: the entries reached are counted, and the ones ahead are the parent's or
empty. -/
structure Copying (state : Descriptors) (copy : Copy) : Prop where
  consistent : Consistent (masked state.tables copy) state.Spare state.Building
  apart : copy.parent ≠ copy.child
  parentReady : state.cleanups copy.parent = none
  childRange : copy.child < maxTasks
  ahead : ∀ fd, copy.nextFd ≤ fd → fd < maxFdsPerTask → state.tables.fdTable (copy.child, fd) =
    if copy.isFork then state.tables.fdTable (copy.parent, fd) else none
  loaded : ∀ gfd count, copy.loaded = some (gfd, count) → copy.nextFd < maxFdsPerTask ∧
    state.tables.fdTable (copy.parent, copy.nextFd) = some gfd ∧
      (state.tables.globalFds gfd).refCount = count

/-- What a run keeps, as long as copies run alone. -/
structure Sound (state : Descriptors) : Prop where
  tables : state.copying = none → Consistent state.tables state.Spare state.Building
  copying : ∀ copy, state.copying = some copy → Copying state copy
  cleaning : ∀ tid rest stage, state.cleanups tid = some (rest, stage) →
    Cleaning state.tables tid rest stage
  distinct : ∀ first second rest rest' stage stage', state.cleanups first = some (rest, stage) →
    state.cleanups second = some (rest', stage') → rest.pipe = rest'.pipe → first = second

theorem Descriptors.ready_iff (state : Descriptors) (tid : Nat) :
    state.ready tid = true ↔ tid < maxTasks ∧ state.cleanups tid = none := by
  unfold Descriptors.ready
  rw [Bool.and_eq_true, decide_eq_true_iff, Option.isNone_iff_eq_none]

/-! ### Calls -/

theorem Call.moves (consistent : Consistent tables spare building) {tid : Nat}
    (within : tid < maxTasks) (call : Call) (own : free tid) (admitted : free (call.target tid)) :
    Moves free tables (call.run tables tid) := by
  cases call with
  | openFile credentials node isDir mode =>
    exact moves_doSysOpen tables within own credentials node isDir mode
  | socket credentials type => exact moves_sockSocket tables within own credentials type
  | accept credentials child => exact moves_sockAccept tables within own credentials child
  | ptyAlloc credentials => exact moves_doSysPtyAlloc tables within own credentials
  | ptyOpen credentials masterLfd => exact moves_doSysPtyOpen tables within own credentials masterLfd
  | close fd => exact moves_doSysClose consistent tid fd
  | dup2 credentials target oldfd newfd =>
    exact moves_doSysDup2Tid consistent tid credentials admitted oldfd newfd
  | drop target fd => exact moves_dropFd consistent target fd

/-- The held descriptors of a cleanup are spare. -/
theorem Descriptors.spare_of_holds {state : Descriptors} {tid stage : Nat} {rest : PipeCleanup}
    (busy : state.cleanups tid = some (rest, stage)) (gfd : Nat) (holds : rest.Holds stage gfd) :
    state.Spare gfd :=
  ⟨tid, rest, stage, busy, holds⟩

/-- Moves of tasks that are in no cleanup keep the invariant. -/
theorem Sound.moves {state : Descriptors} (sound : Sound state) (alone : state.copying = none)
    (moves : Moves (fun tid => state.cleanups tid = none) state.tables next) :
    Sound { state with tables := next } where
  tables _ := (sound.tables alone).moves moves
  copying copy busy := absurd (alone.symm.trans busy) (by simp)
  cleaning tid rest stage busy := by
    have notFree : ¬ state.cleanups tid = none := by
      rw [busy]
      simp
    exact (sound.cleaning tid rest stage busy).moves (sound.tables alone) moves notFree
      (Descriptors.spare_of_holds busy)
  distinct := sound.distinct

/-! ### Creating a pipe -/

/-- A cleanup of another pipe does not notice a creation. -/
theorem Cleaning.piped {tid stage pipe gRead gWrite : Nat} {rest : PipeCleanup}
    (cleaning : Cleaning tables tid rest stage) (piped : Piped tables next pipe gRead gWrite)
    (apart : rest.pipe ≠ pipe)
    (live : ∀ gfd, rest.Holds stage gfd → (tables.globalFds gfd).inUse = true) :
    Cleaning next tid rest stage where
  unmapped := cleaning.unmapped
  reads gfd open' read same := by
    rcases piped.cases open' with rfl | rfl | ⟨_, _, kept, before⟩
    · exact absurd (same.symm.trans piped.read.2.2.2) apart
    · exact absurd (same.symm.trans piped.write.2.2.2) apart
    · rw [kept] at read same
      rw [piped.table]
      exact cleaning.reads gfd before read same
  writes gfd open' write same := by
    rcases piped.cases open' with rfl | rfl | ⟨_, _, kept, before⟩
    · exact absurd (same.symm.trans piped.read.2.2.2) apart
    · exact absurd (same.symm.trans piped.write.2.2.2) apart
    · rw [kept] at write same
      exact cleaning.writes gfd before write same
  read stage' unmapped' := by
    have old := piped.old (live rest.gRead (Or.inl ⟨stage', unmapped', rfl⟩))
    rw [piped.others _ old.1 old.2]
    exact cleaning.read stage' unmapped'
  write stage' := by
    have old := piped.old (live rest.gWrite (Or.inr ⟨stage', rfl⟩))
    rw [piped.others _ old.1 old.2]
    exact cleaning.write stage'
  range := cleaning.range

/-- A cleanup does not notice an entry for an end of another pipe. -/
theorem Cleaning.setEntry {tid stage gfd : Nat} {rest : PipeCleanup} {entry : Nat × Nat}
    (cleaning : Cleaning tables tid rest stage)
    (apart : (tables.globalFds gfd).pipeId ≠ rest.pipe) :
    Cleaning (tables.setEntry entry (some gfd)) tid rest stage where
  unmapped := cleaning.unmapped
  reads other live read same := by
    obtain ⟨stage', own, only⟩ := cleaning.reads other live read same
    refine ⟨stage', own, fun place naming => ?_⟩
    replace naming : update tables.fdTable entry (some gfd) place = some other := naming
    rcases eq_or_ne place entry with rfl | different
    · rw [update_self] at naming
      obtain rfl := Option.some.inj naming
      exact absurd same apart
    · rw [update_of_ne different] at naming
      exact only place naming
  writes := cleaning.writes
  read := cleaning.read
  write := cleaning.write
  range := cleaning.range

/-- The cleanup of a pipe that was just created. -/
theorem Piped.cleaning (consistent : Consistent tables spare building) {tid pipe gRead gWrite : Nat}
    (piped : Piped tables next pipe gRead gWrite) {r0 : Option Nat} {after : Tables}
    (globals : after.globalFds = next.globalFds)
    (naming : ∀ entry, after.fdTable entry = some gRead → ∃ fd, r0 = some fd ∧ entry = (tid, fd))
    (range : ∀ fd, r0 = some fd → (tid, fd) ∈ entries) :
    Cleaning after tid ⟨pipe, gRead, gWrite, r0, none⟩ 0 where
  unmapped := rfl
  reads gfd live read same := by
    rw [globals] at live read same
    have own : gfd = gRead := by
      rcases piped.cases live with is | rfl | ⟨_, _, kept, before⟩
      · exact is
      · rw [piped.write.2.2.1] at read
        exact absurd read (by simp)
      · rw [kept] at read same
        exact absurd same (consistent.no_end piped.idlePipe before (Or.inl read))
    refine ⟨rfl, fun _ => own, fun entry named => ?_⟩
    rw [own] at named
    exact naming entry named
  writes gfd live write same := by
    rw [globals] at live write same
    refine ⟨Nat.zero_le 1, ?_⟩
    rcases piped.cases live with rfl | is | ⟨_, _, kept, before⟩
    · rw [piped.read.2.2.1] at write
      exact absurd write (by simp)
    · exact is
    · rw [kept] at write same
      exact absurd same (consistent.no_end piped.idlePipe before (Or.inr write))
  read _ _ := by
    rw [globals]
    exact ⟨piped.read.2.2.1, piped.read.2.2.2⟩
  write _ := by
    rw [globals]
    exact ⟨piped.write.2.2.1, piped.write.2.2.2⟩
  range := range

/-- The tables after a creation whose read end is named. -/
theorem Consistent.namedRead (consistent : Consistent tables spare building)
    {pipe gRead gWrite : Nat} (piped : Piped tables next pipe gRead gWrite) {entry : Nat × Nat}
    (member : entry ∈ entries) (vacant : tables.fdTable entry = none) :
    Consistent (next.setEntry entry (some gRead)) (fun gfd => spare gfd ∨ gfd = gWrite)
      (fun other => building other ∨ other = pipe) := by
  have held : ∀ gfd, spare gfd → gfd ≠ gRead :=
    fun gfd is => (piped.old (consistent.spared gfd is).1).1
  refine (consistent.piped piped).name (Or.inr (Or.inl rfl)) member (piped.table ▸ vacant)
    (fun other => ?_) fun other => ?_
  · constructor
    · rintro (is | rfl)
      · exact ⟨Or.inl is, held other is⟩
      · exact ⟨Or.inr (Or.inr rfl), piped.apart.symm⟩
    · rintro ⟨is | is | is, different⟩
      · exact Or.inl is
      · exact absurd is different
      · exact Or.inr is
  · refine ⟨fun is => ⟨is, fun write => ?_⟩, fun is => is.1⟩
    rw [piped.read.2.2.1] at write
    exact absurd write (by simp)

/-- The tables after a creation whose two ends are named. -/
theorem Consistent.namedBoth (consistent : Consistent tables spare building)
    {pipe gRead gWrite : Nat} (piped : Piped tables next pipe gRead gWrite)
    {first second : Nat × Nat} (member : first ∈ entries) (vacant : tables.fdTable first = none)
    (member' : second ∈ entries) (vacant' : tables.fdTable second = none)
    (different : second ≠ first) :
    Consistent ((next.setEntry first (some gRead)).setEntry second (some gWrite)) spare
      building := by
  have empty : (next.setEntry first (some gRead)).fdTable second = none := by
    show update next.fdTable first (some gRead) second = none
    rw [update_of_ne different, piped.table]
    exact vacant'
  refine (consistent.namedRead piped member vacant).name (Or.inr rfl) member' empty
    (fun other => ?_) fun other => ?_
  · constructor
    · intro is
      exact ⟨Or.inl is, (piped.old (consistent.spared other is).1).2⟩
    · rintro ⟨is | is, apart⟩
      · exact is
      · exact absurd is apart
  · constructor
    · intro is
      refine ⟨Or.inl is, fun _ same => ?_⟩
      have live := (consistent.built other is).1
      rw [← same, show ((next.setEntry first (some gRead)).globalFds gWrite).pipeId = pipe from
        piped.write.2.2.2, piped.idlePipe] at live
      exact absurd live (by simp)
    · rintro ⟨is | rfl, apart⟩
      · exact is
      · exact absurd piped.write.2.2.2 (apart piped.write.2.2.1)

/-- The first stretch of `do_sys_pipe` keeps the invariant. -/
theorem Sound.pipe {state : Descriptors} (sound : Sound state) {tid : Nat}
    (ready : state.cleanups tid = none) (alone : state.copying = none)
    {result : Tables × PipeOutcome} (outcome : PipeResult state.tables tid result) :
    Sound (state.afterPipe tid result) := by
  have consistent := sound.tables alone
  have live : ∀ other rest stage, state.cleanups other = some (rest, stage) →
      ∀ gfd, rest.Holds stage gfd → (state.tables.globalFds gfd).inUse = true :=
    fun other rest stage busy gfd holds =>
      (consistent.spared gfd (Descriptors.spare_of_holds busy gfd holds)).1
  have elsewhere : ∀ other rest stage, state.cleanups other = some (rest, stage) →
      ∀ {made : Tables} {pipe gRead gWrite : Nat}, Piped state.tables made pipe gRead gWrite →
        rest.pipe ≠ pipe := by
    rintro other rest stage busy made pipe gRead gWrite piped rfl
    have used := (consistent.built rest.pipe ⟨other, rest, stage, busy, rfl⟩).1
    rw [piped.idlePipe] at used
    exact absurd used (by simp)
  have untouched : ∀ other rest stage, state.cleanups other = some (rest, stage) →
      ∀ {made : Tables} {pipe gRead gWrite : Nat}, Piped state.tables made pipe gRead gWrite →
        Cleaning made other rest stage :=
    fun other rest stage busy made pipe gRead gWrite piped =>
      (sound.cleaning other rest stage busy).piped piped (elsewhere other rest stage busy piped)
        (live other rest stage busy)
  have started : ∀ {made after : Tables} {pipe gRead gWrite : Nat} {r0 : Option Nat},
      Piped state.tables made pipe gRead gWrite →
      Consistent after (fun gfd => state.Spare gfd ∨
        PipeCleanup.Holds ⟨pipe, gRead, gWrite, r0, none⟩ 0 gfd)
        (fun other => state.Building other ∨ other = pipe) →
      (∀ other rest stage, state.cleanups other = some (rest, stage) →
        Cleaning after other rest stage) →
      Cleaning after tid ⟨pipe, gRead, gWrite, r0, none⟩ 0 →
      Sound (state.afterPipe tid (after, .cleanup ⟨pipe, gRead, gWrite, r0, none⟩)) := by
    intro made after pipe gRead gWrite r0 piped consistent' others own
    have cases' : ∀ other rest stage, update state.cleanups tid
        (some (⟨pipe, gRead, gWrite, r0, none⟩, 0)) other = some (rest, stage) →
        (other = tid ∧ rest = ⟨pipe, gRead, gWrite, r0, none⟩ ∧ stage = 0) ∨
          (other ≠ tid ∧ state.cleanups other = some (rest, stage)) := by
      intro other rest stage busy
      rcases eq_or_ne other tid with rfl | different
      · rw [update_self] at busy
        obtain ⟨rfl, rfl⟩ := Prod.mk.inj (Option.some.inj busy)
        exact Or.inl ⟨rfl, rfl, rfl⟩
      · rw [update_of_ne different] at busy
        exact Or.inr ⟨different, busy⟩
    have back : ∀ other rest stage, state.cleanups other = some (rest, stage) →
        update state.cleanups tid (some (⟨pipe, gRead, gWrite, r0, none⟩, 0)) other =
          some (rest, stage) := by
      intro other rest stage busy
      have different : other ≠ tid := by
        rintro rfl
        rw [ready] at busy
        exact absurd busy (by simp)
      rw [update_of_ne different]
      exact busy
    refine ⟨fun _ => ?_, fun copy busy => absurd (alone.symm.trans busy) (by simp),
      fun other rest stage busy => ?_, fun first second rest rest' stage stage' busy busy' same => ?_⟩
    · have spares : (state.afterPipe tid (after, .cleanup ⟨pipe, gRead, gWrite, r0, none⟩)).Spare =
          fun gfd => state.Spare gfd ∨ PipeCleanup.Holds ⟨pipe, gRead, gWrite, r0, none⟩ 0 gfd := by
        funext gfd
        refine propext ⟨?_, ?_⟩
        · rintro ⟨other, rest, stage, busy, holds⟩
          rcases cases' other rest stage busy with ⟨_, rfl, rfl⟩ | ⟨_, busy⟩
          · exact Or.inr holds
          · exact Or.inl ⟨other, rest, stage, busy, holds⟩
        · rintro (⟨other, rest, stage, busy, holds⟩ | holds)
          · exact ⟨other, rest, stage, back other rest stage busy, holds⟩
          · exact ⟨tid, _, 0, update_self _ _ _, holds⟩
      have buildings : (state.afterPipe tid (after, .cleanup ⟨pipe, gRead, gWrite, r0,
          none⟩)).Building = fun other => state.Building other ∨ other = pipe := by
        funext value
        refine propext ⟨?_, ?_⟩
        · rintro ⟨other, rest, stage, busy, of⟩
          rcases cases' other rest stage busy with ⟨_, rfl, rfl⟩ | ⟨_, busy⟩
          · exact Or.inr of.symm
          · exact Or.inl ⟨other, rest, stage, busy, of⟩
        · rintro (⟨other, rest, stage, busy, of⟩ | rfl)
          · exact ⟨other, rest, stage, back other rest stage busy, of⟩
          · exact ⟨tid, _, 0, update_self _ _ _, rfl⟩
      rw [spares, buildings]
      exact consistent'
    · rcases cases' other rest stage busy with ⟨rfl, rfl, rfl⟩ | ⟨_, busy⟩
      · exact own
      · exact others other rest stage busy
    · rcases cases' first rest stage busy with ⟨rfl, rfl, rfl⟩ | ⟨_, before⟩ <;>
        rcases cases' second rest' stage' busy' with ⟨rfl, rfl, rfl⟩ | ⟨_, before'⟩
      · rfl
      · exact absurd same.symm (elsewhere second rest' stage' before' piped)
      · exact absurd same (elsewhere first rest stage before piped)
      · exact sound.distinct first second rest rest' stage stage' before before' same
  cases outcome with
  | failed agree => exact sound.moves alone (Move.agree agree).moves
  | opened piped member vacant member' vacant' different =>
    rename_i made pipe gRead gWrite r0 r1
    have entriesApart : ((tid, r1) : Nat × Nat) ≠ (tid, r0) :=
      fun same => different (congrArg Prod.snd same).symm
    refine ⟨fun _ => consistent.namedBoth piped member vacant member' vacant' entriesApart,
      fun copy busy => absurd (alone.symm.trans busy) (by simp), fun other rest stage busy => ?_,
      sound.distinct⟩
    have apart := elsewhere other rest stage busy piped
    refine ((untouched other rest stage busy piped).setEntry ?_).setEntry ?_
    · rw [piped.read.2.2.2]
      exact apart.symm
    · show (made.globalFds gWrite).pipeId ≠ rest.pipe
      rw [piped.write.2.2.2]
      exact apart.symm
  | half piped member vacant =>
    rename_i made pipe gRead gWrite r0
    refine started piped ?_ (fun other rest stage busy => ?_) (piped.cleaning consistent rfl
      (fun entry naming => ?_) fun fd same => ?_)
    · have holds : (fun gfd => state.Spare gfd ∨
          PipeCleanup.Holds ⟨pipe, gRead, gWrite, some r0, none⟩ 0 gfd) =
          fun gfd => state.Spare gfd ∨ gfd = gWrite := by
        funext gfd
        simp [PipeCleanup.Holds]
      rw [holds]
      exact consistent.namedRead piped member vacant
    · refine (untouched other rest stage busy piped).setEntry ?_
      rw [piped.read.2.2.2]
      exact (elsewhere other rest stage busy piped).symm
    · replace naming : update made.fdTable (tid, r0) (some gRead) entry = some gRead :=
        naming
      rcases eq_or_ne entry (tid, r0) with rfl | different
      · exact ⟨r0, rfl, rfl⟩
      · rw [update_of_ne different, piped.table] at naming
        exact absurd naming (consistent.names_idle piped.idleRead entry)
    · obtain rfl := Option.some.inj same
      exact member
  | none piped =>
    rename_i made pipe gRead gWrite
    refine started piped ?_ (fun other rest stage busy => untouched other rest stage busy piped)
      (piped.cleaning consistent rfl (fun entry naming => ?_) fun fd same => absurd same (by simp))
    · have holds : (fun gfd => state.Spare gfd ∨
          PipeCleanup.Holds ⟨pipe, gRead, gWrite, .none, .none⟩ 0 gfd) =
          fun gfd => state.Spare gfd ∨ gfd = gRead ∨ gfd = gWrite := by
        funext gfd
        simp [PipeCleanup.Holds]
      rw [holds]
      exact consistent.piped piped
    · rw [piped.table] at naming
      exact absurd naming (consistent.names_idle piped.idleRead entry)

/-! ### Giving a pipe back -/

/-- A change that keeps descriptors and entries keeps a cleanup. -/
theorem Cleaning.of_eq {tid stage : Nat} {rest : PipeCleanup}
    (cleaning : Cleaning tables tid rest stage) (globals : next.globalFds = tables.globalFds)
    (table : next.fdTable = tables.fdTable) : Cleaning next tid rest stage where
  unmapped := cleaning.unmapped
  reads := by
    rw [globals, table]
    exact cleaning.reads
  writes := by
    rw [globals]
    exact cleaning.writes
  read := by
    rw [globals]
    exact cleaning.read
  write := by
    rw [globals]
    exact cleaning.write
  range := cleaning.range

/-- A cleanup does not notice that a descriptor it does not hold is freed. -/
theorem Cleaning.freeGlobal {tid stage gfd : Nat} {rest : PipeCleanup}
    (cleaning : Cleaning tables tid rest stage) (apart : ¬ rest.Holds stage gfd) :
    Cleaning (tables.freeGlobal gfd) tid rest stage := by
  have others : ∀ other, other ≠ gfd →
      (tables.freeGlobal gfd).globalFds other = tables.globalFds other :=
    fun other different => setGlobal_of_ne tables different _
  have kept : ∀ other, ((tables.freeGlobal gfd).globalFds other).inUse = true → other ≠ gfd := by
    rintro other live rfl
    have freed : ((tables.setGlobal other
        { tables.globalFds other with inUse := false }).globalFds other).inUse = true := live
    rw [setGlobal_self] at freed
    exact absurd freed (by simp)
  refine ⟨cleaning.unmapped, fun other live read same => ?_, fun other live write same => ?_,
    fun stage' unmapped' => ?_, fun stage' => ?_, cleaning.range⟩
  · have different := kept other live
    rw [others other different] at live read same
    exact cleaning.reads other live read same
  · have different := kept other live
    rw [others other different] at live write same
    exact cleaning.writes other live write same
  · rw [others _ fun is => apart (Or.inl ⟨stage', unmapped', is.symm⟩)]
    exact cleaning.read stage' unmapped'
  · rw [others _ fun is => apart (Or.inr ⟨stage', is.symm⟩)]
    exact cleaning.write stage'

/-- A descriptor belongs to at most one cleanup. -/
theorem Sound.holder {state : Descriptors} (sound : Sound state) {first second : Nat}
    {rest rest' : PipeCleanup} {stage stage' gfd : Nat}
    (busy : state.cleanups first = some (rest, stage))
    (busy' : state.cleanups second = some (rest', stage')) (holds : rest.Holds stage gfd)
    (holds' : rest'.Holds stage' gfd) : first = second := by
  have own : ∀ tid (rest : PipeCleanup) stage, state.cleanups tid = some (rest, stage) →
      rest.Holds stage gfd → (state.tables.globalFds gfd).pipeId = rest.pipe := by
    intro tid rest stage busy holds
    have cleaning := sound.cleaning tid rest stage busy
    rcases holds with ⟨start, unmapped, rfl⟩ | ⟨early, rfl⟩
    · exact (cleaning.read start unmapped).2
    · exact (cleaning.write early).2
  exact sound.distinct first second rest rest' stage stage' busy busy'
    ((own first rest stage busy holds).symm.trans (own second rest' stage' busy' holds'))

/-- The other cleanups when one of them goes on to its next stretch. -/
theorem cleanups_advance {cleanups : Nat → Option (PipeCleanup × Nat)} {tid : Nat}
    {rest : PipeCleanup} {after : Option (PipeCleanup × Nat)}
    (sameRest : ∀ rest' stage, after = some (rest', stage) → rest' = rest)
    {other : Nat} {rest' : PipeCleanup} {stage : Nat}
    (busy : update cleanups tid after other = some (rest', stage)) :
    (other = tid ∧ rest' = rest ∧ after = some (rest', stage)) ∨
      (other ≠ tid ∧ cleanups other = some (rest', stage)) := by
  rcases eq_or_ne other tid with rfl | different
  · rw [update_self] at busy
    exact Or.inl ⟨rfl, sameRest rest' stage busy, busy⟩
  · rw [update_of_ne different] at busy
    exact Or.inr ⟨different, busy⟩

/-- The spare descriptors, one cleanup taken apart. -/
theorem Descriptors.spare_iff {state : Descriptors} {tid stage : Nat} {rest : PipeCleanup}
    (busy : state.cleanups tid = some (rest, stage)) (gfd : Nat) :
    state.Spare gfd ↔ (∃ other rest' stage', other ≠ tid ∧
      state.cleanups other = some (rest', stage') ∧ rest'.Holds stage' gfd) ∨
        rest.Holds stage gfd := by
  constructor
  · rintro ⟨holder, rest', stage', busy', holds⟩
    rcases eq_or_ne holder tid with rfl | notOwn
    · obtain ⟨rfl, rfl⟩ := Prod.mk.inj (Option.some.inj (busy.symm.trans busy'))
      exact Or.inr holds
    · exact Or.inl ⟨holder, rest', stage', notOwn, busy', holds⟩
  · rintro (⟨holder, rest', stage', _, busy', holds⟩ | holds)
    · exact ⟨holder, rest', stage', busy', holds⟩
    · exact ⟨tid, rest, stage, busy, holds⟩

/-- The pipes being taken down, one cleanup taken apart. -/
theorem Descriptors.building_iff {state : Descriptors} {tid stage : Nat} {rest : PipeCleanup}
    (busy : state.cleanups tid = some (rest, stage)) (pipe : Nat) :
    state.Building pipe ↔ (∃ other rest' stage', other ≠ tid ∧
      state.cleanups other = some (rest', stage') ∧ rest'.pipe = pipe) ∨ rest.pipe = pipe := by
  constructor
  · rintro ⟨holder, rest', stage', busy', of⟩
    rcases eq_or_ne holder tid with rfl | notOwn
    · obtain ⟨rfl, rfl⟩ := Prod.mk.inj (Option.some.inj (busy.symm.trans busy'))
      exact Or.inr of
    · exact Or.inl ⟨holder, rest', stage', notOwn, busy', of⟩
  · rintro (⟨holder, rest', stage', _, busy', of⟩ | of)
    · exact ⟨holder, rest', stage', busy', of⟩
    · exact ⟨tid, rest, stage, busy, of⟩

/-- A stretch of a cleanup keeps the invariant when it keeps the tables consistent with what is
then held, and every cleanup with them. -/
theorem Sound.advance {state : Descriptors} (sound : Sound state) (alone : state.copying = none)
    {tid stage : Nat} {rest : PipeCleanup} (busy : state.cleanups tid = some (rest, stage))
    {after : Option (PipeCleanup × Nat)}
    (sameRest : ∀ rest' stage, after = some (rest', stage) → rest' = rest)
    {spare' building' : Nat → Prop} (consistent : Consistent next spare' building')
    (spares : ∀ gfd, spare' gfd ↔ (∃ other rest' stage', other ≠ tid ∧
      state.cleanups other = some (rest', stage') ∧ rest'.Holds stage' gfd) ∨
      ∃ stage', after = some (rest, stage') ∧ rest.Holds stage' gfd)
    (buildings : ∀ pipe, building' pipe ↔ (∃ other rest' stage', other ≠ tid ∧
      state.cleanups other = some (rest', stage') ∧ rest'.pipe = pipe) ∨
      (after ≠ none ∧ rest.pipe = pipe))
    (others : ∀ other rest' stage', other ≠ tid → state.cleanups other = some (rest', stage') →
      Cleaning next other rest' stage')
    (own : ∀ stage', after = some (rest, stage') → Cleaning next tid rest stage') :
    Sound { state with tables := next, cleanups := update state.cleanups tid after } := by
  refine ⟨fun _ => ?_, fun copy busy' => absurd (alone.symm.trans busy') (by simp),
    fun other rest' stage' busy' => ?_, fun first second rest' rest'' stage' stage'' busy' busy''
      same => ?_⟩
  · have sameSpare : Descriptors.Spare { state with
        tables := next, cleanups := update state.cleanups tid after } = spare' := by
      funext gfd
      refine propext ⟨?_, fun held => ?_⟩
      · rintro ⟨other, rest', stage', busy', holds⟩
        rw [spares]
        rcases cleanups_advance sameRest busy' with ⟨rfl, rfl, same⟩ | ⟨different, before⟩
        · exact Or.inr ⟨stage', same, holds⟩
        · exact Or.inl ⟨other, rest', stage', different, before, holds⟩
      · rcases (spares gfd).mp held with ⟨other, rest', stage', different, before, holds⟩ |
          ⟨stage', same, holds⟩
        · exact ⟨other, rest', stage', (update_of_ne different _ _).trans before, holds⟩
        · exact ⟨tid, rest, stage', (update_self _ _ _).trans same, holds⟩
    have sameBuilding : Descriptors.Building { state with
        tables := next, cleanups := update state.cleanups tid after } = building' := by
      funext pipe
      refine propext ⟨?_, fun pending => ?_⟩
      · rintro ⟨other, rest', stage', busy', of⟩
        rw [buildings]
        rcases cleanups_advance sameRest busy' with ⟨rfl, rfl, same⟩ | ⟨different, before⟩
        · exact Or.inr ⟨by rw [same]; simp, of⟩
        · exact Or.inl ⟨other, rest', stage', different, before, of⟩
      · rcases (buildings pipe).mp pending with ⟨other, rest', stage', different, before, of⟩ |
          ⟨some', of⟩
        · exact ⟨other, rest', stage', (update_of_ne different _ _).trans before, of⟩
        · obtain ⟨⟨rest', stage'⟩, same⟩ := Option.ne_none_iff_exists'.mp some'
          obtain rfl := sameRest rest' stage' same
          exact ⟨tid, rest', stage', (update_self _ _ _).trans same, of⟩
    rw [sameSpare, sameBuilding]
    exact consistent
  · rcases cleanups_advance sameRest busy' with ⟨rfl, rfl, same⟩ | ⟨different, before⟩
    · exact own stage' same
    · exact others other rest' stage' different before
  · have before : ∀ {other : Nat} {rest' : PipeCleanup} {stage' : Nat},
        update state.cleanups tid after other = some (rest', stage') →
        ∃ earlier, state.cleanups other = some (rest', earlier) := by
      intro other rest' stage' busy'
      rcases cleanups_advance sameRest busy' with ⟨rfl, rfl, _⟩ | ⟨_, before⟩
      · exact ⟨stage, busy⟩
      · exact ⟨stage', before⟩
    obtain ⟨earlier, first'⟩ := before busy'
    obtain ⟨earlier', second'⟩ := before busy''
    exact sound.distinct first second rest' rest'' earlier earlier' first' second' same

theorem freeGlobal_ne {gfd other : Nat}
    (live : ((tables.freeGlobal gfd).globalFds other).inUse = true) : other ≠ gfd := by
  rintro rfl
  have freed : ((tables.setGlobal other
      { tables.globalFds other with inUse := false }).globalFds other).inUse = true := live
  rw [setGlobal_self] at freed
  exact absurd freed (by simp)

/-- A stretch that frees a descriptor the cleanup holds keeps the invariant. -/
theorem Sound.giveBack {state : Descriptors} (sound : Sound state) (alone : state.copying = none)
    {tid stage gfd : Nat} {rest : PipeCleanup} (busy : state.cleanups tid = some (rest, stage))
    (holds : rest.Holds stage gfd)
    (less : ∀ other, rest.Holds (stage + 1) other ↔ rest.Holds stage other ∧ other ≠ gfd)
    (own : Cleaning (state.tables.freeGlobal gfd) tid rest (stage + 1)) :
    Sound { state with
      tables := state.tables.freeGlobal gfd
      cleanups := update state.cleanups tid (some (rest, stage + 1)) } := by
  have consistent := sound.tables alone
  have apart : ∀ other rest' stage', other ≠ tid → state.cleanups other = some (rest', stage') →
      ¬ rest'.Holds stage' gfd :=
    fun other rest' stage' different busy' holds' => different (sound.holder busy' busy holds' holds)
  have pending : state.Building (state.tables.globalFds gfd).pipeId := by
    have cleaning := sound.cleaning tid rest stage busy
    refine ⟨tid, rest, stage, busy, ?_⟩
    rcases holds with ⟨start, unmapped, rfl⟩ | ⟨early, rfl⟩
    · exact (cleaning.read start unmapped).2.symm
    · exact (cleaning.write early).2.symm
  have sameRest : ∀ rest' stage', some (rest, stage + 1) = some (rest', stage') → rest' = rest := by
    intro rest' stage' same
    exact (Prod.mk.inj (Option.some.inj same)).1.symm
  have given : Consistent (state.tables.freeGlobal gfd)
      (fun other => state.Spare other ∧ other ≠ gfd) state.Building :=
    consistent.giveBack (Descriptors.spare_of_holds busy gfd holds) pending fun _ => Iff.rfl
  refine sound.advance alone busy sameRest given (fun other => ?_) (fun pipe => ?_)
    (fun other rest' stage' different busy' => (sound.cleaning other rest' stage' busy').freeGlobal
      (apart other rest' stage' different busy')) fun stage' same => ?_
  · rw [Descriptors.spare_iff busy]
    constructor
    · rintro ⟨elsewhere | holds', different⟩
      · exact Or.inl elsewhere
      · exact Or.inr ⟨stage + 1, rfl, (less other).mpr ⟨holds', different⟩⟩
    · rintro (⟨holder, rest', stage', notOwn, busy', holds'⟩ | ⟨stage', same, holds'⟩)
      · refine ⟨Or.inl ⟨holder, rest', stage', notOwn, busy', holds'⟩, ?_⟩
        rintro rfl
        exact apart holder rest' stage' notOwn busy' holds'
      · obtain ⟨_, rfl⟩ := Prod.mk.inj (Option.some.inj same)
        obtain ⟨before, different⟩ := (less other).mp holds'
        exact ⟨Or.inr before, different⟩
  · rw [Descriptors.building_iff busy]
    simp
  · obtain ⟨_, rfl⟩ := Prod.mk.inj (Option.some.inj same)
    exact own

/-- A close clears its entry. -/
theorem doSysClose_clears (consistent : Consistent tables spare building) {tid fd : Nat}
    (member : (tid, fd) ∈ entries) : (doSysClose tables tid fd).1.fdTable (tid, fd) = none := by
  obtain ⟨within, range⟩ := mem_entries.mp member
  have place : entryOf tid (fd : Int) = some (tid, fd) := by
    have inside : ¬ ((fd : Int) < 0 ∨ (maxFdsPerTask : Int) ≤ fd) := by
      simp only at range
      omega
    rw [entryOf_of_range within inside, Int.toNat_natCast]
  unfold doSysClose
  cases found : taskGetFd tables tid fd with
  | none =>
    unfold taskGetFd at found
    rw [place] at found
    exact found
  | some gfd =>
    obtain ⟨entry, _, naming⟩ := taskGetFd_some found
    simp only
    rw [if_pos (consistent.named entry gfd naming)]
    show (fdReleaseGlobal (taskSetFd tables tid fd none) gfd).fdTable (tid, fd) = none
    rw [fdReleaseGlobal_table]
    unfold taskSetFd
    rw [place]
    exact update_self _ _ _

/-- Once the mapped read end of a failed pipe call is closed, no read end is left. -/
theorem Sound.closeRead {state : Descriptors} (sound : Sound state) (alone : state.copying = none)
    {tid fd : Nat} {rest : PipeCleanup} (busy : state.cleanups tid = some (rest, 0))
    (mapped : rest.r0 = some fd) :
    Sound { state with
      tables := (doSysClose state.tables tid fd).1
      cleanups := update state.cleanups tid (some (rest, 1)) } := by
  have consistent := sound.tables alone
  have moves : Moves (fun _ => False) state.tables (doSysClose state.tables tid fd).1 :=
    moves_doSysClose consistent tid fd
  have kept : ∀ other rest' stage', state.cleanups other = some (rest', stage') →
      Cleaning (doSysClose state.tables tid fd).1 other rest' stage' :=
    fun other rest' stage' busy' => (sound.cleaning other rest' stage' busy').moves consistent moves
      id (Descriptors.spare_of_holds busy')
  have own := kept tid rest 0 busy
  have same : ∀ gfd, rest.Holds 1 gfd ↔ rest.Holds 0 gfd := by
    intro gfd
    simp [PipeCleanup.Holds, mapped]
  have sameRest : ∀ rest' stage', some (rest, 1) = some (rest', stage') → rest' = rest := by
    intro rest' stage' equal
    exact (Prod.mk.inj (Option.some.inj equal)).1.symm
  have noRead : ∀ gfd, ((doSysClose state.tables tid fd).1.globalFds gfd).inUse = true →
      ((doSysClose state.tables tid fd).1.globalFds gfd).type = .pipeRead →
      ((doSysClose state.tables tid fd).1.globalFds gfd).pipeId ≠ rest.pipe := by
    intro gfd live read of
    have after := consistent.moves moves
    have unheld : ¬ state.Spare gfd := by
      rintro ⟨other, rest', stage', busy', holds⟩
      have there := kept other rest' stage' busy'
      rcases holds with ⟨start, unmapped, rfl⟩ | ⟨early, rfl⟩
      · have is := sound.distinct other tid rest' rest stage' 0 busy' busy
          ((there.read start unmapped).2.symm.trans of)
        rw [is, busy] at busy'
        obtain ⟨rfl, _⟩ := Prod.mk.inj (Option.some.inj busy')
        rw [mapped] at unmapped
        exact absurd unmapped (by simp)
      · rw [(there.write early).1] at read
        exact absurd read (by simp)
    obtain ⟨_, positive⟩ := after.counted gfd live unheld
    unfold names at positive
    obtain ⟨entry, _, naming⟩ := Naming.exists_of_card_pos positive
    obtain ⟨fd', mapped', rfl⟩ := (own.reads gfd live read of).2.2 entry naming
    rw [mapped] at mapped'
    obtain rfl := Option.some.inj mapped'
    rw [doSysClose_clears consistent (own.range fd mapped)] at naming
    exact absurd naming (by simp)
  refine sound.advance alone busy sameRest (consistent.moves moves) (fun gfd => ?_) (fun pipe => ?_)
    (fun other rest' stage' _ busy' => kept other rest' stage' busy') fun stage' equal => ?_
  · rw [Descriptors.spare_iff busy]
    refine or_congr Iff.rfl ⟨fun holds => ⟨1, rfl, (same gfd).mpr holds⟩, ?_⟩
    rintro ⟨stage', equal, holds⟩
    obtain ⟨_, rfl⟩ := Prod.mk.inj (Option.some.inj equal)
    exact (same gfd).mp holds
  · rw [Descriptors.building_iff busy]
    simp
  · obtain ⟨_, rfl⟩ := Prod.mk.inj (Option.some.inj equal)
    exact ⟨own.unmapped, fun gfd live read of => absurd of (noRead gfd live read),
      fun gfd live write of => ⟨Nat.le_refl 1, (own.writes gfd live write of).2⟩,
      fun start => absurd start (by simp), fun _ => own.write (Nat.zero_le 1), own.range⟩

/-- The last stretch of a cleanup frees the slot of the pipe. -/
theorem Sound.freeSlot {state : Descriptors} (sound : Sound state) (alone : state.copying = none)
    {tid stage : Nat} {rest : PipeCleanup} (busy : state.cleanups tid = some (rest, stage + 2)) :
    Sound { state with
      tables := state.tables.freePipe rest.pipe
      cleanups := update state.cleanups tid none } := by
  have consistent := sound.tables alone
  have cleaning := sound.cleaning tid rest (stage + 2) busy
  have endless : ∀ gfd, (state.tables.globalFds gfd).inUse = true →
      IsEnd (state.tables.globalFds gfd).type →
      (state.tables.globalFds gfd).pipeId ≠ rest.pipe := by
    rintro gfd live (read | write) of
    · exact absurd (cleaning.reads gfd live read of).1 (by simp)
    · exact absurd (cleaning.writes gfd live write of).1 (by simp)
  have nothing : ∀ gfd, ¬ rest.Holds (stage + 2) gfd := by
    rintro gfd (⟨start, _⟩ | ⟨early, _⟩)
    · exact absurd start (by simp)
    · omega
  refine sound.advance alone busy (fun rest' stage' equal => absurd equal (by simp))
    (consistent.freePipe endless fun _ => Iff.rfl) (fun gfd => ?_) (fun pipe => ?_)
    (fun other rest' stage' _ busy' => (sound.cleaning other rest' stage' busy').of_eq rfl rfl)
    fun stage' equal => absurd equal (by simp)
  · rw [Descriptors.spare_iff busy]
    simp [nothing gfd]
  · rw [Descriptors.building_iff busy]
    constructor
    · rintro ⟨elsewhere | of, different⟩
      · exact Or.inl elsewhere
      · exact absurd of.symm different
    · rintro (⟨holder, rest', stage', notOwn, busy', of⟩ | ⟨some', _⟩)
      · refine ⟨Or.inl ⟨holder, rest', stage', notOwn, busy', of⟩, fun is => notOwn ?_⟩
        exact sound.distinct holder tid rest' rest stage' (stage + 2) busy' busy (of.trans is)
      · exact absurd rfl some'

/-- Every stretch of a cleanup keeps the invariant. -/
theorem Sound.cleanup {state : Descriptors} (sound : Sound state) (alone : state.copying = none)
    {tid stage : Nat} {rest : PipeCleanup} (busy : state.cleanups tid = some (rest, stage)) :
    Sound (state.afterCleanup tid rest stage) := by
  have cleaning := sound.cleaning tid rest stage busy
  match stage with
  | 0 =>
    have write := cleaning.write (Nat.zero_le 1)
    cases mapped : rest.r0 with
    | some fd =>
      have closed := sound.closeRead alone busy mapped
      unfold Descriptors.afterCleanup
      rw [mapped]
      exact closed
    | none =>
      have read := cleaning.read rfl mapped
      have apart : rest.gRead ≠ rest.gWrite := by
        intro same
        rw [same, write.1] at read
        exact absurd read.1 (by simp)
      unfold Descriptors.afterCleanup
      rw [mapped]
      refine sound.giveBack alone busy (Or.inl ⟨rfl, mapped, rfl⟩) (fun other => ?_) ?_
      · simp only [PipeCleanup.Holds, mapped]
        constructor
        · rintro (⟨start, _⟩ | ⟨_, rfl⟩)
          · exact absurd start (by simp)
          · exact ⟨Or.inr ⟨by omega, rfl⟩, apart.symm⟩
        · rintro ⟨⟨_, _, is⟩ | ⟨_, is⟩, different⟩
          · exact absurd is different
          · exact Or.inr ⟨by omega, is⟩
      · have others : ∀ other, other ≠ rest.gRead →
            (state.tables.freeGlobal rest.gRead).globalFds other = state.tables.globalFds other :=
          fun other different => setGlobal_of_ne state.tables different _
        refine ⟨cleaning.unmapped, fun gfd live read' of => ?_, fun gfd live write' of => ?_,
          fun start => absurd start (by simp), fun _ => ?_, cleaning.range⟩
        · have different := freeGlobal_ne live
          rw [others gfd different] at live read' of
          exact absurd ((cleaning.reads gfd live read' of).2.1 mapped) different
        · have different := freeGlobal_ne live
          rw [others gfd different] at live write' of
          exact ⟨Nat.le_refl 1, (cleaning.writes gfd live write' of).2⟩
        · rw [others rest.gWrite apart.symm]
          exact write
  | 1 =>
    unfold Descriptors.afterCleanup
    rw [cleaning.unmapped]
    refine sound.giveBack alone busy (Or.inr ⟨Nat.le_refl 1, rfl⟩) (fun other => ?_) ?_
    · simp only [PipeCleanup.Holds]
      constructor
      · rintro (⟨start, _⟩ | ⟨early, _⟩)
        · exact absurd start (by simp)
        · omega
      · rintro ⟨⟨start, _⟩ | ⟨_, is⟩, different⟩
        · exact absurd start (by simp)
        · exact absurd is different
    · have others : ∀ other, other ≠ rest.gWrite →
          (state.tables.freeGlobal rest.gWrite).globalFds other = state.tables.globalFds other :=
        fun other different => setGlobal_of_ne state.tables different _
      refine ⟨cleaning.unmapped, fun gfd live read of => ?_, fun gfd live write of => ?_,
        fun start => absurd start (by simp), fun early => absurd early (by omega), cleaning.range⟩
      · have different := freeGlobal_ne live
        rw [others gfd different] at live read of
        exact absurd (cleaning.reads gfd live read of).1 (by simp)
      · have different := freeGlobal_ne live
        rw [others gfd different] at live write of
        exact absurd (cleaning.writes gfd live write of).2 different
  | stage + 2 => exact sound.freeSlot alone busy

end MectovOS.Fd
