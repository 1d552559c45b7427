/-
This file proves what `do_sys_pipe` does to the tables. It takes a pipe slot and
two descriptors that nothing names yet; then it names both, or it gives back,
one stretch after the other, what it took. Between those stretches the
descriptors without an entry are spare and the pipe is being taken down.
-/

import MectovOS.Fd.Stretches

namespace MectovOS.Fd

open Function

open Sched (maxTasks)

variable {tables next : Tables} {spare spare' building building' : Nat → Prop}

/-! ### Taking a pipe and its two ends -/

/-- A free pipe slot and two free descriptors become a pipe with two ends nobody names. -/
structure Piped (tables next : Tables) (pipe gRead gWrite : Nat) : Prop where
  idlePipe : (tables.pipes pipe).inUse = false
  idleRead : (tables.globalFds gRead).inUse = false
  idleWrite : (tables.globalFds gWrite).inUse = false
  apart : gRead ≠ gWrite
  boundedRead : gRead < maxGlobalFds
  boundedWrite : gWrite < maxGlobalFds
  slot : (next.pipes pipe).inUse = true ∧ (next.pipes pipe).closedWrite = false
  pipes : ∀ other, other ≠ pipe → next.pipes other = tables.pipes other
  read : (next.globalFds gRead).inUse = true ∧ (next.globalFds gRead).refCount = 1 ∧
    (next.globalFds gRead).type = .pipeRead ∧ (next.globalFds gRead).pipeId = pipe
  write : (next.globalFds gWrite).inUse = true ∧ (next.globalFds gWrite).refCount = 1 ∧
    (next.globalFds gWrite).type = .pipeWrite ∧ (next.globalFds gWrite).pipeId = pipe
  others : ∀ other, other ≠ gRead → other ≠ gWrite →
    next.globalFds other = tables.globalFds other
  table : next.fdTable = tables.fdTable

/-- A descriptor in use after the creation is one of the two ends, or was in use before. -/
theorem Piped.cases {pipe gRead gWrite gfd : Nat} (piped : Piped tables next pipe gRead gWrite)
    (live : (next.globalFds gfd).inUse = true) :
    gfd = gRead ∨ gfd = gWrite ∨ (gfd ≠ gRead ∧ gfd ≠ gWrite ∧
      next.globalFds gfd = tables.globalFds gfd ∧ (tables.globalFds gfd).inUse = true) := by
  rcases eq_or_ne gfd gRead with read | notRead
  · exact Or.inl read
  rcases eq_or_ne gfd gWrite with write | notWrite
  · exact Or.inr (Or.inl write)
  have same := piped.others gfd notRead notWrite
  rw [same] at live
  exact Or.inr (Or.inr ⟨notRead, notWrite, same, live⟩)

theorem Piped.old {pipe gRead gWrite gfd : Nat} (piped : Piped tables next pipe gRead gWrite)
    (live : (tables.globalFds gfd).inUse = true) : gfd ≠ gRead ∧ gfd ≠ gWrite := by
  constructor
  · rintro rfl
    rw [piped.idleRead] at live
    exact absurd live (by simp)
  · rintro rfl
    rw [piped.idleWrite] at live
    exact absurd live (by simp)

/-- No end in use before the creation belongs to the new pipe. -/
theorem Consistent.no_end (consistent : Consistent tables spare building) {gfd pipe : Nat}
    (idle : (tables.pipes pipe).inUse = false) (live : (tables.globalFds gfd).inUse = true)
    (isEnd : IsEnd (tables.globalFds gfd).type) : (tables.globalFds gfd).pipeId ≠ pipe := by
  rintro rfl
  rw [consistent.ends gfd live isEnd] at idle
  exact absurd idle (by simp)

/-- Creating a pipe keeps the tables consistent, with both ends spare and the pipe building. -/
theorem Consistent.piped (consistent : Consistent tables spare building) {pipe gRead gWrite : Nat}
    (piped : Piped tables next pipe gRead gWrite) :
    Consistent next (fun gfd => spare gfd ∨ gfd = gRead ∨ gfd = gWrite)
      (fun other => building other ∨ other = pipe) := by
  have count : ∀ gfd, names next gfd = names tables gfd := by
    intro gfd
    unfold names
    rw [piped.table]
  have pipeEnd : ∀ gfd, gfd = gRead ∨ gfd = gWrite → (next.globalFds gfd).pipeId = pipe := by
    rintro gfd (rfl | rfl)
    · exact piped.read.2.2.2
    · exact piped.write.2.2.2
  constructor
  case bounded =>
    intro gfd live
    rcases piped.cases live with rfl | rfl | ⟨_, _, _, before⟩
    · exact piped.boundedRead
    · exact piped.boundedWrite
    · exact consistent.bounded gfd before
  case counted =>
    intro gfd live free
    rcases piped.cases live with read | write | ⟨_, _, same, before⟩
    · exact absurd (Or.inr (Or.inl read)) free
    · exact absurd (Or.inr (Or.inr write)) free
    · rw [same, count]
      exact consistent.counted gfd before fun held => free (Or.inl held)
  case spared =>
    rintro gfd (held | rfl | rfl)
    · obtain ⟨live, none'⟩ := consistent.spared gfd held
      have old := piped.old live
      rw [piped.others gfd old.1 old.2, count]
      exact ⟨live, none'⟩
    · exact ⟨piped.read.1, (count gfd).trans (names_eq_zero consistent piped.idleRead)⟩
    · exact ⟨piped.write.1, (count gfd).trans (names_eq_zero consistent piped.idleWrite)⟩
  case fresh =>
    rintro gfd (held | rfl | rfl)
    · have old := piped.old (consistent.spared gfd held).1
      rw [piped.others gfd old.1 old.2]
      exact consistent.fresh gfd held
    · exact piped.read.2.1
    · exact piped.write.2.1
  case within => exact fun entry gfd naming => consistent.within entry gfd (piped.table ▸ naming)
  case named =>
    intro entry gfd naming
    have live := consistent.named entry gfd (piped.table ▸ naming)
    have old := piped.old live
    rw [piped.others gfd old.1 old.2]
    exact live
  case ends =>
    intro gfd live isEnd
    rcases piped.cases live with read | write | ⟨_, _, same, before⟩
    · rw [pipeEnd gfd (Or.inl read)]
      exact piped.slot.1
    · rw [pipeEnd gfd (Or.inr write)]
      exact piped.slot.1
    · rw [same] at isEnd ⊢
      have different := consistent.no_end piped.idlePipe before isEnd
      rw [piped.pipes _ different]
      exact consistent.ends gfd before isEnd
  case unique =>
    intro first second live live' isEnd sameType samePipe
    rcases piped.cases live with read | write | ⟨_, _, same, before⟩ <;>
      rcases piped.cases live' with read' | write' | ⟨_, _, same', before'⟩
    · exact read.trans read'.symm
    · rw [read, write', piped.read.2.2.1, piped.write.2.2.1] at sameType
      exact absurd sameType (by simp)
    · rw [pipeEnd first (Or.inl read), same'] at samePipe
      refine absurd samePipe.symm (consistent.no_end piped.idlePipe before' ?_)
      rw [← same', ← sameType]
      exact isEnd
    · rw [write, read', piped.read.2.2.1, piped.write.2.2.1] at sameType
      exact absurd sameType (by simp)
    · exact write.trans write'.symm
    · rw [pipeEnd first (Or.inr write), same'] at samePipe
      refine absurd samePipe.symm (consistent.no_end piped.idlePipe before' ?_)
      rw [← same', ← sameType]
      exact isEnd
    · rw [pipeEnd second (Or.inl read'), same] at samePipe
      exact absurd samePipe (consistent.no_end piped.idlePipe before (same ▸ isEnd))
    · rw [pipeEnd second (Or.inr write'), same] at samePipe
      exact absurd samePipe (consistent.no_end piped.idlePipe before (same ▸ isEnd))
    · rw [same] at isEnd sameType samePipe
      rw [same'] at sameType samePipe
      exact consistent.unique first second before before' isEnd sameType samePipe
  case used =>
    intro other live settled
    have different : other ≠ pipe := fun is => settled (Or.inr is)
    rw [piped.pipes other different] at live
    obtain ⟨gfd, before, isEnd, same⟩ := consistent.used other live fun b => settled (Or.inl b)
    have old := piped.old before
    refine ⟨gfd, ?_⟩
    rw [piped.others gfd old.1 old.2]
    exact ⟨before, isEnd, same⟩
  case closed =>
    intro other live settled
    have different : other ≠ pipe := fun is => settled (Or.inr is)
    rw [piped.pipes other different] at live ⊢
    rw [consistent.closed other live fun b => settled (Or.inl b)]
    constructor
    · intro none' gfd live' write
      rcases piped.cases live' with read | write' | ⟨_, _, same, before⟩
      · rw [pipeEnd gfd (Or.inl read)]
        exact different.symm
      · rw [pipeEnd gfd (Or.inr write')]
        exact different.symm
      · rw [same] at write ⊢
        exact none' gfd before write
    · intro none' gfd before write
      have old := piped.old before
      have same := piped.others gfd old.1 old.2
      rw [← same]
      exact none' gfd (by rw [same]; exact before) (by rw [same]; exact write)
  case built =>
    rintro other (pending | rfl)
    · obtain ⟨live, shut⟩ := consistent.built other pending
      have different : other ≠ pipe := by
        rintro rfl
        rw [piped.idlePipe] at live
        exact absurd live (by simp)
      rw [piped.pipes other different]
      exact ⟨live, shut⟩
    · exact piped.slot
  case held =>
    intro gfd live write pending
    rcases piped.cases live with read | write' | ⟨_, _, same, before⟩
    · exact Or.inr (Or.inl read)
    · exact Or.inr (Or.inr write')
    · rw [same] at write pending
      refine Or.inl (consistent.held gfd before write (pending.resolve_right ?_))
      exact consistent.no_end piped.idlePipe before (Or.inr write)

/-! ### Naming an end -/

/-- Naming a spare descriptor, which releases the pipe it writes to, if it is a write end. -/
theorem Consistent.name (consistent : Consistent tables spare building) {gfd : Nat}
    {entry : Nat × Nat} (held : spare gfd) (member : entry ∈ entries)
    (vacant : tables.fdTable entry = none)
    (spares : ∀ other, spare' other ↔ spare other ∧ other ≠ gfd)
    (buildings : ∀ pipe, building' pipe ↔ building pipe ∧
      ((tables.globalFds gfd).type = .pipeWrite → (tables.globalFds gfd).pipeId ≠ pipe)) :
    Consistent (tables.setEntry entry (some gfd)) spare' building' := by
  have vacant' : ∀ other, tables.fdTable entry ≠ some other := by
    intro other
    rw [vacant]
    simp
  have table : (tables.setEntry entry (some gfd)).fdTable =
      update tables.fdTable entry (some gfd) := rfl
  have own : names (tables.setEntry entry (some gfd)) gfd = 1 := by
    rw [names_set member (vacant' gfd) table, (consistent.spared gfd held).2]
  have count : ∀ other, other ≠ gfd →
      names (tables.setEntry entry (some gfd)) other = names tables other := by
    intro other different
    exact names_other (vacant' other) (by simpa using different.symm) table
  have live := (consistent.spared gfd held).1
  have entriesOf : ∀ other named, (tables.setEntry entry (some gfd)).fdTable other = some named →
      (other = entry ∧ named = gfd) ∨ tables.fdTable other = some named := by
    intro other named naming
    rw [table] at naming
    rcases eq_or_ne other entry with rfl | different
    · rw [update_self] at naming
      exact Or.inl ⟨rfl, (Option.some.inj naming).symm⟩
    · rw [update_of_ne different] at naming
      exact Or.inr naming
  have settledOf : ∀ pipe, ¬ building' pipe → ¬ building pipe ∨
      ((tables.globalFds gfd).type = .pipeWrite ∧ (tables.globalFds gfd).pipeId = pipe) := by
    intro pipe settled
    by_cases pending : building pipe
    · right
      by_contra other
      refine settled ((buildings pipe).mpr ⟨pending, fun write same => other ⟨write, same⟩⟩)
    · exact Or.inl pending
  constructor
  case bounded => exact consistent.bounded
  case counted =>
    intro other open' free
    show (tables.globalFds other).refCount = _ ∧ _
    rcases eq_or_ne other gfd with rfl | different
    · rw [own, consistent.fresh other held]
      exact ⟨rfl, Nat.one_pos⟩
    · rw [count other different]
      exact consistent.counted other open' fun held' => free ((spares other).mpr ⟨held', different⟩)
  case spared =>
    intro other held'
    obtain ⟨before, different⟩ := (spares other).mp held'
    rw [count other different]
    exact consistent.spared other before
  case fresh => exact fun other held' => consistent.fresh other ((spares other).mp held').1
  case within =>
    intro other named naming
    rcases entriesOf other named naming with ⟨rfl, _⟩ | before
    · exact member
    · exact consistent.within other named before
  case named =>
    intro other named naming
    rcases entriesOf other named naming with ⟨_, rfl⟩ | before
    · exact live
    · exact consistent.named other named before
  case ends => exact consistent.ends
  case unique => exact consistent.unique
  case used =>
    intro pipe open' settled
    rcases settledOf pipe settled with before | ⟨write, same⟩
    · exact consistent.used pipe open' before
    · exact ⟨gfd, live, Or.inr write, same⟩
  case closed =>
    intro pipe open' settled
    by_cases pending : building pipe
    · obtain ⟨write, same⟩ := (settledOf pipe settled).resolve_left fun not => not pending
      refine iff_of_false ?_ fun none' => none' gfd live write same
      show ¬ (tables.pipes pipe).closedWrite = true
      rw [(consistent.built pipe pending).2]
      simp
    · exact consistent.closed pipe open' pending
  case built => exact fun pipe pending => consistent.built pipe ((buildings pipe).mp pending).1
  case held =>
    intro other open' write pending
    obtain ⟨before, apart⟩ := (buildings _).mp pending
    refine (spares other).mpr ⟨consistent.held other open' write before, ?_⟩
    rintro rfl
    exact apart write rfl

/-! ### Giving back -/

/-- Freeing a spare end of a pipe that is being taken down. -/
theorem Consistent.giveBack (consistent : Consistent tables spare building) {gfd : Nat}
    (held : spare gfd) (pending : building (tables.globalFds gfd).pipeId)
    (spares : ∀ other, spare' other ↔ spare other ∧ other ≠ gfd) :
    Consistent (tables.freeGlobal gfd) spare' building := by
  have live := (consistent.spared gfd held).1
  have freed : Freed tables (tables.freeGlobal gfd) gfd := by
    refine ⟨live, ?_, fun other different => setGlobal_of_ne tables different _⟩
    show ((tables.setGlobal gfd _).globalFds gfd).inUse = false
    rw [setGlobal_self]
  have count : ∀ other, names (tables.freeGlobal gfd) other = names tables other := by
    intro other
    unfold names
    rfl
  have nameless : ∀ entry, tables.fdTable entry ≠ some gfd :=
    fun entry naming => consistent.not_spare naming held
  have before : ∀ other, ((tables.freeGlobal gfd).globalFds other).inUse = true →
      other ≠ gfd ∧ (tables.freeGlobal gfd).globalFds other = tables.globalFds other ∧
        (tables.globalFds other).inUse = true := by
    intro other open'
    have different := freed.ne open'
    rw [freed.others other different] at open'
    exact ⟨different, freed.others other different, open'⟩
  constructor
  case bounded => exact fun other open' => consistent.bounded other (before other open').2.2
  case counted =>
    intro other open' free
    obtain ⟨different, same, live'⟩ := before other open'
    rw [same, count]
    exact consistent.counted other live' fun held' => free ((spares other).mpr ⟨held', different⟩)
  case spared =>
    intro other held'
    obtain ⟨held', different⟩ := (spares other).mp held'
    rw [freed.others other different, count]
    exact consistent.spared other held'
  case fresh =>
    intro other held'
    obtain ⟨held', different⟩ := (spares other).mp held'
    rw [freed.others other different]
    exact consistent.fresh other held'
  case within => exact consistent.within
  case named =>
    intro entry named naming
    have different : named ≠ gfd := by
      rintro rfl
      exact nameless entry naming
    rw [freed.others named different]
    exact consistent.named entry named naming
  case ends =>
    intro other open' isEnd
    obtain ⟨_, same, live'⟩ := before other open'
    rw [same] at isEnd ⊢
    exact consistent.ends other live' isEnd
  case unique =>
    intro first second open' open'' isEnd sameType samePipe
    obtain ⟨_, same, live'⟩ := before first open'
    obtain ⟨_, same', live''⟩ := before second open''
    rw [same] at isEnd sameType samePipe
    rw [same'] at sameType samePipe
    exact consistent.unique first second live' live'' isEnd sameType samePipe
  case used =>
    intro pipe open' settled
    obtain ⟨other, live', isEnd, same⟩ := consistent.used pipe open' settled
    have different : other ≠ gfd := by
      rintro rfl
      exact settled (same ▸ pending)
    refine ⟨other, ?_⟩
    rw [freed.others other different]
    exact ⟨live', isEnd, same⟩
  case closed =>
    intro pipe open' settled
    have apart : (tables.globalFds gfd).pipeId ≠ pipe := by
      rintro rfl
      exact settled pending
    rw [freed.writers fun _ => apart]
    exact consistent.closed pipe open' settled
  case built => exact consistent.built
  case held =>
    intro other open' write pending'
    obtain ⟨different, same, live'⟩ := before other open'
    rw [same] at write pending'
    exact (spares other).mpr ⟨consistent.held other live' write pending', different⟩

/-- Freeing the slot of a pipe whose ends are both free. -/
theorem Consistent.freePipe (consistent : Consistent tables spare building) {pipe : Nat}
    (endless : ∀ gfd, (tables.globalFds gfd).inUse = true → IsEnd (tables.globalFds gfd).type →
      (tables.globalFds gfd).pipeId ≠ pipe)
    (buildings : ∀ other, building' other ↔ building other ∧ other ≠ pipe) :
    Consistent (tables.freePipe pipe) spare building' := by
  have others : ∀ other, other ≠ pipe → (tables.freePipe pipe).pipes other = tables.pipes other :=
    fun other different => setPipe_of_ne tables different _
  have kept : ∀ other, ((tables.freePipe pipe).pipes other).inUse = true → other ≠ pipe := by
    rintro other open' rfl
    have freed : ((tables.setPipe other { tables.pipes other with inUse := false }).pipes
        other).inUse = true := open'
    rw [setPipe_self] at freed
    exact absurd freed (by simp)
  have settledOf : ∀ other, other ≠ pipe → ¬ building' other → ¬ building other :=
    fun other different settled pending => settled ((buildings other).mpr ⟨pending, different⟩)
  have count : ∀ gfd, names (tables.freePipe pipe) gfd = names tables gfd := by
    intro gfd
    unfold names
    rfl
  constructor
  case bounded => exact consistent.bounded
  case counted =>
    intro gfd live free
    rw [count]
    exact consistent.counted gfd live free
  case spared =>
    intro gfd held
    rw [count]
    exact consistent.spared gfd held
  case fresh => exact consistent.fresh
  case within => exact consistent.within
  case named => exact consistent.named
  case ends =>
    intro gfd live isEnd
    show ((tables.freePipe pipe).pipes (tables.globalFds gfd).pipeId).inUse = true
    rw [others _ (endless gfd live isEnd)]
    exact consistent.ends gfd live isEnd
  case unique => exact consistent.unique
  case used =>
    intro other open' settled
    have different := kept other open'
    rw [others other different] at open'
    exact consistent.used other open' (settledOf other different settled)
  case closed =>
    intro other open' settled
    have different := kept other open'
    rw [others other different] at open' ⊢
    exact consistent.closed other open' (settledOf other different settled)
  case built =>
    intro other pending
    obtain ⟨before, different⟩ := (buildings other).mp pending
    rw [others other different]
    exact consistent.built other before
  case held =>
    intro gfd live write pending
    exact consistent.held gfd live write ((buildings _).mp pending).1

/-! ### The first stretch of `do_sys_pipe` -/

/-- How the first stretch ends: nothing was left to take, both ends are named, or the caller had
room for one entry or for none. -/
inductive PipeResult (tables : Tables) (tid : Nat) : Tables × PipeOutcome → Prop
  | failed {next : Tables} : Agree tables next → PipeResult tables tid (next, .failed)
  | opened {made : Tables} {pipe gRead gWrite r0 r1 : Nat} :
      Piped tables made pipe gRead gWrite →
      (tid, r0) ∈ entries → tables.fdTable (tid, r0) = none →
      (tid, r1) ∈ entries → tables.fdTable (tid, r1) = none → r0 ≠ r1 →
      PipeResult tables tid ((made.setEntry (tid, r0) (some gRead)).setEntry (tid, r1)
        (some gWrite), .opened r0 r1)
  | half {made : Tables} {pipe gRead gWrite r0 : Nat} :
      Piped tables made pipe gRead gWrite →
      (tid, r0) ∈ entries → tables.fdTable (tid, r0) = none →
      PipeResult tables tid (made.setEntry (tid, r0) (some gRead),
        .cleanup ⟨pipe, gRead, gWrite, some r0, none⟩)
  | none {made : Tables} {pipe gRead gWrite : Nat} :
      Piped tables made pipe gRead gWrite →
      PipeResult tables tid (made, .cleanup ⟨pipe, gRead, gWrite, .none, .none⟩)

/-- Whether there is room for an entry does not depend on the descriptor it is for. -/
theorem taskMapFd_none {tid gfd : Nat} {credentials : Credentials}
    (full : taskMapFd tables tid credentials gfd = none) (other : Nat) :
    taskMapFd tables tid credentials other = none := by
  unfold taskMapFd at full ⊢
  by_cases ok : taskRlimitNofileOk tables tid credentials = true
  · rw [if_pos ok] at full ⊢
    cases found : (List.range maxFdsPerTask).find? fun fd : Nat =>
        taskGetFd tables tid fd == .none with
    | some fd =>
      rw [found] at full
      exact absurd full (by simp)
    | none => rfl
  · rw [if_neg ok]

theorem doSysPipe_result (tables : Tables) {tid : Nat} (within : tid < maxTasks)
    (credentials : Credentials) : PipeResult tables tid (doSysPipe tables tid credentials) := by
  unfold doSysPipe
  cases found : (List.range maxPipes).find? fun pipe => !(tables.pipes pipe).inUse with
  | none => exact .failed (Agree.refl tables)
  | some pipe =>
    have idlePipe : (tables.pipes pipe).inUse = false := by simpa using List.find?_some found
    simp only
    generalize clearedIs : tables.setPipe pipe { tables.pipes pipe with
      inUse := true, readPos := 0, writePos := 0, closedWrite := false } = cleared
    have globals : cleared.globalFds = tables.globalFds := by
      rw [← clearedIs]
      rfl
    have others : ∀ other, other ≠ pipe → cleared.pipes other = tables.pipes other := by
      intro other different
      rw [← clearedIs]
      exact setPipe_of_ne tables different _
    have table : cleared.fdTable = tables.fdTable := by
      rw [← clearedIs]
      rfl
    cases first : allocGlobalFd cleared with
    | none =>
      refine .failed (agree_idlePipe idlePipe ?_ (fun other different => ?_) globals table)
      · show ((cleared.setPipe pipe _).pipes pipe).inUse = false
        rw [setPipe_self]
      · exact (setPipe_of_ne cleared different _).trans (others other different)
    | some pair =>
      obtain ⟨gRead, allocated⟩ := pair
      obtain ⟨boundedRead, idleRead, rfl⟩ := allocGlobalFd_some first
      rw [globals] at idleRead
      simp only
      generalize withReadIs : Tables.setGlobal _ gRead _ = withRead
      have readIs : withRead.globalFds gRead = { tables.globalFds gRead with
          inUse := true, refCount := 1, offset := 0, type := .pipeRead, pipeId := pipe } := by
        rw [← withReadIs, setGlobal_self, setGlobal_self, globals]
      have readOthers : ∀ other, other ≠ gRead →
          withRead.globalFds other = tables.globalFds other := by
        intro other different
        rw [← withReadIs, setGlobal_of_ne _ different, setGlobal_of_ne _ different, globals]
      have readRest : withRead.pipes = cleared.pipes ∧ withRead.fdTable = cleared.fdTable := by
        rw [← withReadIs]
        exact ⟨rfl, rfl⟩
      cases second : allocGlobalFd withRead with
      | none =>
        refine .failed ?_
        have agreePipe : Agree tables (tables.setPipe pipe
            { cleared.pipes pipe with inUse := false }) := by
          refine agree_idlePipe idlePipe ?_ (fun other different => setPipe_of_ne _ different _)
            rfl rfl
          rw [setPipe_self]
        have idle : ((tables.setPipe pipe { cleared.pipes pipe with inUse := false }).globalFds
            gRead).inUse = false := idleRead
        have pipes : ((withRead.freeGlobal gRead).freePipe pipe).pipes =
            (tables.setPipe pipe { cleared.pipes pipe with inUse := false }).pipes := by
          funext other
          show update withRead.pipes pipe _ other =
            update tables.pipes pipe _ other
          rcases eq_or_ne other pipe with rfl | different
          · rw [update_self, update_self]
            show { withRead.pipes other with inUse := false } = _
            rw [readRest.1]
          · rw [update_of_ne different, update_of_ne different, readRest.1,
              others other different]
        refine agreePipe.trans (agree_idle idle ?_ (fun other different => ?_) pipes
          (readRest.2.trans table))
        · show ((withRead.setGlobal gRead _).globalFds gRead).inUse = false
          rw [setGlobal_self]
        · exact (setGlobal_of_ne withRead different _).trans (readOthers other different)
      | some pair =>
        obtain ⟨gWrite, allocated⟩ := pair
        obtain ⟨boundedWrite, idleWrite, rfl⟩ := allocGlobalFd_some second
        have apart : gRead ≠ gWrite := by
          rintro rfl
          rw [readIs] at idleWrite
          exact absurd idleWrite (by simp)
        rw [readOthers gWrite apart.symm] at idleWrite
        simp only
        generalize madeIs : Tables.setGlobal _ gWrite _ = made
        have writeIs : made.globalFds gWrite = { tables.globalFds gWrite with
            inUse := true, refCount := 1, offset := 0, type := .pipeWrite, pipeId := pipe } := by
          rw [← madeIs, setGlobal_self, setGlobal_self, readOthers gWrite apart.symm]
        have madeOthers : ∀ other, other ≠ gWrite →
            made.globalFds other = withRead.globalFds other := by
          intro other different
          rw [← madeIs, setGlobal_of_ne _ different, setGlobal_of_ne _ different]
        have madeRest : made.pipes = cleared.pipes ∧ made.fdTable = tables.fdTable := by
          rw [← madeIs]
          exact ⟨readRest.1, readRest.2.trans table⟩
        have slot : made.pipes pipe = { tables.pipes pipe with
            inUse := true, readPos := 0, writePos := 0, closedWrite := false } := by
          rw [madeRest.1, ← clearedIs, setPipe_self]
        have piped : Piped tables made pipe gRead gWrite := by
          refine ⟨idlePipe, idleRead, idleWrite, apart, boundedRead, boundedWrite, ?_,
            fun other different => ?_, ?_, ?_, fun other notRead notWrite => ?_, madeRest.2⟩
          · rw [slot]
            exact ⟨rfl, rfl⟩
          · rw [madeRest.1, others other different]
          · rw [madeOthers gRead apart, readIs]
            exact ⟨rfl, rfl, rfl, rfl⟩
          · rw [writeIs]
            exact ⟨rfl, rfl, rfl, rfl⟩
          · rw [madeOthers other notWrite, readOthers other notRead]
        cases mappedRead : taskMapFd made tid credentials gRead with
        | none =>
          have mappedWrite := taskMapFd_none mappedRead gWrite
          simp only [Option.map_none, Option.getD_none, mappedWrite]
          exact .none piped
        | some pair =>
          obtain ⟨r0, afterRead⟩ := pair
          obtain ⟨member0, vacant0, rfl⟩ := taskMapFd_some within mappedRead
          rw [piped.table] at vacant0
          simp only [Option.map_some, Option.getD_some]
          cases mappedWrite : taskMapFd (made.setEntry (tid, r0) (some gRead)) tid credentials
              gWrite with
          | none =>
            simp only [Option.map_none, Option.getD_none]
            exact .half piped member0 vacant0
          | some pair =>
            obtain ⟨r1, afterWrite⟩ := pair
            obtain ⟨member1, vacant1, rfl⟩ := taskMapFd_some within mappedWrite
            have different : r0 ≠ r1 := by
              rintro rfl
              have taken : (made.setEntry (tid, r0) (some gRead)).fdTable (tid, r0) = some gRead :=
                update_self _ _ _
              rw [taken] at vacant1
              exact absurd vacant1 (by simp)
            have vacant1' : tables.fdTable (tid, r1) = .none := by
              rw [← piped.table, ← vacant1]
              refine (update_of_ne (fun same => different ?_) _ _).symm
              exact (congrArg Prod.snd same).symm
            simp only [Option.map_some, Option.getD_some]
            exact .opened piped member0 vacant0 member1 vacant1' different

end MectovOS.Fd
