/-
This file proves what the steps of the descriptor calls leave alone: no byte in
flight but those of the channels they set up anew, and no entry of a task that
is in a call but those they clear.
-/

import MectovOS.Fd.Streams

namespace MectovOS.Fd

open Function

open Sched (maxTasks)

variable {tables next : Tables}

/-! ### Calls that move no bytes -/

/-- Two tables with the same bytes in all rings. -/
def SameRings (tables next : Tables) : Prop := ∀ channel, next.ring channel = tables.ring channel

theorem SameRings.refl (tables : Tables) : SameRings tables tables := fun _ => rfl

theorem SameRings.trans {middle : Tables} (first : SameRings tables middle)
    (second : SameRings middle next) : SameRings tables next :=
  fun channel => (second channel).trans (first channel)

theorem sameRings_setGlobal (tables : Tables) (gfd : Nat) (descriptor : GlobalFd) :
    SameRings tables (tables.setGlobal gfd descriptor) := fun channel => by cases channel <;> rfl

theorem sameRings_setPipe {pipe : Nat} {value : Pipe}
    (same : value.ring = tables.ring (.pipe pipe)) :
    SameRings tables (tables.setPipe pipe value) := by
  intro channel
  cases channel with
  | pipe index =>
    rw [ring_setPipe]
    split
    · rename_i here
      rw [here, same]
    · rfl
  | m2s index => rfl
  | s2m index => rfl

theorem sameRings_setPty {pty : Nat} {value : Pty} (m2s : value.m2sRing = tables.ring (.m2s pty))
    (s2m : value.s2mRing = tables.ring (.s2m pty)) :
    SameRings tables (tables.setPty pty value) := by
  intro channel
  cases channel with
  | pipe index => rfl
  | m2s index =>
    rw [ring_setPty_m2s]
    split
    · rename_i here
      rw [here, m2s]
    · rfl
  | s2m index =>
    rw [ring_setPty_s2m]
    split
    · rename_i here
      rw [here, s2m]
    · rfl

theorem sameRings_freePipe (tables : Tables) (pipe : Nat) :
    SameRings tables (tables.freePipe pipe) := sameRings_setPipe rfl

theorem sameRings_ptyClose (tables : Tables) (gfd : Nat) :
    SameRings tables (ptyClose tables gfd) := by
  unfold ptyClose
  cases ptySlotIsMaster tables gfd with
  | none => exact SameRings.refl tables
  | some isMaster =>
    have kept : SameRings tables (tables.setPty (tables.globalFds gfd).pipeId
        (ptyAfterClose (tables.ptys (tables.globalFds gfd).pipeId) isMaster)) := by
      cases isMaster <;> exact sameRings_setPty rfl rfl
    exact kept

theorem sameRings_releaseOwned (tables : Tables) (gfd : Nat) :
    SameRings tables (releaseOwned tables gfd) := by
  unfold releaseOwned
  cases (tables.globalFds gfd).type with
  | pipeWrite =>
    have closed : SameRings tables (tables.setPipe (tables.globalFds gfd).pipeId
        { tables.pipes (tables.globalFds gfd).pipeId with closedWrite := true }) :=
      sameRings_setPipe rfl
    simp only
    split
    · exact closed
    · exact closed.trans (sameRings_freePipe _ _)
  | pipeRead =>
    simp only
    split
    · exact sameRings_freePipe _ _
    · exact SameRings.refl tables
  | pty => exact sameRings_ptyClose tables gfd
  | none => exact SameRings.refl tables
  | file => exact SameRings.refl tables
  | dev => exact SameRings.refl tables
  | socket => exact SameRings.refl tables

theorem sameRings_fdReleaseGlobal (tables : Tables) (gfd : Nat) :
    SameRings tables (fdReleaseGlobal tables gfd) := by
  unfold fdReleaseGlobal
  simp only
  split
  · exact sameRings_releaseOwned (tables.setGlobal gfd _) gfd
  · exact SameRings.refl tables

theorem sameRings_taskSetFd (tables : Tables) (tid : Nat) (fd : Int) (gfd : Option Nat) :
    SameRings tables (taskSetFd tables tid fd gfd) := by
  unfold taskSetFd
  split <;> exact SameRings.refl tables

theorem sameRings_doSysClose (tables : Tables) (tid : Nat) (fd : Int) :
    SameRings tables (doSysClose tables tid fd).1 := by
  unfold doSysClose
  split
  · exact SameRings.refl tables
  · split
    · exact (sameRings_taskSetFd tables tid fd none).trans (sameRings_fdReleaseGlobal _ _)
    · exact SameRings.refl tables

theorem sameRings_dropFd (tables : Tables) (tid : Nat) (fd : Int) :
    SameRings tables (dropFd tables tid fd) := by
  unfold dropFd
  split
  · exact SameRings.refl tables
  · simp only
    split
    · exact (sameRings_taskSetFd tables tid fd none).trans (sameRings_fdReleaseGlobal _ _)
    · exact sameRings_taskSetFd tables tid fd none

theorem sameRings_doSysDup2Tid (tables : Tables) (current : Nat) (credentials : Credentials)
    (tid : Nat) (oldfd newfd : Int) :
    SameRings tables (doSysDup2Tid tables current credentials tid oldfd newfd).1 := by
  unfold doSysDup2Tid
  split
  · exact SameRings.refl tables
  split
  · exact SameRings.refl tables
  split
  · exact SameRings.refl tables
  cases taskGetFd tables tid oldfd with
  | none => exact SameRings.refl tables
  | some ogfd =>
    simp only
    split
    · exact SameRings.refl tables
    split
    · exact SameRings.refl tables
    refine SameRings.trans ?_ (sameRings_taskSetFd _ tid newfd (some ogfd))
    refine SameRings.trans ?_ (sameRings_setGlobal _ ogfd _)
    split
    · exact SameRings.refl tables
    · split
      · exact (sameRings_taskSetFd tables tid newfd none).trans (sameRings_fdReleaseGlobal _ _)
      · exact SameRings.refl tables

theorem sameRings_taskMapFd {tid gfd fd : Nat} {credentials : Credentials}
    (mapped : taskMapFd tables tid credentials gfd = some (fd, next)) : SameRings tables next := by
  unfold taskMapFd at mapped
  obtain ⟨_, mapped⟩ := Option.ite_none_right_eq_some.mp mapped
  split at mapped
  · obtain ⟨rfl, rfl⟩ := Prod.mk.inj (Option.some.inj mapped)
    exact sameRings_taskSetFd tables tid _ _
  · exact absurd mapped (by simp)

theorem sameRings_openDescriptor (tables : Tables) (tid : Nat) (credentials : Credentials)
    (fill : GlobalFd → GlobalFd) :
    SameRings tables (openDescriptor tables tid credentials fill).1 := by
  unfold openDescriptor
  cases allocated : allocGlobalFd tables with
  | none => exact SameRings.refl tables
  | some pair =>
    obtain ⟨gfd, fresh⟩ := pair
    obtain ⟨_, _, rfl⟩ := allocGlobalFd_some allocated
    simp only
    generalize filledIs : Tables.setGlobal _ gfd (fill _) = filled
    have kept : SameRings tables filled := by
      rw [← filledIs]
      exact SameRings.refl tables
    cases mapped : taskMapFd filled tid credentials gfd with
    | none => exact kept
    | some pair => exact kept.trans (sameRings_taskMapFd mapped)

theorem sameRings_ptyClaimGfd {pty gfd : Nat} {isMaster : Bool}
    (claimed : ptyClaimGfd tables pty isMaster = some (gfd, next)) : SameRings tables next := by
  unfold ptyClaimGfd at claimed
  split at claimed
  · exact absurd claimed (by simp)
  split at claimed
  · obtain ⟨rfl, rfl⟩ := Prod.mk.inj (Option.some.inj claimed)
    exact SameRings.refl tables
  · exact absurd claimed (by simp)

/-- Mapping a claimed descriptor, or taking it back, moves no bytes. -/
theorem sameRings_ptyMapped (tables : Tables) (tid gfd : Nat) (credentials : Credentials) :
    SameRings tables (match taskMapFd tables tid credentials gfd with
      | none => (ptyUnclaim tables gfd, -1)
      | some (fd, mapped) => (mapped, (fd : Int))).1 := by
  cases mapped : taskMapFd tables tid credentials gfd with
  | none => exact sameRings_ptyClose tables gfd
  | some pair => exact sameRings_taskMapFd mapped

theorem sameRings_doSysPtyOpen (tables : Tables) (tid : Nat) (credentials : Credentials)
    (masterLfd : Int) : SameRings tables (doSysPtyOpen tables tid credentials masterLfd).1 := by
  unfold doSysPtyOpen
  split
  · exact SameRings.refl tables
  split
  · exact SameRings.refl tables
  · rename_i mgfd _ _
    cases opened : ptyOpenSlave tables mgfd with
    | none => exact SameRings.refl tables
    | some pair =>
      obtain ⟨gfd, filled⟩ := pair
      refine SameRings.trans ?_ (sameRings_ptyMapped filled tid gfd credentials)
      unfold ptyOpenSlave at opened
      split at opened
      · exact absurd opened (by simp)
      simp only at opened
      split at opened
      · exact absurd opened (by simp)
      split at opened
      · exact absurd opened (by simp)
      · rename_i claimed
        obtain ⟨rfl, rfl⟩ := Prod.mk.inj (Option.some.inj opened)
        exact (sameRings_ptyClaimGfd claimed).trans (sameRings_setPty rfl rfl)

/-- Allocating a pseudo-terminal clears the one it picks. -/
theorem sameRings_doSysPtyAlloc (tables : Tables) (tid : Nat) (credentials : Credentials) :
    SameRings
      (match (List.range maxPtys).find? fun pty => !(tables.ptys pty).inUse with
        | some pty => tables.setPty pty freshPty
        | none => tables) (doSysPtyAlloc tables tid credentials).1 := by
  unfold doSysPtyAlloc ptyAllocFd
  cases (List.range maxPtys).find? fun pty => !(tables.ptys pty).inUse with
  | none => exact SameRings.refl tables
  | some pty =>
    simp only
    cases claimed : ptyClaimGfd (tables.setPty pty freshPty) pty true with
    | none =>
      refine sameRings_setPty ?_ ?_
      · rw [ring_setPty_m2s, if_pos rfl]
        rfl
      · rw [ring_setPty_s2m, if_pos rfl]
        rfl
    | some pair =>
      obtain ⟨gfd, filled⟩ := pair
      have kept := sameRings_ptyClaimGfd claimed
      refine SameRings.trans (kept.trans (sameRings_setPty ?_ ?_))
        (sameRings_ptyMapped (filled.setPty pty { freshPty with masterFd := gfd }) tid gfd
          credentials)
      · rw [kept, ring_setPty_m2s, if_pos rfl]
        rfl
      · rw [kept, ring_setPty_s2m, if_pos rfl]
        rfl

/-- Creating a pipe resets the slot it picks. -/
theorem sameRings_doSysPipe (tables : Tables) (tid : Nat) (credentials : Credentials) :
    SameRings
      (match (List.range maxPipes).find? fun pipe => !(tables.pipes pipe).inUse with
        | some pipe =>
          tables.setPipe pipe
            { tables.pipes pipe with
              inUse := true, readPos := 0, writePos := 0, closedWrite := false }
        | none => tables) (doSysPipe tables tid credentials).1 := by
  unfold doSysPipe
  cases (List.range maxPipes).find? fun pipe => !(tables.pipes pipe).inUse with
  | none => exact SameRings.refl tables
  | some pipe =>
    simp only
    generalize Tables.setPipe _ pipe _ = cleared
    cases first : allocGlobalFd cleared with
    | none => exact sameRings_freePipe _ _
    | some pair =>
      obtain ⟨gRead, allocated⟩ := pair
      obtain ⟨_, _, rfl⟩ := allocGlobalFd_some first
      simp only
      generalize withReadIs : Tables.setGlobal _ gRead _ = withRead
      have kept : SameRings cleared withRead := by
        rw [← withReadIs]
        exact SameRings.refl cleared
      cases second : allocGlobalFd withRead with
      | none => exact kept.trans (sameRings_freePipe (withRead.freeGlobal gRead) pipe)
      | some pair =>
        obtain ⟨gWrite, allocated⟩ := pair
        obtain ⟨_, _, rfl⟩ := allocGlobalFd_some second
        simp only
        generalize madeIs : Tables.setGlobal _ gWrite _ = made
        replace kept : SameRings cleared made := by
          rw [← madeIs]
          exact kept
        have mapping : ∀ (tables : Tables) (gfd : Nat), SameRings tables
            (((taskMapFd tables tid credentials gfd).map Prod.snd).getD tables) := by
          intro tables gfd
          cases mapped : taskMapFd tables tid credentials gfd with
          | none => exact SameRings.refl tables
          | some pair => exact sameRings_taskMapFd mapped
        have both := (kept.trans (mapping made gRead)).trans (mapping _ gWrite)
        split <;> exact both

/-- A step leaves every ring alone but those of the channels it sets up anew, which are empty. -/
theorem step_ring {state next : Descriptors} {label : Label}
    (taken : step state label = some next) (channel : Channel) :
    (label.clears state.tables channel = false →
      next.tables.ring channel = state.tables.ring channel) ∧
    (label.clears state.tables channel = true → (next.tables.ring channel).readPos = 0 ∧
      (next.tables.ring channel).writePos = 0) := by
  have quiet : label.clears state.tables channel = false → SameRings state.tables next.tables →
      (label.clears state.tables channel = false →
        next.tables.ring channel = state.tables.ring channel) ∧
      (label.clears state.tables channel = true → (next.tables.ring channel).readPos = 0 ∧
        (next.tables.ring channel).writePos = 0) := by
    intro calm same
    rw [calm]
    exact ⟨fun _ => same channel, fun cleared => absurd cleared (by simp)⟩
  cases step_taken taken with
  | call _ _ =>
    rename_i tid call _ _
    cases call with
    | openFile credentials node isDir mode =>
      refine quiet (by cases channel <;> rfl) ?_
      show SameRings state.tables (doSysOpen state.tables tid credentials node isDir mode).1
      unfold doSysOpen
      split
      · exact SameRings.refl _
      · exact sameRings_openDescriptor _ _ _ _
    | socket credentials type =>
      exact quiet (by cases channel <;> rfl) (sameRings_openDescriptor _ _ _ _)
    | accept credentials child =>
      refine quiet (by cases channel <;> rfl) ?_
      show SameRings state.tables (sockAccept state.tables tid credentials child).1
      unfold sockAccept
      split
      · exact SameRings.refl _
      · exact sameRings_openDescriptor _ _ _ _
    | ptyAlloc credentials =>
      have kept : (Call.run state.tables tid (.ptyAlloc credentials)).ring channel = _ :=
        sameRings_doSysPtyAlloc state.tables tid credentials channel
      show (_ → (Call.run state.tables tid (.ptyAlloc credentials)).ring channel = _) ∧
        (_ → ((Call.run state.tables tid (.ptyAlloc credentials)).ring channel).readPos = 0 ∧
          ((Call.run state.tables tid (.ptyAlloc credentials)).ring channel).writePos = 0)
      rw [kept]
      cases found : (List.range maxPtys).find? fun pty => !(state.tables.ptys pty).inUse with
      | none =>
        refine ⟨fun _ => rfl, fun cleared => ?_⟩
        cases channel <;> simp [Label.clears, found] at cleared
      | some pty =>
        cases channel with
        | pipe index => exact ⟨fun _ => rfl, fun cleared => absurd cleared (by simp [Label.clears])⟩
        | m2s index =>
          have cleared : Label.clears state.tables (.call tid (.ptyAlloc credentials))
              (.m2s index) = (some pty == some index) := congrArg (· == some index) found
          rw [cleared]
          simp only
          rw [ring_setPty_m2s]
          constructor
          · intro other
            rw [if_neg]
            rintro rfl
            exact absurd other (by simp)
          · intro same
            rw [if_pos (Option.some.inj (beq_iff_eq.mp same)).symm]
            exact ⟨rfl, rfl⟩
        | s2m index =>
          have cleared : Label.clears state.tables (.call tid (.ptyAlloc credentials))
              (.s2m index) = (some pty == some index) := congrArg (· == some index) found
          rw [cleared]
          simp only
          rw [ring_setPty_s2m]
          constructor
          · intro other
            rw [if_neg]
            rintro rfl
            exact absurd other (by simp)
          · intro same
            rw [if_pos (Option.some.inj (beq_iff_eq.mp same)).symm]
            exact ⟨rfl, rfl⟩
    | ptyOpen credentials masterLfd =>
      exact quiet (by cases channel <;> rfl) (sameRings_doSysPtyOpen _ _ _ _)
    | close fd => exact quiet (by cases channel <;> rfl) (sameRings_doSysClose _ _ _)
    | dup2 credentials target oldfd newfd =>
      exact quiet (by cases channel <;> rfl) (sameRings_doSysDup2Tid _ _ _ _ _ _)
    | drop target fd => exact quiet (by cases channel <;> rfl) (sameRings_dropFd _ _ _)
  | pipe _ =>
    rename_i tid credentials _
    have after : (state.afterPipe tid (doSysPipe state.tables tid credentials)).tables =
        (doSysPipe state.tables tid credentials).1 := by
      unfold Descriptors.afterPipe
      split
      · rename_i made
        rw [made]
      · rename_i made
        rw [made]
    have kept := sameRings_doSysPipe state.tables tid credentials channel
    rw [after, kept]
    cases found : (List.range maxPipes).find? fun pipe => !(state.tables.pipes pipe).inUse with
    | none =>
      refine ⟨fun _ => rfl, fun cleared => ?_⟩
      cases channel <;> simp [Label.clears, found] at cleared
    | some pipe =>
      cases channel with
      | pipe index =>
        have cleared : Label.clears state.tables (.pipe tid credentials) (.pipe index) =
            (some pipe == some index) := congrArg (· == some index) found
        rw [cleared]
        simp only
        rw [ring_setPipe]
        constructor
        · intro other
          rw [if_neg]
          rintro rfl
          exact absurd other (by simp)
        · intro same
          rw [if_pos (Option.some.inj (beq_iff_eq.mp same)).symm]
          exact ⟨rfl, rfl⟩
      | m2s index => exact ⟨fun _ => rfl, fun cleared => absurd cleared (by simp [Label.clears])⟩
      | s2m index => exact ⟨fun _ => rfl, fun cleared => absurd cleared (by simp [Label.clears])⟩
  | cleanup busy =>
    rename_i tid stage rest
    refine quiet (by cases channel <;> rfl) ?_
    have one : ∀ (gfd : Nat) (entry : Option Nat),
        SameRings state.tables (pipeCleanupEnd state.tables tid gfd entry) := by
      intro gfd entry
      cases entry with
      | none => exact sameRings_setGlobal _ _ _
      | some fd => exact sameRings_doSysClose _ _ _
    match stage with
    | 0 => exact one rest.gRead rest.r0
    | 1 => exact one rest.gWrite rest.r1
    | _ + 2 => exact sameRings_freePipe _ _
  | fork _ _ _ _ => exact quiet (by cases channel <;> rfl) (SameRings.refl _)
  | spawn _ _ _ _ => exact quiet (by cases channel <;> rfl) (SameRings.refl _)
  | create => exact quiet (by cases channel <;> rfl) (SameRings.refl _)
  | load _ _ =>
    refine quiet (by cases channel <;> rfl) ?_
    unfold Descriptors.afterLoad
    split
    · exact SameRings.refl _
    · split <;> exact SameRings.refl _
  | store _ _ => exact quiet (by cases channel <;> rfl) (sameRings_setGlobal _ _ _)

/-! ### The entries of a task in a call -/

/-- The entries of a task after a step are entries it had, of descriptors that are what they
were. -/
def Untouched (tables next : Tables) (tid : Nat) : Prop :=
  ∀ fd gfd, next.fdTable (tid, fd) = some gfd → tables.fdTable (tid, fd) = some gfd ∧
    (next.globalFds gfd).type = (tables.globalFds gfd).type ∧
    (next.globalFds gfd).pipeId = (tables.globalFds gfd).pipeId

theorem Untouched.refl (tables : Tables) (tid : Nat) : Untouched tables tables tid :=
  fun _ _ naming => ⟨naming, rfl, rfl⟩

theorem Untouched.trans {middle : Tables} {tid : Nat} (first : Untouched tables middle tid)
    (second : Untouched middle next tid) : Untouched tables next tid := by
  intro fd gfd naming
  obtain ⟨between, type, pipeId⟩ := second fd gfd naming
  obtain ⟨before, type', pipeId'⟩ := first fd gfd between
  exact ⟨before, type.trans type', pipeId.trans pipeId'⟩

variable {spare building free : Nat → Prop}

/-- Tables of the same shape differ at most in entries of other tasks. -/
theorem Consistent.untouched (consistent : Consistent tables spare building) {tid : Nat}
    (shape : SameShape tables next)
    (table : ∀ fd gfd, next.fdTable (tid, fd) = some gfd → tables.fdTable (tid, fd) = some gfd) :
    Untouched tables next tid := by
  intro fd gfd naming
  have before := table fd gfd naming
  have live := consistent.named _ gfd before
  exact ⟨before, shape.type gfd live, shape.pipeId gfd live⟩

/-- A move sets no entry of a task it is not free to set, and changes no descriptor that such an
entry goes on to name. -/
theorem Move.untouched (consistent : Consistent tables spare building)
    (move : Move free tables next) {tid : Nat} (busy : ¬ free tid) : Untouched tables next tid := by
  cases move with
  | agree agree =>
    exact consistent.untouched agree.toSameShape fun _ _ naming => agree.table ▸ naming
  | opened opened own =>
    rename_i opening entry
    intro fd gfd naming
    have different : (tid, fd) ≠ entry := by
      rintro rfl
      exact busy own
    rw [opened.table, update_of_ne different] at naming
    have other : gfd ≠ opening := by
      rintro rfl
      exact consistent.names_idle opened.idle _ naming
    rw [opened.others gfd other]
    exact ⟨naming, rfl, rfl⟩
  | share member vacant naming own admitted =>
    rename_i shared entry source
    refine consistent.untouched ((sameShape_refCount tables shared _).trans
      (sameShape_setEntry _ entry (some shared))) fun fd gfd naming' => ?_
    have different : (tid, fd) ≠ entry := by
      rintro rfl
      exact busy own
    replace naming' : update tables.fdTable entry (some shared) (tid, fd) = some gfd :=
      naming'
    rwa [update_of_ne different] at naming'
  | release naming =>
    rename_i released entry
    rcases fdReleaseGlobal_cases (tables.setEntry entry none) released with
      ⟨_, same⟩ | ⟨only, freed, _, table, others⟩
    · rw [same]
      exact consistent.untouched ((sameShape_setEntry tables entry none).trans
        (sameShape_refCount (tables.setEntry entry none) released _))
        fun fd gfd naming' => fdTable_of_cleared rfl naming'
    · intro fd gfd naming'
      have before := fdTable_of_cleared table naming'
      have other : gfd ≠ released := by
        rintro rfl
        have live := (consistent.release naming).named _ gfd naming'
        rw [freed] at live
        exact absurd live (by simp)
      rw [others gfd other]
      exact ⟨before, rfl, rfl⟩

theorem Moves.untouched (consistent : Consistent tables spare building)
    (moves : Moves free tables next) {tid : Nat} (busy : ¬ free tid) :
    Untouched tables next tid := by
  induction moves with
  | refl => exact Untouched.refl tables tid
  | tail earlier move inductionHypothesis =>
    exact inductionHypothesis.trans (move.untouched (consistent.moves earlier) busy)

/-- The table of another task is claimed. -/
theorem untouched_claimed {tid child : Nat} {table : Nat × Nat → Option Nat} (apart : tid ≠ child) :
    Untouched tables { tables with
      fdTable := fun entry =>
        if entry.1 = child ∧ entry.2 < maxFdsPerTask then table entry
        else tables.fdTable entry } tid := by
  intro fd gfd naming
  have other : ¬ (tid = child ∧ fd < maxFdsPerTask) := fun here => apart here.1
  replace naming : (if tid = child ∧ fd < maxFdsPerTask then table (tid, fd)
    else tables.fdTable (tid, fd)) = some gfd := naming
  rw [if_neg other] at naming
  exact ⟨naming, rfl, rfl⟩

/-- The entries of a task that has no part in a step. -/
theorem Sound.untouched {state next : Descriptors} {label : Label} (sound : Sound state)
    (alone : Alone state label) (taken : Fd.step state label = some next) {tid : Nat}
    (apart : tid ∉ label.actors)
    (child : ∀ copy, state.copying = some copy → copy.child ≠ tid) :
    Untouched state.tables next.tables tid := by
  cases step_taken taken with
  | call ready ready' =>
    rename_i caller call
    rw [state.ready_iff] at ready
    have moves : Moves (fun tid => tid ∈ (Label.call caller call).actors) state.tables
        (call.run state.tables caller) :=
      call.moves (sound.tables alone) ready.1 (List.mem_cons_self)
        (List.mem_cons_of_mem _ List.mem_cons_self)
    exact moves.untouched (sound.tables alone) apart
  | pipe ready =>
    rename_i caller credentials
    rw [state.ready_iff] at ready
    have other : ∀ fd fd' : Nat, (tid, fd) ≠ (caller, fd') := by
      intro fd fd' same
      exact apart (List.mem_singleton.mpr (congrArg Prod.fst same))
    have consistent := sound.tables alone
    have made : ∀ {made : Tables} {pipe gRead gWrite : Nat},
        Piped state.tables made pipe gRead gWrite → Untouched state.tables made tid := by
      intro made pipe gRead gWrite piped fd gfd naming
      rw [piped.table] at naming
      have live := consistent.named _ gfd naming
      rw [piped.others gfd]
      · exact ⟨naming, rfl, rfl⟩
      · rintro rfl
        rw [piped.idleRead] at live
        exact absurd live (by simp)
      · rintro rfl
        rw [piped.idleWrite] at live
        exact absurd live (by simp)
    have entry : ∀ (tables : Tables) (fd gfd : Nat),
        Untouched tables (tables.setEntry (caller, fd) (some gfd)) tid := by
      intro tables fd gfd fd' gfd' naming
      replace naming : update tables.fdTable (caller, fd) (some gfd) (tid, fd') =
        some gfd' := naming
      rw [update_of_ne (other fd' fd)] at naming
      exact ⟨naming, rfl, rfl⟩
    have result := doSysPipe_result state.tables ready.1 credentials
    generalize doSysPipe state.tables caller credentials = outcome at result
    cases result with
    | failed agree =>
      exact consistent.untouched agree.toSameShape fun _ _ naming => agree.table ▸ naming
    | opened piped _ _ _ _ _ =>
      exact ((made piped).trans (entry _ _ _)).trans (entry _ _ _)
    | half piped _ _ => exact (made piped).trans (entry _ _ _)
    | none piped => exact made piped
  | cleanup busy =>
    rename_i caller stage rest
    have consistent := sound.tables alone
    have cleaning := sound.cleaning caller rest stage busy
    have spared : ∀ gfd, state.Spare gfd →
        Untouched state.tables (state.tables.freeGlobal gfd) tid := by
      intro gfd held fd named naming
      have different : named ≠ gfd := by
        rintro rfl
        exact consistent.not_spare naming held
      refine ⟨naming, ?_, ?_⟩
      · exact congrArg GlobalFd.type (setGlobal_of_ne state.tables different _)
      · exact congrArg GlobalFd.pipeId (setGlobal_of_ne state.tables different _)
    match stage with
    | 0 =>
      cases mapped : rest.r0 with
      | some fd =>
        have moves : Moves (fun _ => False) state.tables (doSysClose state.tables caller fd).1 :=
          moves_doSysClose consistent caller fd
        unfold Descriptors.afterCleanup
        rw [mapped]
        exact moves.untouched consistent id
      | none =>
        unfold Descriptors.afterCleanup
        rw [mapped]
        exact spared _ ⟨caller, rest, 0, busy, Or.inl ⟨rfl, mapped, rfl⟩⟩
    | 1 =>
      unfold Descriptors.afterCleanup
      rw [cleaning.unmapped]
      exact spared _ ⟨caller, rest, 1, busy, Or.inr ⟨Nat.le_refl 1, rfl⟩⟩
    | _ + 2 => exact fun _ _ naming => ⟨naming, rfl, rfl⟩
  | fork _ _ _ _ =>
    exact untouched_claimed (fun same => apart (same ▸ List.mem_cons_of_mem _ List.mem_cons_self))
  | spawn _ _ _ _ =>
    exact untouched_claimed (fun same => apart (same ▸ List.mem_cons_of_mem _ List.mem_cons_self))
  | create =>
    exact untouched_claimed (fun same => apart (same ▸ List.mem_cons_of_mem _ List.mem_cons_self))
  | load _ _ =>
    rename_i copy _ _
    unfold Descriptors.afterLoad
    split
    · exact Untouched.refl _ _
    split
    · exact Untouched.refl _ _
    · exact Untouched.refl _ _
  | store busy _ =>
    rename_i copy shared count _
    intro fd gfd naming
    have different : (tid, fd) ≠ (copy.child, copy.nextFd) := by
      intro same
      exact child copy busy (congrArg Prod.fst same).symm
    replace naming : update state.tables.fdTable (copy.child, copy.nextFd) (some shared)
      (tid, fd) = some gfd := naming
    rw [update_of_ne different] at naming
    refine ⟨naming, ?_⟩
    show (update state.tables.globalFds shared _ gfd).type = _ ∧
      (update state.tables.globalFds shared _ gfd).pipeId = _
    rcases eq_or_ne gfd shared with rfl | apart'
    · rw [update_self]
      exact ⟨rfl, rfl⟩
    · rw [update_of_ne apart']
      exact ⟨rfl, rfl⟩

end MectovOS.Fd
