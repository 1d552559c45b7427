/-
This file proves that the stretches of fd.c and pty.c under the lock are made of
moves: opening files, sockets and pseudo-terminals, closing and duplicating
descriptors, with the paths on which a table is full or the caller is at its
limit.
-/

import MectovOS.Fd.Moves

namespace MectovOS.Fd

open Function

open Sched (maxTasks)

variable {tables next : Tables} {spare building : Nat → Prop} {free : Nat → Prop}

/-! ### The table of a task -/

theorem entryOf_spec {tid : Nat} {fd : Int} {entry : Nat × Nat}
    (found : entryOf tid fd = some entry) : entry ∈ entries ∧ entry = (tid, fd.toNat) := by
  unfold entryOf at found
  split at found
  · exact absurd found (by simp)
  split at found
  · exact absurd found (by simp)
  · obtain rfl := Option.some.inj found
    refine ⟨mem_entries.mpr ⟨?_, ?_⟩, rfl⟩
    · show tid < maxTasks
      omega
    · show fd.toNat < maxFdsPerTask
      omega

theorem entryOf_of_range {tid : Nat} {fd : Int} (within : tid < maxTasks)
    (range : ¬ (fd < 0 ∨ (maxFdsPerTask : Int) ≤ fd)) : entryOf tid fd = some (tid, fd.toNat) := by
  unfold entryOf
  rw [if_neg (by omega), if_neg range]

theorem taskGetFd_some {tid : Nat} {fd : Int} {gfd : Nat}
    (found : taskGetFd tables tid fd = some gfd) :
    ∃ entry, entryOf tid fd = some entry ∧ tables.fdTable entry = some gfd :=
  Option.bind_eq_some_iff.mp found

/-- A mapped descriptor goes to an entry of the caller that was free. -/
theorem taskMapFd_some {tid gfd fd : Nat} {credentials : Credentials}
    (within : tid < maxTasks) (mapped : taskMapFd tables tid credentials gfd = some (fd, next)) :
    (tid, fd) ∈ entries ∧ tables.fdTable (tid, fd) = none ∧
      next = tables.setEntry (tid, fd) (some gfd) := by
  unfold taskMapFd at mapped
  obtain ⟨_, mapped⟩ := Option.ite_none_right_eq_some.mp mapped
  split at mapped
  · rename_i vacantFd found
    obtain ⟨rfl, rfl⟩ := Prod.mk.inj (Option.some.inj mapped)
    have inside := List.mem_range.mp (List.mem_of_find?_eq_some found)
    have vacant := List.find?_some found
    have place : entryOf tid (vacantFd : Int) = some (tid, vacantFd) := by
      unfold entryOf
      rw [if_neg (by omega), if_neg (by omega), Int.toNat_natCast]
    unfold taskGetFd at vacant
    unfold taskSetFd
    rw [place] at vacant ⊢
    exact ⟨mem_entries.mpr ⟨within, inside⟩, beq_iff_eq.mp vacant, rfl⟩
  · exact absurd mapped (by simp)

theorem allocGlobalFd_some {gfd : Nat} (allocated : allocGlobalFd tables = some (gfd, next)) :
    gfd < maxGlobalFds ∧ (tables.globalFds gfd).inUse = false ∧
      next = tables.setGlobal gfd
        { tables.globalFds gfd with inUse := true, refCount := 1, offset := 0 } := by
  unfold allocGlobalFd at allocated
  split at allocated
  · rename_i idleFd found
    obtain ⟨rfl, rfl⟩ := Prod.mk.inj (Option.some.inj allocated)
    have inside := List.mem_range.mp (List.mem_of_find?_eq_some found)
    have idle := List.find?_some found
    exact ⟨inside, by simpa using idle, rfl⟩
  · exact absurd allocated (by simp)

/-! ### Opening descriptors -/

/-- A descriptor that was free is filled in, and not mapped yet. -/
structure Filled (tables filled : Tables) (gfd : Nat) : Prop where
  idle : (tables.globalFds gfd).inUse = false
  bounded : gfd < maxGlobalFds
  inUse : (filled.globalFds gfd).inUse = true
  refCount : (filled.globalFds gfd).refCount = 1
  type : ¬ IsEnd (filled.globalFds gfd).type
  others : ∀ other, other ≠ gfd → filled.globalFds other = tables.globalFds other
  pipes : filled.pipes = tables.pipes
  table : filled.fdTable = tables.fdTable

/-- Mapping a filled descriptor opens it. -/
theorem Filled.mapped {filled : Tables} {gfd tid fd : Nat} {credentials : Credentials}
    (fill : Filled tables filled gfd) (within : tid < maxTasks) (admitted : free tid)
    (mapped : taskMapFd filled tid credentials gfd = some (fd, next)) :
    Move free tables next := by
  obtain ⟨member, vacant, rfl⟩ := taskMapFd_some within mapped
  rw [fill.table] at vacant
  have table : update filled.fdTable (tid, fd) (some gfd) =
      update tables.fdTable (tid, fd) (some gfd) := by
    rw [fill.table]
  have opened : Opened tables (filled.setEntry (tid, fd) (some gfd)) gfd (tid, fd) :=
    ⟨fill.idle, fill.bounded, member, vacant, fill.inUse, fill.refCount, fill.type, fill.others,
      fill.pipes, table⟩
  exact .opened opened admitted

/-- A filled descriptor that is freed again leaves no trace. -/
theorem Filled.undone {filled : Tables} {gfd : Nat} (fill : Filled tables filled gfd)
    (freed : (next.globalFds gfd).inUse = false)
    (others : ∀ other, other ≠ gfd → next.globalFds other = filled.globalFds other)
    (pipes : next.pipes = filled.pipes) (table : next.fdTable = filled.fdTable) :
    Move free tables next := by
  refine .agree (agree_idle fill.idle freed (fun other different => ?_) (pipes.trans fill.pipes)
    (table.trans fill.table))
  rw [others other different, fill.others other different]

/-- Open, socket and accept are one move, when they fill in no end of a pipe. -/
theorem moves_openDescriptor (tables : Tables) {tid : Nat} (within : tid < maxTasks)
    (admitted : free tid) (credentials : Credentials) {fill : GlobalFd → GlobalFd}
    (live : ∀ descriptor, (fill descriptor).inUse = descriptor.inUse)
    (count : ∀ descriptor, (fill descriptor).refCount = descriptor.refCount)
    (type : ∀ descriptor, ¬ IsEnd (fill descriptor).type) :
    Moves free tables (openDescriptor tables tid credentials fill).1 := by
  unfold openDescriptor
  cases allocated : allocGlobalFd tables with
  | none => exact Moves.refl tables
  | some pair =>
    obtain ⟨gfd, fresh⟩ := pair
    obtain ⟨bounded, idle, rfl⟩ := allocGlobalFd_some allocated
    simp only
    generalize filledIs : Tables.setGlobal _ gfd (fill _) = filled
    have filledUp : Filled tables filled gfd := by
      rw [← filledIs]
      refine ⟨idle, bounded, ?_, ?_, ?_, fun other different => ?_, rfl, rfl⟩
      · rw [setGlobal_self, setGlobal_self, live]
      · rw [setGlobal_self, setGlobal_self, count]
      · rw [setGlobal_self]
        exact type _
      · rw [setGlobal_of_ne _ different, setGlobal_of_ne _ different]
    cases mapped : taskMapFd filled tid credentials gfd with
    | none =>
      have move : Move free tables (filled.freeGlobal gfd) := by
        refine filledUp.undone ?_ (fun other different => ?_) rfl rfl
        · show ((filled.setGlobal gfd _).globalFds gfd).inUse = false
          rw [setGlobal_self]
        · exact setGlobal_of_ne _ different _
      exact move.moves
    | some pair => exact (filledUp.mapped within admitted mapped).moves

theorem moves_doSysOpen (tables : Tables) {tid : Nat} (within : tid < maxTasks)
    (admitted : free tid) (credentials : Credentials) (node : Int) (isDir : Bool) (mode : Int) :
    Moves free tables (doSysOpen tables tid credentials node isDir mode).1 := by
  unfold doSysOpen
  split
  · exact Moves.refl tables
  · refine moves_openDescriptor tables within admitted credentials (fun _ => rfl) (fun _ => rfl) fun _ => ?_
    cases isDir <;> simp [IsEnd]

theorem moves_sockSocket (tables : Tables) {tid : Nat} (within : tid < maxTasks)
    (admitted : free tid) (credentials : Credentials) (type : Int) :
    Moves free tables (sockSocket tables tid credentials type).1 :=
  moves_openDescriptor tables within admitted credentials (fun _ => rfl) (fun _ => rfl)
    fun _ => by simp [IsEnd]

theorem moves_sockAccept (tables : Tables) {tid : Nat} (within : tid < maxTasks)
    (admitted : free tid) (credentials : Credentials) (child : Int) :
    Moves free tables (sockAccept tables tid credentials child).1 := by
  unfold sockAccept
  split
  · exact Moves.refl tables
  · exact moves_openDescriptor tables within admitted credentials (fun _ => rfl) (fun _ => rfl)
      fun _ => by simp [IsEnd]

/-! ### Pseudo-terminals -/

theorem ptyClaimGfd_some {pty gfd : Nat} {isMaster : Bool}
    (claimed : ptyClaimGfd tables pty isMaster = some (gfd, next)) :
    Filled tables next gfd := by
  unfold ptyClaimGfd at claimed
  split at claimed
  · exact absurd claimed (by simp)
  split at claimed
  · rename_i idleFd found
    obtain ⟨rfl, rfl⟩ := Prod.mk.inj (Option.some.inj claimed)
    have inside := List.mem_range.mp (List.mem_of_find?_eq_some found)
    have idle := List.find?_some found
    refine ⟨by simpa using idle, inside, ?_, ?_, ?_, fun other different => ?_, rfl, rfl⟩
    · rw [setGlobal_self]
    · rw [setGlobal_self]
    · rw [setGlobal_self]
      simp [IsEnd]
    · exact setGlobal_of_ne _ different _
  · exact absurd claimed (by simp)

theorem Filled.setPty {filled : Tables} {gfd : Nat} (fill : Filled tables filled gfd) (pty : Nat)
    (value : Pty) : Filled tables (filled.setPty pty value) gfd :=
  ⟨fill.idle, fill.bounded, fill.inUse, fill.refCount, fill.type, fill.others, fill.pipes,
    fill.table⟩

theorem Filled.setPty_before {filled : Tables} {gfd pty : Nat} {value : Pty}
    (fill : Filled (tables.setPty pty value) filled gfd) : Filled tables filled gfd :=
  ⟨fill.idle, fill.bounded, fill.inUse, fill.refCount, fill.type, fill.others, fill.pipes,
    fill.table⟩

/-- Mapping a claimed descriptor, or taking it back, is one move. -/
theorem Filled.ptyMapped {filled : Tables} {gfd tid : Nat} {credentials : Credentials}
    (fill : Filled tables filled gfd) (within : tid < maxTasks) (admitted : free tid) :
    Moves free tables (match taskMapFd filled tid credentials gfd with
      | none => (ptyUnclaim filled gfd, -1)
      | some (fd, mapped) => (mapped, (fd : Int))).1 := by
  cases mapped : taskMapFd filled tid credentials gfd with
  | some pair => exact (fill.mapped within admitted mapped).moves
  | none =>
    obtain ⟨pipes, table, others⟩ := ptyClose_shape filled gfd
    have move : Move free tables (ptyUnclaim filled gfd) := by
      refine fill.undone ?_ (fun other different => ?_) pipes table
      · show (((ptyClose filled gfd).setGlobal gfd _).globalFds gfd).inUse = false
        rw [setGlobal_self]
      · exact (setGlobal_of_ne _ different _).trans (others other different)
    exact move.moves

theorem moves_doSysPtyAlloc (tables : Tables) {tid : Nat} (within : tid < maxTasks)
    (admitted : free tid) (credentials : Credentials) :
    Moves free tables (doSysPtyAlloc tables tid credentials).1 := by
  unfold doSysPtyAlloc ptyAllocFd
  cases found : (List.range maxPtys).find? fun pty => !(tables.ptys pty).inUse with
  | none => exact Moves.refl tables
  | some pty =>
    simp only
    cases claimed : ptyClaimGfd (tables.setPty pty freshPty) pty true with
    | none =>
      have twice : (tables.setPty pty freshPty).setPty pty { freshPty with inUse := false } =
          tables.setPty pty { freshPty with inUse := false } := by
        unfold Tables.setPty
        simp only [update_idem]
      simp only [twice]
      exact (Move.agree (agree_setPty tables pty _)).moves
    | some pair =>
      obtain ⟨gfd, filled⟩ := pair
      have fill := ptyClaimGfd_some claimed
      exact (fill.setPty_before.setPty pty { freshPty with masterFd := gfd }).ptyMapped within
        admitted

theorem moves_doSysPtyOpen (tables : Tables) {tid : Nat} (within : tid < maxTasks)
    (admitted : free tid) (credentials : Credentials) (masterLfd : Int) :
    Moves free tables (doSysPtyOpen tables tid credentials masterLfd).1 := by
  unfold doSysPtyOpen
  split
  · exact Moves.refl tables
  split
  · exact Moves.refl tables
  · rename_i mgfd _ _
    cases opened : ptyOpenSlave tables mgfd with
    | none => exact Moves.refl tables
    | some pair =>
      obtain ⟨gfd, filled⟩ := pair
      unfold ptyOpenSlave at opened
      split at opened
      · exact absurd opened (by simp)
      simp only at opened
      split at opened
      · exact absurd opened (by simp)
      split at opened
      · exact absurd opened (by simp)
      · rename_i slaveFd claimedTables claimed
        obtain ⟨rfl, rfl⟩ := Prod.mk.inj (Option.some.inj opened)
        exact ((ptyClaimGfd_some claimed).setPty _ _).ptyMapped within admitted

/-! ### Closing and duplicating -/

theorem moves_doSysClose (consistent : Consistent tables spare building) (tid : Nat)
    (fd : Int) : Moves free tables (doSysClose tables tid fd).1 := by
  unfold doSysClose
  cases found : taskGetFd tables tid fd with
  | none => exact Moves.refl tables
  | some gfd =>
    obtain ⟨entry, place, naming⟩ := taskGetFd_some found
    simp only
    rw [if_pos (consistent.named entry gfd naming)]
    show Moves free tables (fdReleaseGlobal (taskSetFd tables tid fd none) gfd)
    unfold taskSetFd
    rw [place]
    exact (Move.release naming).moves

theorem moves_dropFd (consistent : Consistent tables spare building) (tid : Nat) (fd : Int) :
    Moves free tables (dropFd tables tid fd) := by
  unfold dropFd
  cases found : taskGetFd tables tid fd with
  | none => exact Moves.refl tables
  | some gfd =>
    obtain ⟨entry, place, naming⟩ := taskGetFd_some found
    have live := consistent.named entry gfd naming
    simp only
    rw [if_pos ⟨consistent.bounded gfd live, live⟩]
    unfold taskSetFd
    rw [place]
    exact (Move.release naming).moves

theorem fdReleaseGlobal_table (tables : Tables) (gfd : Nat) :
    (fdReleaseGlobal tables gfd).fdTable = tables.fdTable := by
  rcases fdReleaseGlobal_cases tables gfd with ⟨_, same⟩ | ⟨_, _, _, table, _⟩
  · rw [same]
    rfl
  · exact table

/-- Duplicating a descriptor releases the target, if it was open, and shares the source. -/
theorem moves_doSysDup2Tid (consistent : Consistent tables spare building) (current : Nat)
    (credentials : Credentials) {tid : Nat} (admitted : free tid) (oldfd newfd : Int) :
    Moves free tables (doSysDup2Tid tables current credentials tid oldfd newfd).1 := by
  unfold doSysDup2Tid
  by_cases badOld : oldfd < 0 ∨ (maxFdsPerTask : Int) ≤ oldfd
  · rw [if_pos badOld]
    exact Moves.refl tables
  by_cases badNew : newfd < 0 ∨ (maxFdsPerTask : Int) ≤ newfd
  · rw [if_neg badOld, if_pos badNew]
    exact Moves.refl tables
  by_cases same : oldfd = newfd
  · rw [if_neg badOld, if_neg badNew, if_pos same]
    exact Moves.refl tables
  rw [if_neg badOld, if_neg badNew, if_neg same]
  cases found : taskGetFd tables tid oldfd with
  | none => exact Moves.refl tables
  | some ogfd =>
    obtain ⟨source, place, naming⟩ := taskGetFd_some found
    obtain ⟨inside, rfl⟩ := entryOf_spec place
    have within : tid < maxTasks := (mem_entries.mp inside).1
    have target := entryOf_of_range within badNew
    have member := (entryOf_spec target).1
    have apart : (tid, oldfd.toNat) ≠ (tid, newfd.toNat) := by
      intro equal
      have := congrArg Prod.snd equal
      simp only at this
      omega
    have get : taskGetFd tables tid newfd = tables.fdTable (tid, newfd.toNat) := by
      unfold taskGetFd
      rw [target]
      rfl
    simp only
    split
    · exact Moves.refl tables
    split
    · exact Moves.refl tables
    have set : ∀ (value : Option Nat) (any : Tables),
        taskSetFd any tid newfd value = any.setEntry (tid, newfd.toNat) value := by
      intro value any
      unfold taskSetFd
      rw [target]
    simp only [set, get]
    cases old : tables.fdTable (tid, newfd.toNat) with
    | none => exact (Move.share member old naming admitted admitted).moves
    | some ngfd =>
      simp only
      rw [if_pos (consistent.named _ ngfd old)]
      have table : (fdReleaseGlobal (tables.setEntry (tid, newfd.toNat) none) ngfd).fdTable =
          update tables.fdTable (tid, newfd.toNat) none :=
        fdReleaseGlobal_table _ _
      have vacant : (fdReleaseGlobal (tables.setEntry (tid, newfd.toNat) none) ngfd).fdTable
          (tid, newfd.toNat) = none := by
        rw [table, update_self]
      have still : (fdReleaseGlobal (tables.setEntry (tid, newfd.toNat) none) ngfd).fdTable
          (tid, oldfd.toNat) = some ogfd := by
        rw [table, update_of_ne apart]
        exact naming
      exact (Move.release old).moves.tail (Move.share member vacant still admitted admitted)

end MectovOS.Fd
