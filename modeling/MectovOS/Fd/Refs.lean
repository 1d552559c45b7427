/-
This file proves that reference counts, entries and pipe slots agree in every
run in which the copies of tables run alone: the steps of a copy keep the
invariant, and so does every other step when no copy is under way.
-/

import MectovOS.Fd.Cleanup

namespace MectovOS.Fd

open Sched (maxTasks)
open Transition Function

variable {tables next : Tables} {spare building free : Nat → Prop}

/-! ### Copies -/

/-- Tables that differ in nothing are equal. -/
theorem Tables.eq_of_table {first second : Tables} (globals : first.globalFds = second.globalFds)
    (pipes : first.pipes = second.pipes) (ptys : first.ptys = second.ptys)
    (table : first.fdTable = second.fdTable) : first = second := by
  obtain ⟨globals', pipes', ptys', table'⟩ := first
  obtain rfl : globals' = second.globalFds := globals
  obtain rfl : pipes' = second.pipes := pipes
  obtain rfl : ptys' = second.ptys := ptys
  obtain rfl : table' = second.fdTable := table
  rfl

/-- Resetting the table of a task that has none of its entries set changes nothing. -/
theorem resetTable_empty {child : Nat}
    (empty : ∀ fd < maxFdsPerTask, tables.fdTable (child, fd) = none) :
    resetTable tables child = tables := by
  refine Tables.eq_of_table rfl rfl rfl ?_
  funext entry
  show (if entry.1 = child ∧ entry.2 < maxFdsPerTask then none else tables.fdTable entry) = _
  split
  · rename_i own
    obtain ⟨tid, fd⟩ := entry
    obtain ⟨rfl, range⟩ := own
    exact (empty fd range).symm
  · rfl

/-- Masking a fresh copy of a table undoes it. -/
theorem masked_copyTable {parent child : Nat} (isFork : Bool) (loaded : Option (Nat × Int))
    (empty : ∀ fd < maxFdsPerTask, tables.fdTable (child, fd) = none) :
    masked (copyTable tables parent child) ⟨isFork, parent, child, 0, loaded⟩ = tables := by
  refine Tables.eq_of_table rfl rfl rfl ?_
  funext entry
  show (if entry.1 = child ∧ 0 ≤ entry.2 ∧ entry.2 < maxFdsPerTask then none
    else if entry.1 = child ∧ entry.2 < maxFdsPerTask then _ else tables.fdTable entry) = _
  split
  · rename_i own
    obtain ⟨tid, fd⟩ := entry
    obtain ⟨rfl, _, range⟩ := own
    exact (empty fd range).symm
  · rename_i other
    exact if_neg fun own => other ⟨own.1, Nat.zero_le _, own.2⟩

theorem masked_empty {copy : Copy}
    (empty : ∀ fd < maxFdsPerTask, copy.nextFd ≤ fd → tables.fdTable (copy.child, fd) = none) :
    masked tables copy = tables := by
  refine Tables.eq_of_table rfl rfl rfl ?_
  funext entry
  show (if entry.1 = copy.child ∧ copy.nextFd ≤ entry.2 ∧ entry.2 < maxFdsPerTask then none
    else tables.fdTable entry) = _
  split
  · rename_i own
    obtain ⟨tid, fd⟩ := entry
    obtain ⟨rfl, reached, range⟩ := own
    exact (empty fd range reached).symm
  · rfl

/-- An entry of another task is not masked. -/
theorem masked_other {copy : Copy} {entry : Nat × Nat} (other : entry.1 ≠ copy.child) :
    (masked tables copy).fdTable entry = tables.fdTable entry :=
  if_neg fun own => other own.1

theorem masked_ahead {copy : Copy} {fd : Nat} (reached : copy.nextFd ≤ fd)
    (range : fd < maxFdsPerTask) : (masked tables copy).fdTable (copy.child, fd) = none :=
  if_pos ⟨rfl, reached, range⟩

/-- Starting a copy into an empty table keeps the invariant. -/
theorem Sound.claim {state : Descriptors} (sound : Sound state) (alone : state.copying = none)
    {parent child : Nat} (isFork : Bool) (parentReady : state.cleanups parent = none)
    (childRange : child < maxTasks) (apart : parent ≠ child)
    (empty : ∀ fd < maxFdsPerTask, state.tables.fdTable (child, fd) = none) :
    Sound { state with
      tables := if isFork then copyTable state.tables parent child else state.tables
      copying := some ⟨isFork, parent, child, 0, none⟩ } := by
  have consistent := sound.tables alone
  refine ⟨fun none' => absurd none' (by simp), fun copy same => ?_,
    fun tid rest stage busy => ?_, sound.distinct⟩
  · obtain rfl := Option.some.inj same
    have unmasked : masked (if isFork then copyTable state.tables parent child else state.tables)
        ⟨isFork, parent, child, 0, none⟩ = state.tables := by
      cases isFork with
      | true => exact masked_copyTable true none empty
      | false => exact masked_empty fun fd range _ => empty fd range
    refine ⟨?_, apart, parentReady, childRange, fun fd _ range => ?_, fun gfd count same' => ?_⟩
    · show Consistent (masked (if isFork then copyTable state.tables parent child
        else state.tables) _) state.Spare state.Building
      rw [unmasked]
      exact consistent
    · cases isFork with
      | true =>
        show (copyTable state.tables parent child).fdTable (child, fd) =
          (copyTable state.tables parent child).fdTable (parent, fd)
        have own : (copyTable state.tables parent child).fdTable (child, fd) =
            state.tables.fdTable (parent, fd) := if_pos ⟨rfl, range⟩
        have kept : (copyTable state.tables parent child).fdTable (parent, fd) =
            state.tables.fdTable (parent, fd) := if_neg fun both => apart both.1
        rw [own, kept]
      | false => exact empty fd range
    · exact absurd same' (by simp)
  · have cleaning := sound.cleaning tid rest stage busy
    have busy' : ¬ state.cleanups tid = none := by
      rw [busy]
      simp
    cases isFork with
    | false => exact cleaning
    | true =>
      have gentle : Gentle (fun tid => state.cleanups tid = none) state.tables
          (copyTable state.tables parent child) state.Spare := by
        refine ⟨fun gfd live _ => ⟨live, rfl, rfl⟩, fun gfd _ => ⟨rfl, rfl⟩,
          fun gfd _ _ entry naming => ?_⟩
        replace naming : (if entry.1 = child ∧ entry.2 < maxFdsPerTask then
          state.tables.fdTable (parent, entry.2) else state.tables.fdTable entry) = some gfd :=
          naming
        split at naming
        · exact Or.inr ⟨(parent, entry.2), parentReady, naming⟩
        · exact Or.inl naming
      exact cleaning.gentle gentle busy' (Descriptors.spare_of_holds busy)

/-- A copy reads the parent's entry, in its own table after a fork. -/
theorem Copying.source {state : Descriptors} {copy : Copy} (copying : Copying state copy)
    (range : copy.nextFd < maxFdsPerTask) :
    state.tables.fdTable copy.source = state.tables.fdTable (copy.parent, copy.nextFd) := by
  unfold Copy.source
  cases isFork : copy.isFork with
  | false => rfl
  | true =>
    have same := copying.ahead copy.nextFd (Nat.le_refl _) range
    rw [isFork] at same
    exact same

/-- A named descriptor of the parent is in use. -/
theorem Copying.live {state : Descriptors} {copy : Copy} (copying : Copying state copy) {gfd : Nat}
    (naming : state.tables.fdTable (copy.parent, copy.nextFd) = some gfd) :
    (state.tables.globalFds gfd).inUse = true ∧ gfd < maxGlobalFds := by
  have naming' : (masked state.tables copy).fdTable (copy.parent, copy.nextFd) = some gfd := by
    rw [masked_other copying.apart]
    exact naming
  have live := copying.consistent.named _ gfd naming'
  exact ⟨live, copying.consistent.bounded gfd live⟩

/-- The load of a copy keeps the invariant. -/
theorem Sound.load {state : Descriptors} (sound : Sound state) {copy : Copy}
    (busy : state.copying = some copy) (empty : copy.loaded = none) :
    Sound (state.afterLoad copy) := by
  have copying := sound.copying copy busy
  unfold Descriptors.afterLoad
  by_cases done : maxFdsPerTask ≤ copy.nextFd
  · rw [if_pos done]
    refine ⟨fun _ => ?_, fun other same => absurd same (by simp), sound.cleaning, sound.distinct⟩
    have unmasked : masked state.tables copy = state.tables :=
      masked_empty fun fd range reached => absurd range (by omega)
    have consistent := copying.consistent
    rw [unmasked] at consistent
    exact consistent
  rw [if_neg done]
  have range : copy.nextFd < maxFdsPerTask := Nat.lt_of_not_le done
  have source := copying.source range
  cases named : state.tables.fdTable (copy.parent, copy.nextFd) with
  | some gfd =>
    obtain ⟨live, bounded⟩ := copying.live named
    have loaded : copyLoad state.tables copy.source =
        some (gfd, (state.tables.globalFds gfd).refCount) := by
      unfold copyLoad
      rw [source, named]
      exact if_pos ⟨bounded, live⟩
    rw [loaded]
    refine ⟨fun none' => absurd none' (by simp), fun other same => ?_, sound.cleaning,
      sound.distinct⟩
    obtain rfl := Option.some.inj same
    refine ⟨copying.consistent, copying.apart, copying.parentReady, copying.childRange,
      copying.ahead, fun gfd' count same' => ?_⟩
    obtain ⟨rfl, rfl⟩ := Prod.mk.inj (Option.some.inj same')
    exact ⟨range, named, rfl⟩
  | none =>
    have loaded : copyLoad state.tables copy.source = none := by
      unfold copyLoad
      rw [source, named]
    rw [loaded]
    have empty' : state.tables.fdTable (copy.child, copy.nextFd) = none := by
      rw [copying.ahead copy.nextFd (Nat.le_refl _) range, named]
      exact ite_self _
    have same : masked state.tables { copy with nextFd := copy.nextFd + 1 } =
        masked state.tables copy := by
      refine Tables.eq_of_table rfl rfl rfl ?_
      funext entry
      obtain ⟨tid, fd⟩ := entry
      show (if tid = copy.child ∧ copy.nextFd + 1 ≤ fd ∧ fd < maxFdsPerTask then none
        else state.tables.fdTable (tid, fd)) =
        if tid = copy.child ∧ copy.nextFd ≤ fd ∧ fd < maxFdsPerTask then none
        else state.tables.fdTable (tid, fd)
      by_cases here : tid = copy.child ∧ fd = copy.nextFd
      · obtain ⟨rfl, rfl⟩ := here
        rw [if_neg (by omega), if_pos ⟨rfl, Nat.le_refl _, range⟩]
        exact empty'
      · refine if_congr (and_congr_right fun own => ?_) rfl rfl
        have apart : fd ≠ copy.nextFd := fun is => here ⟨own, is⟩
        omega
    refine ⟨fun none' => absurd none' (by simp), fun other equal => ?_, sound.cleaning,
      sound.distinct⟩
    obtain rfl := Option.some.inj equal
    refine ⟨?_, copying.apart, copying.parentReady, copying.childRange,
      fun fd reached => copying.ahead fd (by simp only at reached; omega), fun gfd count same' => ?_⟩
    · show Consistent (masked state.tables { copy with nextFd := copy.nextFd + 1 }) state.Spare
        state.Building
      rw [same]
      exact copying.consistent
    · replace same' : copy.loaded = some (gfd, count) := same'
      rw [empty] at same'
      exact absurd same' (by simp)

/-- The store of a copy keeps the invariant. -/
theorem Sound.store {state : Descriptors} (sound : Sound state) {copy : Copy} {gfd : Nat}
    {count : Int} (busy : state.copying = some copy) (loaded : copy.loaded = some (gfd, count)) :
    Sound (state.afterStore copy gfd count) := by
  have copying := sound.copying copy busy
  obtain ⟨range, named, same⟩ := copying.loaded gfd count loaded
  have member : (copy.child, copy.nextFd) ∈ entries :=
    mem_entries.mpr ⟨copying.childRange, range⟩
  have named' : (masked state.tables copy).fdTable (copy.parent, copy.nextFd) = some gfd := by
    rw [masked_other copying.apart]
    exact named
  have shared := copying.consistent.share member (masked_ahead (Nat.le_refl _) range) named'
  have stored : masked (copyStore state.tables (copy.child, copy.nextFd) gfd count)
      { copy with nextFd := copy.nextFd + 1, loaded := none } =
      ((masked state.tables copy).setGlobal gfd { (masked state.tables copy).globalFds gfd with
        refCount := ((masked state.tables copy).globalFds gfd).refCount + 1 }).setEntry
        (copy.child, copy.nextFd) (some gfd) := by
    refine Tables.eq_of_table ?_ rfl rfl ?_
    · show update state.tables.globalFds gfd _ = update state.tables.globalFds gfd _
      rw [← same]
      rfl
    · funext entry
      obtain ⟨tid, fd⟩ := entry
      show (if tid = copy.child ∧ copy.nextFd + 1 ≤ fd ∧ fd < maxFdsPerTask then none
        else update state.tables.fdTable (copy.child, copy.nextFd) (some gfd) (tid, fd)) =
        update (masked state.tables copy).fdTable (copy.child, copy.nextFd) (some gfd)
          (tid, fd)
      rcases eq_or_ne ((tid, fd) : Nat × Nat) (copy.child, copy.nextFd) with here | different
      · obtain ⟨rfl, rfl⟩ := Prod.mk.inj here
        rw [if_neg (by omega), update_self, update_self]
      · rw [update_of_ne different, update_of_ne different]
        refine if_congr (and_congr_right fun own => ?_) rfl rfl
        have apart : fd ≠ copy.nextFd := fun is => different (by rw [own, is])
        omega
  refine ⟨fun none' => absurd none' (by simp [Descriptors.afterStore]), fun other equal => ?_,
    fun tid rest stage busy' => ?_, sound.distinct⟩
  · obtain rfl := Option.some.inj equal
    refine ⟨?_, copying.apart, copying.parentReady, copying.childRange, fun fd reached range' => ?_,
      fun gfd' count' same' => absurd same' (by simp)⟩
    · show Consistent (masked (copyStore state.tables (copy.child, copy.nextFd) gfd count)
        { copy with nextFd := copy.nextFd + 1, loaded := none }) state.Spare state.Building
      rw [stored]
      exact shared
    · replace reached : copy.nextFd + 1 ≤ fd := reached
      show update state.tables.fdTable (copy.child, copy.nextFd) (some gfd)
        (copy.child, fd) = if copy.isFork then update state.tables.fdTable
          (copy.child, copy.nextFd) (some gfd) (copy.parent, fd) else none
      have beyond : ((copy.child, fd) : Nat × Nat) ≠ (copy.child, copy.nextFd) := by
        intro is
        have := congrArg Prod.snd is
        simp only at this
        omega
      have elsewhere : ((copy.parent, fd) : Nat × Nat) ≠ (copy.child, copy.nextFd) :=
        fun is => copying.apart (congrArg Prod.fst is)
      rw [update_of_ne beyond, update_of_ne elsewhere]
      exact copying.ahead fd (by omega) range'
  · replace busy' : state.cleanups tid = some (rest, stage) := busy'
    have busyTid : ¬ state.cleanups tid = none := by
      rw [busy']
      simp
    have shape : SameShape state.tables
        (copyStore state.tables (copy.child, copy.nextFd) gfd count) :=
      (sameShape_setEntry state.tables _ _).trans (sameShape_refCount _ gfd _)
    have gentle : Gentle (fun tid => state.cleanups tid = none) state.tables
        (copyStore state.tables (copy.child, copy.nextFd) gfd count) state.Spare := by
      refine ⟨fun other live _ => ?_, fun other held => ?_, fun other _ _ entry naming => ?_⟩
      · rw [shape.inUse] at live
        exact ⟨live, (shape.type other live).symm, (shape.pipeId other live).symm⟩
      · have live := (copying.consistent.spared other held).1
        exact ⟨shape.type other live, shape.pipeId other live⟩
      · replace naming : update state.tables.fdTable (copy.child, copy.nextFd) (some gfd)
          entry = some other := naming
        rcases eq_or_ne entry (copy.child, copy.nextFd) with rfl | different
        · rw [update_self] at naming
          obtain rfl := Option.some.inj naming
          exact Or.inr ⟨(copy.parent, copy.nextFd), copying.parentReady, named⟩
        · rw [update_of_ne different] at naming
          exact Or.inl naming
    exact (sound.cleaning tid rest stage busy').gentle gentle busyTid
      (Descriptors.spare_of_holds busy')

/-! ### Runs -/

/-- Every step keeps the invariant, as long as copies run alone. -/
theorem Sound.step {state next : Descriptors} {label : Label} (sound : Sound state)
    (alone : Alone state label) (taken : step state label = some next) : Sound next := by
  cases step_taken taken with
  | call ready ready' =>
    rename_i tid call
    rw [state.ready_iff] at ready ready'
    exact sound.moves alone (call.moves (sound.tables alone) ready.1 ready.2 ready'.2)
  | pipe ready =>
    rename_i tid credentials
    rw [state.ready_iff] at ready
    exact sound.pipe ready.2 alone (doSysPipe_result state.tables ready.1 credentials)
  | cleanup busy => exact sound.cleanup alone busy
  | fork parentReady childReady idle apart =>
    rw [state.ready_iff] at parentReady childReady
    exact sound.claim idle true parentReady.2 childReady.1 apart alone
  | spawn parentReady childReady idle apart =>
    rw [state.ready_iff] at parentReady childReady
    rw [resetTable_empty alone]
    exact sound.claim idle false parentReady.2 childReady.1 apart alone
  | create =>
    rw [resetTable_empty alone]
    exact sound
  | load busy empty => exact sound.load busy empty
  | store busy loaded => exact sound.store busy loaded

theorem sound_booted : Sound booted where
  tables _ := by
    have idle : ∀ gfd, (booted.tables.globalFds gfd).inUse ≠ true := by simp [booted, noTables]
    have free : ∀ pipe, (booted.tables.pipes pipe).inUse ≠ true := by simp [booted, noTables]
    have empty : ∀ entry gfd, booted.tables.fdTable entry ≠ some gfd := by simp [booted, noTables]
    have none' : ∀ tid held, booted.cleanups tid ≠ some held := by simp [booted]
    refine ⟨fun gfd live => absurd live (idle gfd), fun gfd live => absurd live (idle gfd),
      fun gfd held => ?_, fun gfd held => ?_, fun entry gfd naming => absurd naming (empty entry gfd),
      fun entry gfd naming => absurd naming (empty entry gfd),
      fun gfd live => absurd live (idle gfd), fun gfd _ live => absurd live (idle gfd),
      fun pipe live => absurd live (free pipe), fun pipe live => absurd live (free pipe),
      fun pipe pending => ?_, fun gfd live => absurd live (idle gfd)⟩
    · obtain ⟨tid, rest, stage, busy, _⟩ := held
      exact absurd busy (none' tid (rest, stage))
    · obtain ⟨tid, rest, stage, busy, _⟩ := held
      exact absurd busy (none' tid (rest, stage))
    · obtain ⟨tid, rest, stage, busy, _⟩ := pending
      exact absurd busy (none' tid (rest, stage))
  copying _ busy := absurd busy (by simp [booted])
  cleaning _ _ _ busy := absurd busy (by simp [booted])
  distinct _ _ _ _ _ _ busy := absurd busy (by simp [booted])

/-- In every run whose copies of tables run alone and go to slots that hold no descriptor, the
tables are settled whenever no failed pipe call and no copy is half done. -/
theorem descriptors_settled {state : Descriptors} (reachable : fdSystem.Reachable Alone state)
    (quiet : state.Quiet) : Settled state.tables := by
  have initially : ∀ start, fdSystem.init start → Sound start := by
    intro start initial
    obtain rfl : start = booted := initial
    exact sound_booted
  have sound : Sound state := reachable.invariant Sound initially
    fun _ _ _ sound alone taken => sound.step alone taken
  refine (sound.tables quiet.2).settled' ?_ ?_
  · rintro gfd ⟨tid, rest, stage, busy, _⟩
    rw [quiet.1 tid] at busy
    exact absurd busy (by simp)
  · rintro pipe ⟨tid, rest, stage, busy, _⟩
    rw [quiet.1 tid] at busy
    exact absurd busy (by simp)

/-- Task 1 opens a file and a pipe. -/
theorem descriptors_settled_pipe : ∃ state : Descriptors,
    (state.tables.pipes 0).inUse = true ∧ Settled state.tables := by
  have initial : fdSystem.Reachable Alone booted := .init rfl
  have opened := initial.step (show Alone booted (.call 1 (.openFile ⟨0, 32⟩ 5 false 0)) from rfl)
    (show step booted _ = some _ from rfl)
  have piped := opened.step (show Alone _ (.pipe 1 ⟨0, 32⟩) from rfl)
    (show step _ _ = some _ from rfl)
  exact ⟨_, by decide +kernel, descriptors_settled piped ⟨fun _ => rfl, rfl⟩⟩

/-- Is the step the first stretch of a pipe call? -/
def Label.isPipe : Label → Bool
  | .pipe _ _ => true
  | _ => false

/-- No cleanup starts without a pipe call. -/
theorem step_cleanups {state next : Descriptors} {label : Label} (calm : label.isPipe = false)
    (free : ∀ tid, state.cleanups tid = none) (taken : step state label = some next) (tid : Nat) :
    next.cleanups tid = none := by
  cases step_taken taken with
  | call _ _ => exact free tid
  | pipe _ => exact absurd calm (by simp [Label.isPipe])
  | cleanup busy =>
    rw [free] at busy
    exact absurd busy (by simp)
  | fork _ _ _ _ => exact free tid
  | spawn _ _ _ _ => exact free tid
  | create => exact free tid
  | load _ _ =>
    rename_i copy _ _
    unfold Descriptors.afterLoad
    split
    · exact free tid
    split
    · exact free tid
    · exact free tid
  | store _ _ => exact free tid

theorem execute_cleanups {state final : Descriptors} {labels : List Label}
    (calm : ∀ label ∈ labels, label.isPipe = false) (free : ∀ tid, state.cleanups tid = none)
    (run : execute step state labels = some final) (tid : Nat) : final.cleanups tid = none := by
  induction labels generalizing state with
  | nil =>
    obtain rfl := Option.some.inj run
    exact free tid
  | cons label rest inductionHypothesis =>
    obtain ⟨next, taken, later⟩ := Option.bind_eq_some_iff.mp run
    exact inductionHypothesis (fun other member => calm other (List.mem_cons_of_mem _ member))
      (fun other => step_cleanups (calm label List.mem_cons_self) free taken other) later

/-- Task 2 duplicates the descriptor it shares with task 1 while task 1 forks: the fork loads a
count of two and stores three over the three that task 2 just made. -/
def racingFork : List Label :=
  let rest : List Label := List.replicate 32 Label.load
  let first : List Label :=
    [.call 1 (.openFile ⟨0, 32⟩ 5 false 0), .claim .fork 1 2, .load, .store]
  let second : List Label :=
    [.claim .fork 1 3, .load, .call 2 (.dup2 ⟨0, 32⟩ 2 0 1), .store]
  let closes : List Label := [.call 2 (.close 0), .call 2 (.close 1), .call 1 (.close 0)]
  first ++ rest ++ second ++ rest ++ closes

theorem descriptors_racingFork :
    ¬ ∀ state : Descriptors, fdSystem.Reachable anyStep state → state.Quiet →
      Settled state.tables := by
  intro settled
  have run : (execute step booted racingFork).map (fun state =>
      (state.tables.fdTable (3, 0), (state.tables.globalFds 0).inUse, state.copying.isNone)) =
      some (some 0, false, true) := by
    decide +kernel
  obtain ⟨final, ran, shows⟩ := Option.map_eq_some_iff.mp run
  obtain ⟨naming, rest⟩ := Prod.mk.inj shows
  obtain ⟨freed, idle⟩ := Prod.mk.inj rest
  have quiet : final.Quiet :=
    ⟨execute_cleanups (by decide) (fun _ => rfl) ran, Option.isNone_iff_eq_none.mp idle⟩
  have live := (settled final (reachable_execute (.init rfl) ran) quiet).named (3, 0) 0 naming
  rw [freed] at live
  exact absurd live (by simp)

end MectovOS.Fd
