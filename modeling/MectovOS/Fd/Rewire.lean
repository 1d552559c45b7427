/-
This file models `task_rewire_fds` of src/sys/fd.c, which leaves a spawned child
its standard input and output and closes everything else, and proves when the
two ends are the descriptors that were asked for. The two duplications come one
after the other, so the first may overwrite the descriptor the second is to
copy; and one whose source is closed leaves its target as it was inherited.
-/

import MectovOS.Fd.Refs

namespace MectovOS.Fd

open Sched (maxTasks)
open Transition Function

variable {tables next : Tables} {spare building : Nat → Prop}

/-! ### Rewiring -/

/-- One turn of the loop that closes what was not wired. -/
def dropUnwired (child : Nat) (inFd outFd : Int) (tables : Tables) (fd : Nat) : Tables :=
  if fd = 0 ∧ 0 ≤ inFd then tables
  else if fd = 1 ∧ 0 ≤ outFd then tables
  else dropFd tables child fd

/-- `task_rewire_fds`, called by the task `current`. -/
def taskRewireFds (tables : Tables) (current : Nat) (credentials : Credentials) (child : Nat)
    (inFd outFd : Int) : Tables :=
  let stdin := if 0 ≤ inFd ∧ inFd ≠ 0 then
    (doSysDup2Tid tables current credentials child inFd 0).1 else tables
  let stdout := if 0 ≤ outFd ∧ outFd ≠ 1 then
    (doSysDup2Tid stdin current credentials child outFd 1).1 else stdin
  (List.range maxFdsPerTask).foldl (dropUnwired child inFd outFd) stdout

/-- The global descriptor that a local number names, or nothing for a negative number. -/
def Tables.wanted (tables : Tables) (tid : Nat) (fd : Int) : Option Nat :=
  if fd < 0 then none else tables.fdTable (tid, fd.toNat)

/-- What a rewiring is to do: the two ends name what the given numbers named, every other entry of
the child is closed, other tasks keep theirs, and a descriptor stays in use, with the right count,
as long as an entry names it. -/
structure Rewired (tables next : Tables) (spare : Nat → Prop) (child : Nat) (inFd outFd : Int) :
    Prop where
  stdin : next.fdTable (child, 0) = tables.wanted child inFd
  stdout : next.fdTable (child, 1) = tables.wanted child outFd
  closed : ∀ fd, 2 ≤ fd → fd < maxFdsPerTask → next.fdTable (child, fd) = none
  others : ∀ entry, entry.1 ≠ child → next.fdTable entry = tables.fdTable entry
  counted : ∀ gfd, ¬ spare gfd → ((next.globalFds gfd).inUse = true ↔ 0 < names next gfd) ∧
    ((next.globalFds gfd).inUse = true → (next.globalFds gfd).refCount = names next gfd)

/-! ### Entries behind each step -/

/-- Duplicating an open descriptor of another task sets one entry, and a closed one none. -/
theorem doSysDup2Tid_table (consistent : Consistent tables spare building) {current tid : Nat}
    (within : tid < maxTasks) (other : tid ≠ current) (credentials : Credentials)
    {oldfd newfd : Int} (oldRange : ¬ (oldfd < 0 ∨ (maxFdsPerTask : Int) ≤ oldfd))
    (newRange : ¬ (newfd < 0 ∨ (maxFdsPerTask : Int) ≤ newfd)) (apart : oldfd ≠ newfd) :
    (doSysDup2Tid tables current credentials tid oldfd newfd).1.fdTable =
      if tables.fdTable (tid, oldfd.toNat) = none then tables.fdTable
      else update tables.fdTable (tid, newfd.toNat)
        (tables.fdTable (tid, oldfd.toNat)) := by
  have source := entryOf_of_range within oldRange
  have target := entryOf_of_range within newRange
  have get : ∀ fd : Int, entryOf tid fd = some (tid, fd.toNat) →
      taskGetFd tables tid fd = tables.fdTable (tid, fd.toNat) := by
    intro fd place
    unfold taskGetFd
    rw [place]
    rfl
  have set : ∀ (value : Option Nat) (any : Tables),
      taskSetFd any tid newfd value = any.setEntry (tid, newfd.toNat) value := by
    intro value any
    unfold taskSetFd
    rw [target]
  unfold doSysDup2Tid
  rw [if_neg oldRange, if_neg newRange, if_neg apart, get oldfd source, get newfd target]
  cases old : tables.fdTable (tid, oldfd.toNat) with
  | none => rw [if_pos rfl]
  | some ogfd =>
    rw [if_neg (Option.some_ne_none ogfd)]
    dsimp only
    rw [if_neg (by rw [consistent.named _ ogfd old]; simp), if_neg fun limited => other limited.1]
    simp only [set]
    show update (Tables.setGlobal _ _ _).fdTable (tid, newfd.toNat) (some ogfd) = _
    cases replaced : tables.fdTable (tid, newfd.toNat) with
    | none => rfl
    | some ngfd =>
      dsimp only
      rw [if_pos (consistent.named _ ngfd replaced)]
      show update (fdReleaseGlobal _ ngfd).fdTable _ _ = _
      rw [fdReleaseGlobal_table]
      exact update_idem _ _ _

/-- Closing an entry of the child clears it. -/
theorem dropFd_table (consistent : Consistent tables spare building) {tid fd : Nat}
    (within : tid < maxTasks) (range : fd < maxFdsPerTask) :
    (dropFd tables tid fd).fdTable = update tables.fdTable (tid, fd) none := by
  have place : entryOf tid (fd : Int) = some (tid, fd) :=
    entryOf_of_range within (by omega)
  have get : taskGetFd tables tid fd = tables.fdTable (tid, fd) := by
    unfold taskGetFd
    rw [place]
    rfl
  unfold dropFd
  rw [get]
  cases named : tables.fdTable (tid, fd) with
  | none =>
    dsimp only
    rw [← named, update_eq_self]
  | some gfd =>
    have live := consistent.named _ gfd named
    dsimp only
    rw [if_pos ⟨consistent.bounded gfd live, live⟩, fdReleaseGlobal_table]
    unfold taskSetFd
    rw [place]
    rfl

/-- Which entries of the child the loop closes. -/
def unwired (inFd outFd : Int) (fd : Nat) : Prop :=
  ¬ (fd = 0 ∧ 0 ≤ inFd) ∧ ¬ (fd = 1 ∧ 0 ≤ outFd)

/-- The loop closes what is not wired, and keeps the tables consistent. -/
theorem foldl_dropUnwired (consistent : Consistent tables spare building) {child : Nat}
    (within : child < maxTasks) (inFd outFd : Int) (fds : List Nat)
    (range : ∀ fd ∈ fds, fd < maxFdsPerTask) :
    Consistent (fds.foldl (dropUnwired child inFd outFd) tables) spare building ∧
      (∀ fd ∈ fds, unwired inFd outFd fd →
        (fds.foldl (dropUnwired child inFd outFd) tables).fdTable (child, fd) = none) ∧
      ∀ entry, (∀ fd ∈ fds, unwired inFd outFd fd → entry ≠ (child, fd)) →
        (fds.foldl (dropUnwired child inFd outFd) tables).fdTable entry =
          tables.fdTable entry := by
  induction fds generalizing tables with
  | nil =>
    exact ⟨consistent, fun fd member => absurd member List.not_mem_nil, fun _ _ => rfl⟩
  | cons first rest inductionHypothesis =>
    have inside := range first List.mem_cons_self
    have step : Consistent (dropUnwired child inFd outFd tables first) spare building ∧
        (unwired inFd outFd first → (dropUnwired child inFd outFd tables first).fdTable =
          update tables.fdTable (child, first) none) ∧
        (¬ unwired inFd outFd first → dropUnwired child inFd outFd tables first = tables) := by
      unfold dropUnwired unwired
      by_cases input : first = 0 ∧ 0 ≤ inFd
      · rw [if_pos input]
        exact ⟨consistent, fun open' => absurd input open'.1, fun _ => rfl⟩
      by_cases output : first = 1 ∧ 0 ≤ outFd
      · rw [if_neg input, if_pos output]
        exact ⟨consistent, fun open' => absurd output open'.2, fun _ => rfl⟩
      · rw [if_neg input, if_neg output]
        exact ⟨consistent.moves (@moves_dropFd tables spare building (fun _ => True) consistent child
            first),
          fun _ => dropFd_table consistent within inside, fun wired => absurd ⟨input, output⟩ wired⟩
    rw [List.foldl_cons]
    generalize dropUnwired child inFd outFd tables first = after at step ⊢
    obtain ⟨consistent', cleared, kept⟩ := step
    obtain ⟨consistent'', closed, others⟩ := inductionHypothesis consistent'
      fun fd member => range fd (List.mem_cons_of_mem first member)
    refine ⟨consistent'', fun fd member open' => ?_, fun entry apart => ?_⟩
    · by_cases later : fd ∈ rest
      · exact closed fd later open'
      · obtain rfl : fd = first := (List.mem_cons.mp member).resolve_right later
        rw [others (child, fd) fun other member' _ same =>
          later ((Prod.mk.inj same).2 ▸ member'), cleared open', update_self]
    · rw [others entry fun fd member open' => apart fd (List.mem_cons_of_mem first member) open']
      by_cases open' : unwired inFd outFd first
      · rw [cleared open', update_of_ne (apart first List.mem_cons_self open')]
      · rw [kept open']

/-- The entries after one end is wired: nothing changes when the source is closed. -/
def wiredTable (table : Nat × Nat → Option Nat) (child : Nat) (source : Int) (target : Nat) :
    Nat × Nat → Option Nat :=
  if 0 ≤ source ∧ source ≠ target ∧ table (child, source.toNat) ≠ none then
    update table (child, target) (table (child, source.toNat))
  else table

/-- One of the two duplications. -/
theorem wired_spec (consistent : Consistent tables spare building) {current child : Nat}
    (within : child < maxTasks) (other : child ≠ current) (credentials : Credentials)
    {source : Int} (range : source < maxFdsPerTask) {target : Nat}
    (inside : target < maxFdsPerTask)
    (wired : next = if 0 ≤ source ∧ source ≠ target then
      (doSysDup2Tid tables current credentials child source target).1 else tables) :
    Consistent next spare building ∧
      next.fdTable = wiredTable tables.fdTable child source target := by
  unfold wiredTable
  by_cases given : 0 ≤ source ∧ source ≠ target
  · rw [if_pos given] at wired
    rw [wired]
    refine ⟨consistent.moves (@moves_doSysDup2Tid tables spare building (fun _ => True) consistent
      current credentials child trivial source target), ?_⟩
    rw [doSysDup2Tid_table consistent within other credentials (by omega) (by omega) given.2,
      Int.toNat_natCast]
    by_cases shut : tables.fdTable (child, source.toNat) = none
    · rw [if_pos shut, if_neg fun all => all.2.2 shut]
    · rw [if_neg shut, if_pos ⟨given.1, given.2, shut⟩]
  · rw [if_neg given] at wired
    rw [wired, if_neg fun all => given ⟨all.1, all.2.1⟩]
    exact ⟨consistent, rfl⟩

/-- The target of a wired end, and what the other entries are. -/
theorem wiredTable_self (table : Nat × Nat → Option Nat) (child : Nat) (source : Int)
    (target : Nat) : wiredTable table child source target (child, target) =
      if 0 ≤ source ∧ source ≠ target ∧ table (child, source.toNat) ≠ none then
        table (child, source.toNat)
      else table (child, target) := by
  unfold wiredTable
  split
  · rw [update_self]
  · rfl

theorem wiredTable_other (table : Nat × Nat → Option Nat) {child target : Nat} (source : Int)
    {entry : Nat × Nat} (different : entry ≠ (child, target)) :
    wiredTable table child source target entry = table entry := by
  unfold wiredTable
  split
  · rw [update_of_ne different]
  · rfl

/-- What `task_rewire_fds` makes of the entries. -/
theorem taskRewireFds_table (consistent : Consistent tables spare building) {current child : Nat}
    (within : child < maxTasks) (other : child ≠ current) (credentials : Credentials)
    {inFd outFd : Int} (inRange : inFd < maxFdsPerTask) (outRange : outFd < maxFdsPerTask)
    (rewired : next = taskRewireFds tables current credentials child inFd outFd) :
    Consistent next spare building ∧
      (∀ fd < maxFdsPerTask, next.fdTable (child, fd) =
        if (fd = 0 ∧ 0 ≤ inFd) ∨ (fd = 1 ∧ 0 ≤ outFd) then
          wiredTable (wiredTable tables.fdTable child inFd 0) child outFd 1 (child, fd)
        else none) ∧
      ∀ entry, entry.1 ≠ child → next.fdTable entry = tables.fdTable entry := by
  unfold taskRewireFds at rewired
  dsimp only at rewired
  generalize stdin : (if 0 ≤ inFd ∧ inFd ≠ 0 then
    (doSysDup2Tid tables current credentials child inFd 0).1 else tables) = first at rewired
  generalize stdout : (if 0 ≤ outFd ∧ outFd ≠ 1 then
    (doSysDup2Tid first current credentials child outFd 1).1 else first) = second at rewired
  obtain ⟨consistent', table⟩ := wired_spec consistent within other credentials inRange
    (show 0 < maxFdsPerTask by decide) stdin.symm
  obtain ⟨consistent'', table'⟩ := wired_spec consistent' within other credentials outRange
    (show 1 < maxFdsPerTask by decide) stdout.symm
  obtain ⟨kept, closed, others⟩ := foldl_dropUnwired consistent'' within inFd outFd
    (List.range maxFdsPerTask) fun fd member => List.mem_range.mp member
  rw [← rewired] at kept closed others
  rw [table'] at others
  rw [table] at others
  refine ⟨kept, fun fd range => ?_, fun entry foreign => ?_⟩
  · by_cases wired : (fd = 0 ∧ 0 ≤ inFd) ∨ (fd = 1 ∧ 0 ≤ outFd)
    · rw [if_pos wired, others (child, fd)]
      rintro other _ open' same
      obtain rfl := (Prod.mk.inj same).2
      exact wired.elim open'.1 open'.2
    · rw [if_neg wired]
      exact closed fd (List.mem_range.mpr range)
        ⟨fun input => wired (Or.inl input), fun output => wired (Or.inr output)⟩
  · have apart : ∀ fd, entry ≠ (child, fd) := fun fd same => foreign (congrArg Prod.fst same)
    rw [others entry fun fd _ _ => apart fd, wiredTable_other _ _ (apart 1),
      wiredTable_other _ _ (apart 0)]

/-! ### When both ends are right -/

/-- The two ends are there to be wired: one that is given is open, unless the end it is to replace
is closed as well, and the first does not overwrite the second. -/
structure Wirable (tables : Tables) (child : Nat) (inFd outFd : Int) : Prop where
  input : 0 < inFd → tables.wanted child inFd = none → tables.fdTable (child, 0) = none
  output : 0 ≤ outFd → outFd ≠ 1 → tables.wanted child outFd = none →
    tables.fdTable (child, 1) = none
  clash : 0 < inFd → outFd = 0 → tables.wanted child inFd ≠ none →
    tables.fdTable (child, 0) = tables.wanted child inFd

theorem wanted_of_nonneg (tables : Tables) (child : Nat) {fd : Int} (given : 0 ≤ fd) :
    tables.wanted child fd = tables.fdTable (child, fd.toNat) := if_neg (by omega)

/-- The standard input is right when its source is open, or nothing was inherited. -/
theorem stdin_iff (tables : Tables) (child : Nat) (inFd outFd : Int) :
    (if ((0 : Nat) = 0 ∧ 0 ≤ inFd) ∨ ((0 : Nat) = 1 ∧ 0 ≤ outFd) then
      wiredTable (wiredTable tables.fdTable child inFd 0) child outFd 1 (child, 0)
      else none) = tables.wanted child inFd ↔
      (0 < inFd → tables.wanted child inFd = none → tables.fdTable (child, 0) = none) := by
  by_cases given : 0 ≤ inFd
  · rw [if_pos (Or.inl ⟨rfl, given⟩), wiredTable_other _ _ (by simp), wiredTable_self,
      wanted_of_nonneg tables child given]
    rcases eq_or_ne inFd 0 with rfl | moved
    · simp
    · have positive : 0 < inFd := by omega
      by_cases shut : tables.fdTable (child, inFd.toNat) = none
      · rw [if_neg fun all => all.2.2 shut, shut]
        exact ⟨fun none' _ _ => none', fun closed => closed positive rfl⟩
      · rw [if_pos ⟨given, moved, shut⟩]
        exact ⟨fun _ _ none' => absurd none' shut, fun _ => rfl⟩
  · have negative : inFd < 0 := by omega
    rw [if_neg (by omega), Tables.wanted, if_pos negative]
    exact ⟨fun _ positive => absurd positive (by omega), fun _ => rfl⟩

/-- The standard output is right when its source is open, or nothing was inherited, and when the
first duplication has not replaced its source. -/
theorem stdout_iff (tables : Tables) (child : Nat) (inFd outFd : Int) :
    (if ((1 : Nat) = 0 ∧ 0 ≤ inFd) ∨ ((1 : Nat) = 1 ∧ 0 ≤ outFd) then
      wiredTable (wiredTable tables.fdTable child inFd 0) child outFd 1 (child, 1)
      else none) = tables.wanted child outFd ↔
      (0 ≤ outFd → outFd ≠ 1 → tables.wanted child outFd = none →
        tables.fdTable (child, 1) = none) ∧
      (0 < inFd → outFd = 0 → tables.wanted child inFd ≠ none →
        tables.fdTable (child, 0) = tables.wanted child inFd) := by
  by_cases given : 0 ≤ outFd
  swap
  · have negative : outFd < 0 := by omega
    rw [if_neg (by omega), Tables.wanted, if_pos negative]
    exact ⟨fun _ => ⟨fun nonneg => absurd nonneg given, fun _ zero => absurd zero (by omega)⟩,
      fun _ => rfl⟩
  rw [if_pos (Or.inr ⟨rfl, given⟩), wiredTable_self, wanted_of_nonneg tables child given,
    wiredTable_other tables.fdTable inFd (show (child, 1) ≠ (child, 0) by simp)]
  rcases eq_or_ne outFd 1 with rfl | moved
  · rw [if_neg fun all => all.2.1 rfl]
    exact ⟨fun _ => ⟨fun _ other => absurd rfl other, fun _ zero => absurd zero (by decide)⟩,
      fun _ => rfl⟩
  rcases eq_or_ne outFd 0 with rfl | apart
  · rw [show (child, (0 : Int).toNat) = (child, 0) from rfl, wiredTable_self]
    by_cases replaced : 0 < inFd ∧ tables.wanted child inFd ≠ none
    · have nonneg : 0 ≤ inFd := by omega
      have open' := replaced.2
      rw [wanted_of_nonneg tables child nonneg] at open' ⊢
      rw [if_pos (show 0 ≤ inFd ∧ inFd ≠ ((0 : Nat) : Int) ∧
        tables.fdTable (child, inFd.toNat) ≠ none from ⟨nonneg, by omega, open'⟩),
        if_pos ⟨given, moved, open'⟩]
      refine ⟨fun same => ⟨fun _ _ none' => absurd (same.trans none') open', fun _ _ _ => same.symm⟩,
        fun both => (both.2 replaced.1 rfl open').symm⟩
    · have kept : ¬ (0 ≤ inFd ∧ inFd ≠ ((0 : Nat) : Int) ∧
          tables.fdTable (child, inFd.toNat) ≠ none) := by
        rintro ⟨nonneg, nonzero, open'⟩
        refine replaced ⟨by omega, ?_⟩
        rw [wanted_of_nonneg tables child nonneg]
        exact open'
      rw [if_neg kept]
      have clear : 0 < inFd → (0 : Int) = 0 → tables.wanted child inFd ≠ none →
          tables.fdTable (child, 0) = tables.wanted child inFd :=
        fun positive _ open' => absurd ⟨positive, open'⟩ replaced
      by_cases shut : tables.fdTable (child, 0) = none
      · rw [if_neg fun all => all.2.2 shut, shut]
        exact ⟨fun none' => ⟨fun _ _ _ => none', shut ▸ clear⟩, fun both => both.1 given moved rfl⟩
      · rw [if_pos ⟨given, moved, shut⟩]
        exact ⟨fun _ => ⟨fun _ _ none' => absurd none' shut, clear⟩, fun _ => rfl⟩
  · have beyond : (child, outFd.toNat) ≠ (child, 0) := by
      intro same
      have := (Prod.mk.inj same).2
      omega
    rw [wiredTable_other tables.fdTable inFd beyond]
    have clear : 0 < inFd → outFd = 0 → tables.wanted child inFd ≠ none →
        tables.fdTable (child, 0) = tables.wanted child inFd :=
      fun _ zero => absurd zero apart
    by_cases shut : tables.fdTable (child, outFd.toNat) = none
    · rw [if_neg fun all => all.2.2 shut, shut]
      exact ⟨fun none' => ⟨fun _ _ _ => none', clear⟩, fun both => both.1 given moved rfl⟩
    · rw [if_pos ⟨given, moved, shut⟩]
      exact ⟨fun _ => ⟨fun _ _ none' => absurd none' shut, clear⟩, fun _ => rfl⟩

/-- `task_rewire_fds` does what it is to do exactly when both ends are there to be wired. -/
theorem taskRewireFds_iff (consistent : Consistent tables spare building) {current child : Nat}
    (within : child < maxTasks) (other : child ≠ current) (credentials : Credentials)
    {inFd outFd : Int} (inRange : inFd < maxFdsPerTask) (outRange : outFd < maxFdsPerTask) :
    Rewired tables (taskRewireFds tables current credentials child inFd outFd) spare child
      inFd outFd ↔ Wirable tables child inFd outFd := by
  generalize rewired : taskRewireFds tables current credentials child inFd outFd = next
  obtain ⟨kept, table, others⟩ := taskRewireFds_table consistent within other credentials inRange
    outRange rewired.symm
  have stdin := stdin_iff tables child inFd outFd
  have stdout := stdout_iff tables child inFd outFd
  rw [← table 0 (by decide)] at stdin
  rw [← table 1 (by decide)] at stdout
  refine ⟨fun right => ⟨stdin.mp right.stdin, (stdout.mp right.stdout).1,
    (stdout.mp right.stdout).2⟩, fun ends => ⟨stdin.mpr ends.input,
    stdout.mpr ⟨ends.output, ends.clash⟩, fun fd beyond range => ?_, others,
    fun gfd unheld => ⟨⟨fun live => (kept.counted gfd live unheld).2, fun named => ?_⟩,
      fun live => (kept.counted gfd live unheld).1⟩⟩⟩
  · rw [table fd range, if_neg (by omega)]
  · by_contra idle
    rw [names_eq_zero kept (Bool.not_eq_true _ ▸ idle)] at named
    exact absurd named (Nat.lt_irrefl 0)

/-- Task 2 has opened a file as 0 and a pipe as 1 and 2. -/
theorem file_and_pipe : ∃ state : Descriptors,
    Consistent state.tables state.Spare state.Building ∧
      state.tables.fdTable (2, 0) = some 0 ∧ state.tables.fdTable (2, 1) = some 1 ∧
      state.tables.fdTable (2, 2) = some 2 := by
  have opened := sound_booted.step
    (show Alone booted (.call 2 (.openFile ⟨0, 32⟩ 5 false 0)) from rfl)
    (show step booted _ = some _ from rfl)
  have piped := opened.step (show Alone _ (.pipe 2 ⟨0, 32⟩) from rfl)
    (show step _ _ = some _ from rfl)
  exact ⟨_, piped.tables rfl, by decide +kernel, by decide +kernel, by decide +kernel⟩

/-- The pipe's write end and the file become the two ends, as they were asked for. -/
theorem taskRewireFds_filter : ∃ state : Descriptors,
    Rewired state.tables (taskRewireFds state.tables 1 ⟨0, 32⟩ 2 0 2) state.Spare 2 0 2 := by
  obtain ⟨state, consistent, _, _, write⟩ := file_and_pipe
  refine ⟨state, (taskRewireFds_iff consistent (by decide) (by decide) ⟨0, 32⟩ (by decide)
    (by decide)).mpr ⟨fun positive => absurd positive (by decide), fun _ _ shut => ?_,
    fun positive => absurd positive (by decide)⟩⟩
  have open' : state.tables.wanted 2 2 = some 2 := write
  rw [open'] at shut
  exact absurd shut (by simp)

/-- With the read end as standard input and the file as standard output, the output is the read
end: the first duplication has replaced the file. -/
theorem taskRewireFds_swapped : ¬ ∀ (tables : Tables) (spare building : Nat → Prop)
    (current child : Nat) (credentials : Credentials) (inFd outFd : Int),
    Consistent tables spare building → child < maxTasks → child ≠ current →
    inFd < maxFdsPerTask → outFd < maxFdsPerTask →
    Rewired tables (taskRewireFds tables current credentials child inFd outFd) spare child
      inFd outFd := by
  intro always
  obtain ⟨state, consistent, file, read, _⟩ := file_and_pipe
  have right := always state.tables _ _ 1 2 ⟨0, 32⟩ 1 0 consistent (by decide) (by decide)
    (by decide) (by decide)
  obtain ⟨_, table, _⟩ := taskRewireFds_table consistent (show 2 < maxTasks by decide)
    (show 2 ≠ 1 by decide) ⟨0, 32⟩ (show (1 : Int) < maxFdsPerTask by decide)
    (show (0 : Int) < maxFdsPerTask by decide) rfl
  have stdout := (stdout_iff state.tables 2 1 0).mp ((table 1 (by decide)).symm.trans right.stdout)
  have wanted : state.tables.wanted 2 1 = some 1 := read
  have same := stdout.2 (by decide) rfl (by rw [wanted]; simp)
  rw [file, wanted] at same
  exact absurd same (by decide)

end MectovOS.Fd
