/-
This file proves that the ranges handed out in a directory stay apart as long as
one of its threads allocates heap, above the image, and one maps. The owner of a
grant keeps it, below its heap pointer or in its region table, so what the owner
is given next is apart from it; a creation, a fork or an exec that writes the
record of a task takes its grants away.
-/

import MectovOS.Task.Grants

namespace MectovOS.Sched

open Function

open Spans (Span Apart)

/-! ### What a task owns -/

/-- The owner of a grant keeps it: below its heap pointer, or in its region table. -/
structure Owned (task : Task) (grant : Grant) : Prop where
  heap : grant.mapped = false → grant.span.start + grant.span.length ≤ task.heapPtr
  region : grant.mapped = true → ∃ region ∈ task.mmapRegions, region.span = grant.span

theorem owned_lasting (task : Task) (grant : Grant) : Owned task.lasting grant ↔ Owned task grant := by
  constructor
  · rintro ⟨heap, region⟩
    refine ⟨heap, fun mapped => ?_⟩
    obtain ⟨freed, listed, span⟩ := region mapped
    obtain ⟨old, there, rfl⟩ := List.mem_map.mp listed
    exact ⟨old, there, span⟩
  · rintro ⟨heap, region⟩
    refine ⟨heap, fun mapped => ?_⟩
    obtain ⟨old, there, span⟩ := region mapped
    exact ⟨{ old with dirty := 0 }, List.mem_map_of_mem there, span⟩

/-- A critical section keeps what a task owns, unless it writes the record of the task. -/
theorem owned_step {kernel next : Kernel} {label : Label} (taken : step kernel label = some next)
    {tid : Nat} {grant : Grant} (owned : Owned (kernel.tasks tid) grant)
    (fresh : ∀ task, written kernel label = some (tid, task) → Owned task grant) :
    Owned (next.tasks tid) grant := by
  have shown := congrFun (lasting_step taken) tid
  have same : (next.tasks tid).lasting = writtenOver kernel (written kernel label) tid := shown
  rw [← owned_lasting, same]
  cases write : written kernel label with
  | none => exact (owned_lasting _ _).mpr owned
  | some pair =>
    obtain ⟨owner, task⟩ := pair
    unfold writtenOver
    dsimp only
    by_cases apart : tid = owner
    · rw [apart, update_self]
      exact (owned_lasting _ _).mpr (fresh task (by rw [write, apart]))
    · rw [update_of_ne apart]
      exact (owned_lasting _ _).mpr owned

/-- Every grant that has an owner is kept by it. -/
def AllOwned (kernel : Kernel) (grants : List Grant) : Prop :=
  ∀ grant ∈ grants, ∀ tid, grant.owner = some tid → Owned (kernel.tasks tid) grant

theorem AllOwned.filter {kernel : Kernel} {grants : List Grant} (owned : AllOwned kernel grants)
    (kept : Grant → Bool) : AllOwned kernel (grants.filter kept) :=
  fun grant member => owned grant (List.mem_filter.mp member).1

theorem Owned.congr {task : Task} {old grant : Grant} (owned : Owned task old)
    (span : grant.span = old.span) : Owned task grant where
  heap low := by
    unfold Grant.mapped at low
    rw [span] at low ⊢
    exact owned.heap low
  region mapped := by
    unfold Grant.mapped at mapped
    rw [span] at mapped ⊢
    exact owned.region mapped

/-- A task whose record is written owns nothing of what was handed out before. -/
theorem AllOwned.orphan {kernel next : Kernel} {label : Label}
    (taken : step kernel label = some next) {tid : Nat} {task : Task}
    (write : written kernel label = some (tid, task)) {grants : List Grant}
    (owned : AllOwned kernel grants) : AllOwned next (orphan tid grants) := by
  intro grant member owner belongs
  obtain ⟨old, there, _, span, other, kept⟩ := mem_orphan member
  rcases kept with nobody | same
  · rw [nobody] at belongs
    exact absurd belongs (by simp)
  · refine owned_step taken ((owned old there owner (same.symm.trans belongs)).congr span)
      fun record writes => ?_
    rw [write] at writes
    cases writes
    exact absurd belongs other

theorem AllOwned.task {kernel next : Kernel} {label : Label} (plain : label.plain = true)
    (taken : step kernel label = some next) {book : Book} (owned : AllOwned kernel book.grants)
    (image : Span) : AllOwned next (book.task kernel label image).grants := by
  unfold Book.task
  cases write : written kernel label with
  | none =>
    exact fun grant member tid belongs => owned_step taken (owned grant member tid belongs)
      fun task writes => absurd (write.symm.trans writes) (by simp)
  | some pair =>
    obtain ⟨tid, task⟩ := pair
    dsimp only
    cases label with
    | createTask cid => exact owned.orphan taken write
    | threadCreate cid args => exact owned.orphan taken write
    | spawn cid args => exact (owned.filter _).orphan taken write
    | forkExec cid args => exact (owned.filter _).orphan taken write
    | execRewire cid args => exact (owned.filter _).orphan taken write
    | fork cid args =>
      intro grant member owner belongs
      rcases List.mem_append.mp member with copied | kept
      · obtain ⟨old, listed, forked⟩ := List.mem_filterMap.mp copied
        obtain ⟨there, _⟩ := List.mem_filter.mp listed
        obtain ⟨_, span, nobody | ⟨child, parents, regions⟩⟩ := forkGrant_spec forked
        · rw [nobody] at belongs
          exact absurd belongs (by simp)
        · obtain rfl := Option.some.inj (child.symm.trans belongs)
          obtain ⟨parent, current, filled⟩ := Option.bind_eq_some_iff.mp write
          obtain ⟨slot, _, same⟩ := Option.map_eq_some_iff.mp filled
          rw [current, Option.getD_some] at parents
          have before := owned old there parent parents
          have starts : Owned task grant := by
            refine Owned.congr ⟨fun low => ?_, fun mapped => regions mapped⟩ span
            cases same
            exact before.heap low
          have shown : (next.tasks tid).lasting =
              writtenOver kernel (written kernel (.fork cid args)) tid :=
            congrFun (lasting_step taken) tid
          rw [write] at shown
          unfold writtenOver at shown
          dsimp only at shown
          rw [update_self] at shown
          rw [← owned_lasting, shown, owned_lasting]
          exact starts
      · exact (owned.filter _).orphan taken write grant kept owner belongs
    | set cid slot value =>
      intro grant member owner belongs
      refine owned_step taken (owned grant member owner belongs) fun record writes => ?_
      obtain ⟨regions, heap⟩ := written_set (plain_set plain).1 (plain_set plain).2 writes
      have before := owned grant member owner belongs
      exact ⟨by rw [heap]; exact before.heap, by rw [regions]; exact before.region⟩
    | _ => exact absurd write (by simp [written])

theorem Book.Sound.task {book : Book} (sound : book.Sound) (kernel : Kernel) (label : Label)
    {image : Span} (low : image.start + image.length ≤ mmapBase) :
    (book.task kernel label image).Sound := by
  unfold Book.task
  split
  · exact sound
  · split
    · exact sound.adopt _
    · exact sound.adopt _
    · exact sound.fork _ _ _ _ _
    · exact sound.load _ _ low
    · exact sound.load _ _ low
    · exact sound.load _ _ low
    · exact sound

/-! ### The calls that hand out addresses -/

theorem AllOwned.setTask {kernel : Kernel} {grants : List Grant} (owned : AllOwned kernel grants)
    {tid : Nat} {change : Task → Task}
    (keeps : ∀ grant ∈ grants, grant.owner = some tid → Owned (kernel.tasks tid) grant →
      Owned (change (kernel.tasks tid)) grant) :
    AllOwned (kernel.setTask tid change) grants := by
  intro grant member owner belongs
  by_cases same : owner = tid
  · rw [same, setTask_same]
    rw [same] at belongs
    exact keeps grant member belongs (owned grant member tid belongs)
  · rw [setTask_other _ _ same]
    exact owned grant member owner belongs

/-- SYS_MALLOC fails, or it moves the heap pointer up by what it hands out. -/
theorem sysMalloc_spec {kernel : Kernel} {cid tid : Nat} (size block : Nat)
    (current : kernel.currentTask cid = some tid) (user : (kernel.tasks tid).pageDir ≠ 0) :
    sysMalloc kernel cid size block = (kernel, 0) ∨
      sysMalloc kernel cid size block =
          (kernel.setTask tid fun task =>
            { task with heapPtr := mallocEnd (kernel.tasks tid).heapPtr size },
            (kernel.tasks tid).heapPtr) ∧
        (kernel.tasks tid).heapPtr ≤ mallocEnd (kernel.tasks tid).heapPtr size ∧
        mallocEnd (kernel.tasks tid).heapPtr size ≤ heapLimit := by
  unfold sysMalloc
  rw [current]
  dsimp only
  rw [if_neg user]
  split_ifs with refused denied
  · exact Or.inl rfl
  · exact Or.inl rfl
  · obtain ⟨ordered, rest⟩ := not_or.mp denied
    exact Or.inr ⟨rfl, Nat.le_of_not_lt ordered, Nat.le_of_not_lt (not_or.mp rest).1⟩

theorem sysMalloc_kernel {kernel : Kernel} {cid : Nat} (size block : Nat)
    (inKernel : ∀ tid, kernel.currentTask cid = some tid → (kernel.tasks tid).pageDir = 0) :
    (sysMalloc kernel cid size block).1 = kernel := by
  unfold sysMalloc
  split_ifs
  · rfl
  · split
    · rfl
    · rename_i tid current
      rw [if_pos (inKernel tid current)]

/-- A reservation fails, or it puts a region where a claim says. -/
theorem taskMmapReserve_spec {kernel : Kernel} {cid tid : Nat} (size : Nat)
    (current : kernel.currentTask cid = some tid) :
    taskMmapReserve kernel cid size = (kernel, 0) ∨
      ∃ slot base region, mmapClaim kernel cid tid (reservationSize size) = some (slot, base) ∧
        region.base = base ∧ region.size = reservationSize size ∧
        taskMmapReserve kernel cid size = (setRegion kernel tid slot region, base) := by
  unfold taskMmapReserve
  rw [current]
  dsimp only
  split_ifs with empty
  · exact Or.inl rfl
  · split
    · exact Or.inl rfl
    · rename_i slot base claimed
      exact Or.inr ⟨slot, base, _, claimed, rfl, rfl, rfl⟩

theorem taskMmapFile_spec {kernel : Kernel} {cid tid node fileSize : Nat} {args : MmapFileArgs}
    (current : kernel.currentTask cid = some tid) (file : args.node = some (node, fileSize)) :
    taskMmapFile kernel cid args = (kernel, 0) ∨
      ∃ slot base region, mmapClaim kernel cid tid (reservationSize fileSize) = some (slot, base) ∧
        region.base = base ∧ region.size = reservationSize fileSize ∧
        taskMmapFile kernel cid args = (setRegion kernel tid slot region, base) := by
  unfold taskMmapFile
  rw [current, file]
  dsimp only
  split_ifs with flags bitmap
  · exact Or.inl rfl
  · left
    split <;> rfl
  · split
    · exact Or.inl rfl
    · rename_i slot base claimed
      exact Or.inr ⟨slot, base, _, claimed, rfl, rfl, rfl⟩

theorem taskMmapFile_nothing {kernel : Kernel} {cid : Nat} {args : MmapFileArgs}
    (nothing : kernel.currentTask cid = none ∨ args.node = none) :
    taskMmapFile kernel cid args = (kernel, 0) := by
  unfold taskMmapFile
  rcases nothing with nobody | nowhere
  · rw [nobody]
  · rw [nowhere]
    cases kernel.currentTask cid <;> rfl

/-- A region in use stays in the table when a slot is written whose base is another. -/
theorem mem_set_other {regions : List MmapRegion} {slot : Nat} {old : MmapRegion}
    (there : regions[slot]? = some old) {other region : MmapRegion} (member : region ∈ regions)
    (differs : region.base ≠ old.base) : region ∈ regions.set slot other := by
  obtain ⟨place, found⟩ := List.getElem?_of_mem member
  refine @List.mem_of_getElem? _ _ place _ ?_
  rw [List.getElem?_set_ne, found]
  rintro rfl
  rw [there] at found
  exact differs (by rw [Option.some.inj found])

theorem AllOwned.setRegion {kernel : Kernel} {grants : List Grant} (owned : AllOwned kernel grants)
    {tid slot : Nat} {old : MmapRegion} (there : (kernel.tasks tid).mmapRegions[slot]? = some old)
    (keeps : ∀ grant ∈ grants, grant.owner = some tid → grant.mapped = true →
      grant.span.start ≠ old.base) (region : MmapRegion) :
    AllOwned (setRegion kernel tid slot region) grants := by
  refine owned.setTask fun grant member belongs before => ⟨before.heap, fun mapped => ?_⟩
  obtain ⟨kept, listed, span⟩ := before.region mapped
  refine ⟨kept, mem_set_other there listed ?_, span⟩
  have differs := keeps grant member belongs mapped
  rw [← span] at differs
  exact differs

/-! ### Runs in which one thread allocates -/

/-- The book is sound, and what it says a task owns the task still keeps. -/
structure Booked (state : AddressState) : Prop where
  sound : state.book.Sound
  owned : AllOwned state.userland.kernel state.book.grants
  tables : RegularTables state.userland.kernel

/-- What a claim found for the sole mapper of a directory may be handed out. -/
theorem Booked.claim {state : AddressState} (booked : Booked state) {cid tid slot base size : Nat}
    (current : state.userland.kernel.currentTask cid = some tid)
    (sole : soleMapper state.userland.kernel state.book cid = true)
    (claimed : mmapClaim state.userland.kernel cid tid (reservationSize size) = some (slot, base))
    {region : MmapRegion} (based : region.base = base) (sized : region.size = reservationSize size)
    (loads : List (Nat × Nat)) :
    Booked ⟨⟨setRegion state.userland.kernel tid slot region, loads⟩,
      state.book.grant state.userland.kernel tid base (reservationSize size)⟩ := by
  obtain ⟨⟨old, there, free⟩, placed, _, clear⟩ := mmapClaim_spec booked.tables size claimed
  have low := placed.low
  have used : base ≠ 0 := by
    unfold mmapBase at low
    omega
  refine ⟨booked.sound.grant ?_ ?_ fun below => absurd below (Nat.not_lt.mpr low), ?_,
    booked.tables.claim claimed based sized⟩
  · exact Or.inr ((booked.sound.images _).trans low)
  · intro grant member same
    cases kind : grant.mapped with
    | false =>
      have bound := booked.sound.heap grant member kind
      refine Or.inr (bound.trans (le_trans ?_ low))
      decide
    | true =>
      unfold soleMapper at sole
      rw [current] at sole
      have mine := List.all_eq_true.mp sole grant member
      simp only [kind, same, Bool.not_true, Bool.false_or, ne_eq, not_true_eq_false, decide_false,
        decide_eq_true_eq] at mine
      obtain ⟨kept, listed, span⟩ := (booked.owned grant member tid mine).region kind
      have alive : kept.base ≠ 0 := by
        have start : kept.base = grant.span.start := by rw [← span]; rfl
        have above := of_decide_eq_true kind
        rw [start]
        unfold mmapBase at above
        omega
      rw [← span]
      exact clear kept listed alive
  · have inside : slot < (state.userland.kernel.tasks tid).mmapRegions.length :=
      (List.getElem?_eq_some_iff.mp there).1
    have kept : AllOwned (setRegion state.userland.kernel tid slot region) state.book.grants := by
      refine booked.owned.setRegion there (fun grant _ _ mapped => ?_) region
      have above := of_decide_eq_true mapped
      rw [free]
      unfold mmapBase at above
      omega
    unfold Book.grant
    rw [if_neg used]
    intro grant member owner belongs
    rcases List.mem_cons.mp member with rfl | before
    · cases belongs
      refine ⟨fun heap => ?_, fun _ => ⟨region, ?_, ?_⟩⟩
      · exact absurd low (of_decide_eq_false heap)
      · unfold setRegion
        rw [setTask_same]
        exact List.mem_iff_getElem?.mpr ⟨slot, List.getElem?_set_self inside⟩
      · unfold MmapRegion.span
        rw [based, sized]
    · exact kept grant before owner belongs

theorem Booked.mmap {state : AddressState} (booked : Booked state) {cid tid : Nat} (size : Nat)
    (current : state.userland.kernel.currentTask cid = some tid)
    (sole : soleMapper state.userland.kernel state.book cid = true) :
    Booked ⟨{ state.userland with kernel := (taskMmapReserve state.userland.kernel cid size).1 },
      state.book.grant state.userland.kernel tid (taskMmapReserve state.userland.kernel cid size).2
        (reservationSize size)⟩ := by
  rcases taskMmapReserve_spec size current with failed | ⟨slot, base, region, claimed, based, sized,
    result⟩
  · rw [failed]
    exact booked
  · rw [result]
    exact booked.claim current sole claimed based sized _

theorem Booked.mmapFile {state : AddressState} (booked : Booked state) {cid tid node fileSize : Nat}
    {args : MmapFileArgs} (current : state.userland.kernel.currentTask cid = some tid)
    (file : args.node = some (node, fileSize))
    (sole : soleMapper state.userland.kernel state.book cid = true) :
    Booked ⟨{ state.userland with kernel := (taskMmapFile state.userland.kernel cid args).1 },
      state.book.grant state.userland.kernel tid (taskMmapFile state.userland.kernel cid args).2
        (reservationSize fileSize)⟩ := by
  rcases taskMmapFile_spec current file with failed | ⟨slot, base, region, claimed, based, sized,
    result⟩
  · rw [failed]
    exact booked
  · rw [result]
    exact booked.claim current sole claimed based sized _

/-- What SYS_MALLOC gives the sole heap user of a directory may be handed out. -/
theorem Booked.malloc {state : AddressState} (booked : Booked state) {cid tid : Nat}
    (size block : Nat) (current : state.userland.kernel.currentTask cid = some tid)
    (user : (state.userland.kernel.tasks tid).pageDir ≠ 0)
    (sole : soleHeap state.userland.kernel state.book cid = true) :
    Booked ⟨{ state.userland with kernel := (sysMalloc state.userland.kernel cid size block).1 },
      state.book.grant state.userland.kernel tid
        (sysMalloc state.userland.kernel cid size block).2
        (mallocEnd (sysMalloc state.userland.kernel cid size block).2 size -
          (sysMalloc state.userland.kernel cid size block).2)⟩ := by
  rcases sysMalloc_spec size block current user with failed | ⟨result, ordered, low⟩
  · rw [failed]
    exact booked
  · rw [result]
    dsimp only
    unfold soleHeap at sole
    rw [current] at sole
    simp only [user, decide_false, Bool.false_or, Bool.and_eq_true, decide_eq_true_eq] at sole
    obtain ⟨mine, above⟩ := sole
    have limit : heapLimit < mmapBase := by decide
    have tables : RegularTables (state.userland.kernel.setTask tid fun task =>
        { task with heapPtr := mallocEnd (state.userland.kernel.tasks tid).heapPtr size }) :=
      booked.tables.setTask (by exact booked.tables tid)
    refine ⟨booked.sound.grant ?_ ?_ fun _ => ?_, ?_, tables⟩
    · exact Or.inr above
    · intro grant member same
      cases kind : grant.mapped with
      | true =>
        have start := of_decide_eq_true kind
        left
        dsimp only
        omega
      | false =>
        have checked := List.all_eq_true.mp mine grant member
        simp only [kind, same, ne_eq, not_true_eq_false, decide_false, Bool.false_or,
          decide_eq_true_eq] at checked
        exact Or.inr ((booked.owned grant member tid checked).heap kind)
    · omega
    · have kept : AllOwned (state.userland.kernel.setTask tid fun task =>
          { task with heapPtr := mallocEnd (state.userland.kernel.tasks tid).heapPtr size })
          state.book.grants :=
        booked.owned.setTask fun grant _ _ before =>
          ⟨fun heap => (before.heap heap).trans ordered, before.region⟩
      unfold Book.grant
      split_ifs
      · exact kept
      · intro grant member owner belongs
        rcases List.mem_cons.mp member with rfl | before
        · cases belongs
          refine ⟨fun _ => ?_, fun mapped => ?_⟩
          · rw [setTask_same]
            dsimp only
            omega
          · have start := of_decide_eq_true mapped
            dsimp only at start
            omega
        · exact kept grant before owner belongs

theorem Booked.munmap {state : AddressState} (booked : Booked state) {cid tid : Nat} (addr : Nat)
    (current : state.userland.kernel.currentTask cid = some tid) :
    Booked ⟨{ state.userland with kernel := munmapTable state.userland.kernel cid addr },
      if addr = 0 then state.book else state.book.release tid addr⟩ := by
  have sound : (if addr = 0 then state.book else state.book.release tid addr).Sound := by
    split_ifs
    · exact booked.sound
    · exact booked.sound.release tid addr
  have owned : AllOwned state.userland.kernel
      (if addr = 0 then state.book else state.book.release tid addr).grants := by
    split_ifs
    · exact booked.owned
    · exact booked.owned.filter _
  refine ⟨sound, ?_, booked.tables.munmap cid addr⟩
  unfold munmapTable
  rw [current]
  dsimp only
  split
  · exact owned
  · rename_i slot found
    obtain ⟨inside, based, _⟩ := List.findIdx?_eq_some_iff_getElem.mp found
    refine owned.setRegion (List.getElem?_eq_getElem inside) (fun grant member belongs mapped => ?_) _
    rw [of_decide_eq_true based]
    split_ifs at member with zero
    · have above := of_decide_eq_true mapped
      rw [zero]
      unfold mmapBase at above
      omega
    · have kept := of_decide_eq_true (List.mem_filter.mp member).2
      exact fun same => kept ⟨belongs, same⟩

/-- The image a step loads lies below the mmap window. -/
theorem imageEnd_le {userland next : Userland} {label : UserLabel}
    (taken : userStep userland label = some next) :
    label.imageEnd.getD 0 ≤ 0x1F000000 := by
  cases label with
  | spawn cid args heapStart =>
    simp only [userStep, Option.ite_none_right_eq_some] at taken
    exact (loadable_spec taken.1).2
  | task label =>
    simp only [userStep, Option.ite_none_right_eq_some] at taken
    cases label with
    | forkExec cid args => exact (loadable_spec taken.1.2).2
    | execRewire cid args => exact (loadable_spec taken.1.2).2
    | _ => exact Nat.zero_le _
  | _ => exact Nat.zero_le _

theorem Booked.step {state next : AddressState} (booked : Booked state) {label : AddressLabel}
    (allowed : soleAllocator state label = true) (taken : addressStep state label = some next) :
    Booked next := by
  simp only [addressStep, Option.ite_none_right_eq_some, Option.map_eq_some_iff] at taken
  obtain ⟨starts, after, stepped, rfl⟩ := taken
  have tables : RegularTables after.kernel := booked.tables.userStep stepped
  have ending := imageEnd_le stepped
  obtain ⟨label, imageStart⟩ := label
  have low : imageStart + (label.imageEnd.getD 0 - imageStart) ≤ mmapBase := by
    rw [Nat.add_sub_cancel' starts]
    exact ending.trans (by decide)
  unfold soleAllocator at allowed
  unfold Book.after
  dsimp only at allowed stepped ⊢
  cases label with
  | task label =>
    simp only [userStep, Option.ite_none_right_eq_some, Option.map_eq_some_iff] at stepped
    obtain ⟨⟨plain, _⟩, kernel, moved, rfl⟩ := stepped
    exact ⟨booked.sound.task _ _ low, booked.owned.task plain moved _, tables⟩
  | spawn cid args heapStart =>
    simp only [userStep, Option.ite_none_right_eq_some, Option.map_eq_some_iff] at stepped
    obtain ⟨_, kernel, moved, rfl⟩ := stepped
    exact ⟨booked.sound.task _ _ low, booked.owned.task rfl moved _, tables⟩
  | heapStart cid tid start =>
    simp only [userStep, Option.ite_none_right_eq_some, Option.some.injEq] at stepped
    obtain ⟨_, rfl⟩ := stepped
    refine ⟨booked.sound, ?_, tables⟩
    unfold setAttribute
    split_ifs
    · exact booked.owned
    · dsimp only
      refine booked.owned.setTask fun grant member belongs before => ⟨fun heap => ?_, before.region⟩
      have checked := List.all_eq_true.mp allowed grant member
      simp [heap, belongs] at checked
  | malloc cid size block =>
    obtain ⟨_, _, rfl⟩ := Option.map_eq_some_iff.mp stepped
    dsimp only
    split
    · rename_i nobody
      have still := @sysMalloc_kernel _ _ size block fun tid current =>
        absurd (nobody.symm.trans current) (by simp)
      exact ⟨booked.sound, by dsimp only; rw [still]; exact booked.owned, tables⟩
    · rename_i tid current
      split_ifs with inKernel
      · have still := @sysMalloc_kernel state.userland.kernel cid size block fun other same => by
          rw [current] at same
          rwa [← Option.some.inj same]
        exact ⟨booked.sound, by dsimp only; rw [still]; exact booked.owned, tables⟩
      · exact booked.malloc size block current inKernel allowed
  | mmap cid size =>
    obtain ⟨_, _, rfl⟩ := Option.map_eq_some_iff.mp stepped
    dsimp only
    split
    · rename_i nobody
      have still : taskMmapReserve state.userland.kernel cid size = (state.userland.kernel, 0) := by
        unfold taskMmapReserve
        rw [nobody]
      rw [still]
      exact booked
    · rename_i tid current
      exact booked.mmap size current allowed
  | mmapFile cid args =>
    obtain ⟨_, _, rfl⟩ := Option.map_eq_some_iff.mp stepped
    dsimp only
    split
    · rename_i tid node fileSize current file
      exact booked.mmapFile current file allowed
    · rename_i nothing
      have still : taskMmapFile state.userland.kernel cid args = (state.userland.kernel, 0) := by
        refine taskMmapFile_nothing ?_
        cases current : state.userland.kernel.currentTask cid with
        | none => exact Or.inl rfl
        | some tid =>
          right
          cases file : args.node with
          | none => rfl
          | some pair => exact absurd file (nothing tid pair.1 pair.2 current)
      rw [still]
      exact booked
  | munmap cid addr =>
    obtain ⟨_, _, rfl⟩ := Option.map_eq_some_iff.mp stepped
    dsimp only
    split
    · rename_i nobody
      have still : munmapTable state.userland.kernel cid addr = state.userland.kernel := by
        unfold munmapTable
        rw [nobody]
      rw [still]
      exact booked
    · rename_i tid current
      have released := booked.munmap addr current
      exact released
  | setrlimit cid resource want =>
    obtain ⟨_, _, rfl⟩ := Option.map_eq_some_iff.mp stepped
    refine ⟨booked.sound, ?_, tables⟩
    unfold taskSetrlimit
    dsimp only
    split_ifs
    · exact booked.owned
    · exact booked.owned.setTask fun grant _ _ before => ⟨before.heap, before.region⟩

/-- In every run in which one thread of a directory allocates heap and one maps, the ranges handed
out and still in use are apart from each other and from the image. -/
theorem address_ranges_separate {state : AddressState}
    (reachable : addressSystem.Reachable (fun state label => soleAllocator state label) state) :
    Separate state.book := by
  have booked : Booked state := by
    refine reachable.invariant Booked ?_ ?_
    · rintro _ ⟨machine, rfl⟩
      refine ⟨⟨⟨List.Pairwise.nil, ?_⟩, ?_, fun _ => Nat.zero_le _⟩, ?_,
        regularTables_initTasking machine⟩
      · exact fun grant member => absurd member List.not_mem_nil
      · exact fun grant member => absurd member List.not_mem_nil
      · exact fun grant member => absurd member List.not_mem_nil
    · intro before label after booked allowed taken
      exact booked.step allowed taken
  exact booked.sound.separate

/-! ### One allocating thread, and two -/

/-- A step that loads no image. -/
def plainLabel (label : UserLabel) : AddressLabel := ⟨label, 0⟩

/-- A program at `0x08000000` that is the current task of its core and maps a page. -/
def mappingProgram : List AddressLabel :=
  [⟨.spawn 0 (threadArgs 0x300000) 0x08001000, 0x08000000⟩,
    plainLabel (.heapStart 0 1 0x08001000), plainLabel bootTick, plainLabel bootTick,
    plainLabel (.mmap 0 4096)]

def startState : AddressState := ⟨⟨initTasking oneCore, []⟩, ⟨[], fun _ => ⟨0, 0⟩⟩⟩

/-- The program goes on to allocate heap, to map another page and to unmap the first. -/
def soleState : AddressState :=
  (Transition.executeGuarded soleAllocator addressStep startState (mappingProgram ++
    [plainLabel (.malloc 0 100 0), plainLabel (.mmap 0 4096),
      plainLabel (.munmap 0 0x40000000)])).getD startState

theorem soleState_reachable :
    addressSystem.Reachable (fun state label => soleAllocator state label) soleState := by
  have completes : (Transition.executeGuarded soleAllocator addressStep startState
      (mappingProgram ++ [plainLabel (.malloc 0 100 0), plainLabel (.mmap 0 4096),
        plainLabel (.munmap 0 0x40000000)])).isSome = true := by decide +kernel
  obtain ⟨final, run⟩ := Option.isSome_iff_exists.mp completes
  unfold soleState
  rw [run]
  exact Transition.reachable_executeGuarded (.init ⟨oneCore, rfl⟩) run

theorem address_ranges_separate_sole :
    soleState.book.grants.length = 2 ∧ Separate soleState.book :=
  ⟨by decide +kernel, address_ranges_separate soleState_reachable⟩

/-- The program makes a thread, and the thread maps a page when it runs. -/
def threadMaps : List AddressLabel :=
  mappingProgram ++ [plainLabel (.task (.threadBegin 0)),
    plainLabel (.task (.threadCreate 0 (threadArgs 0x300000))), plainLabel bootTick,
    plainLabel bootTick, plainLabel bootTick, plainLabel (.mmap 0 4096)]

def threadState : AddressState :=
  (Transition.execute addressStep startState threadMaps).getD startState

/-- The thread gets the page its program already has. -/
theorem thread_gets_mapped_page :
    ¬∀ state : AddressState, addressSystem.Reachable Transition.anyStep state →
      Separate state.book := by
  intro claimed
  have completes : (Transition.execute addressStep startState threadMaps).isSome = true := by
    decide +kernel
  have reachable : addressSystem.Reachable Transition.anyStep threadState := by
    obtain ⟨final, run⟩ := Option.isSome_iff_exists.mp completes
    unfold threadState
    rw [run]
    exact Transition.reachable_execute (.init ⟨oneCore, rfl⟩) run
  have both : threadState.book.grants =
      [⟨0x300000, some 2, ⟨0x40000000, 4096⟩⟩, ⟨0x300000, some 1, ⟨0x40000000, 4096⟩⟩] := by
    decide +kernel
  have apart := (claimed threadState reachable).apart
  rw [both] at apart
  exact absurd (List.rel_of_pairwise_cons apart List.mem_cons_self rfl) (by decide)

end MectovOS.Sched
