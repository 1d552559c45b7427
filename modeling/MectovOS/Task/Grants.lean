/-
This file is about the addresses the threads of a program get. Page tables
belong to a directory, heap pointers and region tables to a task, so a book of
grants is kept beside the system: which range was handed out in which directory,
to whom, and where the image lies. When one thread alone allocates heap in a
directory, above its image, and one alone maps, the ranges in use stay apart
from each other and from the image.
-/

import MectovOS.Task.MmapTable

namespace MectovOS.Sched

open Function

open Spans (Span Apart)

/-! ### The book -/

/-- A range handed out in a directory and still in use; its owner is gone once the slot of the
task that asked for it is taken over, or once that task execs. -/
structure Grant where
  pageDir : Nat
  owner : Option Nat
  span : Span
  deriving DecidableEq

/-- A grant of the mmap window; the other grants are heap. -/
def Grant.mapped (grant : Grant) : Bool := mmapBase ≤ grant.span.start

/-- What is handed out, and the image of each directory. -/
structure Book where
  grants : List Grant
  image : Nat → Span

/-- The grants of a task lose their owner. -/
def orphan (tid : Nat) (grants : List Grant) : List Grant :=
  grants.map fun grant => if grant.owner = some tid then { grant with owner := none } else grant

/-- The grants of the other directories. -/
def vacate (pageDir : Nat) (grants : List Grant) : List Grant :=
  grants.filter fun grant => grant.pageDir ≠ pageDir

/-- A task comes to own nothing yet. -/
def Book.adopt (book : Book) (tid : Nat) : Book :=
  { book with grants := orphan tid book.grants }

/-- A task starts an image in a directory that was just allocated. -/
def Book.load (book : Book) (tid pageDir : Nat) (image : Span) : Book where
  grants := orphan tid (vacate pageDir book.grants)
  image := update book.image pageDir image

/-- The copy of a grant in the directory of a forked child; a region the child's table lost is
not handed out in the child. -/
def forkGrant (parent child pageDir : Nat) (regions : List MmapRegion) (grant : Grant) :
    Option Grant :=
  if grant.owner = some parent then
    if grant.mapped && regions.all (fun region => region.span ≠ grant.span) then none
    else some { grant with pageDir := pageDir, owner := some child }
  else some { grant with pageDir := pageDir, owner := none }

/-- A child starts in a copy of the directory of its parent. -/
def Book.fork (book : Book) (parent source child : Nat) (task : Task) (clone : Nat) : Book where
  grants :=
    (book.grants.filter fun grant => grant.pageDir = source).filterMap
        (forkGrant parent child clone task.mmapRegions) ++
      orphan child (vacate clone book.grants)
  image := update book.image clone (book.image source)

/-- A call hands a range to a task; base 0 stands for a failure. -/
def Book.grant (book : Book) (kernel : Kernel) (tid base length : Nat) : Book :=
  if base = 0 then book
  else { book with
    grants := ⟨(kernel.tasks tid).pageDir, some tid, ⟨base, length⟩⟩ :: book.grants }

/-- A task gives the region at an address back. -/
def Book.release (book : Book) (tid base : Nat) : Book :=
  { book with
    grants := book.grants.filter fun grant =>
      ¬(grant.owner = some tid ∧ grant.span.start = base) }

/-! ### The system with its book -/

structure AddressState where
  userland : Userland
  book : Book

/-- A step, with the start of the image for the steps that load one (0 for the others). -/
structure AddressLabel where
  label : UserLabel
  imageStart : Nat

/-- The end of the image a step loads. -/
def UserLabel.imageEnd : UserLabel → Option Nat
  | .spawn _ _ ending => some ending
  | .task (.forkExec _ args) => some args.heapStart
  | .task (.execRewire _ args) => some args.heapStart
  | _ => none

/-- The book after a critical section that writes the record of a task. -/
def Book.task (book : Book) (kernel : Kernel) (label : Label) (image : Span) : Book :=
  match written kernel label with
  | none => book
  | some (tid, task) =>
    match label with
    | .createTask _ => book.adopt tid
    | .threadCreate _ _ => book.adopt tid
    | .fork cid args =>
      let parent := (kernel.currentTask cid).getD 0
      book.fork parent (kernel.tasks parent).pageDir tid task args.clone
    | .spawn _ _ => book.load tid task.pageDir image
    | .forkExec _ _ => book.load tid task.pageDir image
    | .execRewire _ _ => book.load tid task.pageDir image
    | _ => book

/-- The book after a step. -/
def Book.after (book : Book) (kernel : Kernel) (label : AddressLabel) : Book :=
  let image : Span := ⟨label.imageStart, label.label.imageEnd.getD 0 - label.imageStart⟩
  match label.label with
  | .task label => book.task kernel label image
  | .spawn cid args _ => book.task kernel (.spawn cid args) image
  | .malloc cid size block =>
    match kernel.currentTask cid with
    | none => book
    | some tid =>
      if (kernel.tasks tid).pageDir = 0 then book
      else
        let base := (sysMalloc kernel cid size block).2
        book.grant kernel tid base (mallocEnd base size - base)
  | .mmap cid size =>
    match kernel.currentTask cid with
    | none => book
    | some tid => book.grant kernel tid (taskMmapReserve kernel cid size).2 (reservationSize size)
  | .mmapFile cid args =>
    match kernel.currentTask cid, args.node with
    | some tid, some (_, fileSize) =>
      book.grant kernel tid (taskMmapFile kernel cid args).2 (reservationSize fileSize)
    | _, _ => book
  | .munmap cid addr =>
    match kernel.currentTask cid with
    | none => book
    | some tid => if addr = 0 then book else book.release tid addr
  | _ => book

def addressStep (state : AddressState) (label : AddressLabel) : Option AddressState :=
  if label.imageStart ≤ label.label.imageEnd.getD 0 then
    (userStep state.userland label.label).map fun next =>
      ⟨next, state.book.after state.userland.kernel label⟩
  else none

/-- User address spaces and the book of what is handed out in them. -/
def addressSystem : Transition.System AddressState AddressLabel :=
  Transition.System.ofStep
    (fun state => ∃ machine, state = ⟨⟨initTasking machine, []⟩, ⟨[], fun _ => ⟨0, 0⟩⟩⟩)
    addressStep

/-- The ranges handed out in a directory are apart from each other and from its image. -/
structure Separate (book : Book) : Prop where
  apart : book.grants.Pairwise fun first second =>
    first.pageDir = second.pageDir → Apart first.span second.span
  clear : ∀ grant ∈ book.grants, Apart grant.span (book.image grant.pageDir)

/-! ### One thread allocates -/

/-- Every mapped range of the directory of the caller was handed to the caller. -/
def soleMapper (kernel : Kernel) (book : Book) (cid : Nat) : Bool :=
  match kernel.currentTask cid with
  | none => true
  | some tid =>
    book.grants.all fun grant =>
      !grant.mapped || grant.pageDir ≠ (kernel.tasks tid).pageDir || grant.owner = some tid

/-- Every heap range of the directory of the caller was handed to the caller, and its heap is
above the image. -/
def soleHeap (kernel : Kernel) (book : Book) (cid : Nat) : Bool :=
  match kernel.currentTask cid with
  | none => true
  | some tid =>
    let pageDir := (kernel.tasks tid).pageDir
    pageDir = 0 ||
      book.grants.all (fun grant =>
        grant.mapped || grant.pageDir ≠ pageDir || grant.owner = some tid) &&
      (book.image pageDir).start + (book.image pageDir).length ≤ (kernel.tasks tid).heapPtr

/-- One thread of a directory allocates its heap, above the image, and one maps; and the loader
sets the heap pointer of a thread before the thread allocates. -/
def soleAllocator (state : AddressState) (label : AddressLabel) : Bool :=
  let kernel := state.userland.kernel
  match label.label with
  | .malloc cid _ _ => soleHeap kernel state.book cid
  | .mmap cid _ => soleMapper kernel state.book cid
  | .mmapFile cid _ => soleMapper kernel state.book cid
  | .heapStart _ tid _ =>
    state.book.grants.all fun grant => grant.mapped || grant.owner ≠ some tid
  | _ => true

/-! ### Books that are sound on their own -/

/-- Heap grants end below the limit of SYS_MALLOC, images below the mmap window. -/
structure Book.Sound (book : Book) : Prop where
  separate : Separate book
  heap : ∀ grant ∈ book.grants, grant.mapped = false →
    grant.span.start + grant.span.length ≤ heapLimit
  images : ∀ pageDir, (book.image pageDir).start + (book.image pageDir).length ≤ mmapBase

theorem mem_orphan {tid : Nat} {grants : List Grant} {grant : Grant}
    (member : grant ∈ orphan tid grants) :
    ∃ old ∈ grants, grant.pageDir = old.pageDir ∧ grant.span = old.span ∧
      grant.owner ≠ some tid ∧ (grant.owner = none ∨ grant.owner = old.owner) := by
  obtain ⟨old, there, rfl⟩ := List.mem_map.mp member
  refine ⟨old, there, ?_⟩
  split_ifs with owned
  · exact ⟨rfl, rfl, by simp, Or.inl rfl⟩
  · exact ⟨rfl, rfl, owned, Or.inr rfl⟩

theorem Book.Sound.adopt {book : Book} (sound : book.Sound) (tid : Nat) :
    (book.adopt tid).Sound where
  separate :=
    { apart := by
        refine List.pairwise_map.mpr (sound.separate.apart.imp fun {first second} apart => ?_)
        split_ifs <;> exact apart
      clear := fun grant member => by
        obtain ⟨old, there, pageDir, span, _⟩ := mem_orphan member
        rw [pageDir, span]
        exact sound.separate.clear old there }
  heap grant member low := by
    obtain ⟨old, there, _, span, _⟩ := mem_orphan member
    unfold Grant.mapped at low
    rw [span] at low ⊢
    exact sound.heap old there low
  images := sound.images

theorem mem_vacate {pageDir : Nat} {grants : List Grant} {grant : Grant} :
    grant ∈ vacate pageDir grants ↔ grant ∈ grants ∧ grant.pageDir ≠ pageDir := by
  unfold vacate
  rw [List.mem_filter, decide_eq_true_eq]

/-- A directory without grants may have any image below the mmap window. -/
theorem Book.Sound.vacate {book : Book} (sound : book.Sound) (pageDir : Nat) {image : Span}
    (low : image.start + image.length ≤ mmapBase) :
    Book.Sound ⟨Sched.vacate pageDir book.grants, update book.image pageDir image⟩ where
  separate :=
    { apart := sound.separate.apart.filter _
      clear := fun grant member => by
        obtain ⟨there, other⟩ := mem_vacate.mp member
        dsimp only
        rw [update_of_ne other]
        exact sound.separate.clear grant there }
  heap grant member := sound.heap grant (mem_vacate.mp member).1
  images other := by
    by_cases same : other = pageDir
    · rw [same]
      dsimp only
      rw [update_self]
      exact low
    · dsimp only
      rw [update_of_ne same]
      exact sound.images other

theorem Book.Sound.load {book : Book} (sound : book.Sound) (tid pageDir : Nat) {image : Span}
    (low : image.start + image.length ≤ mmapBase) : (book.load tid pageDir image).Sound :=
  (sound.vacate pageDir low).adopt tid

theorem forkGrant_spec {parent child pageDir : Nat} {regions : List MmapRegion}
    {grant copy : Grant} (forked : forkGrant parent child pageDir regions grant = some copy) :
    copy.pageDir = pageDir ∧ copy.span = grant.span ∧
      (copy.owner = none ∨ copy.owner = some child ∧ grant.owner = some parent ∧
        (grant.mapped = true → ∃ region ∈ regions, region.span = grant.span)) := by
  unfold forkGrant at forked
  split_ifs at forked with owned lost
  · rw [← Option.some.inj forked]
    refine ⟨rfl, rfl, Or.inr ⟨rfl, owned, fun mapped => ?_⟩⟩
    rw [mapped, Bool.true_and, List.all_eq_true] at lost
    simpa using lost
  · rw [← Option.some.inj forked]
    exact ⟨rfl, rfl, Or.inl rfl⟩

theorem Book.Sound.fork {book : Book} (sound : book.Sound) (parent source child : Nat)
    (task : Task) (clone : Nat) : (book.fork parent source child task clone).Sound := by
  have rest := (sound.vacate clone (sound.images source)).adopt child
  have copies : ∀ copy ∈ (book.grants.filter fun grant => grant.pageDir = source).filterMap
      (forkGrant parent child clone task.mmapRegions),
      ∃ grant ∈ book.grants, grant.pageDir = source ∧ copy.pageDir = clone ∧
        copy.span = grant.span := by
    intro copy member
    obtain ⟨grant, listed, forked⟩ := List.mem_filterMap.mp member
    obtain ⟨there, same⟩ := List.mem_filter.mp listed
    obtain ⟨pageDir, span, _⟩ := forkGrant_spec forked
    exact ⟨grant, there, of_decide_eq_true same, pageDir, span⟩
  refine ⟨⟨?_, ?_⟩, ?_, rest.images⟩
  · refine List.pairwise_append.mpr ⟨?_, rest.separate.apart, ?_⟩
    · refine List.pairwise_filterMap.mpr (List.pairwise_filter.mpr
        (sound.separate.apart.imp fun {first second} apart one two => ?_))
      intro left forkedLeft right forkedRight _
      obtain ⟨_, spanLeft, _⟩ := forkGrant_spec forkedLeft
      obtain ⟨_, spanRight, _⟩ := forkGrant_spec forkedRight
      rw [spanLeft, spanRight]
      exact apart ((of_decide_eq_true one).trans (of_decide_eq_true two).symm)
    · intro copy member other listed same
      obtain ⟨_, _, _, pageDir, _⟩ := copies copy member
      obtain ⟨old, there, pageDirOld, _⟩ := mem_orphan listed
      exact absurd (pageDirOld.symm.trans (same.symm.trans pageDir)) (mem_vacate.mp there).2
  · intro grant member
    rcases List.mem_append.mp member with copied | kept
    · obtain ⟨old, there, same, pageDir, span⟩ := copies grant copied
      rw [pageDir, span]
      show Apart old.span (update book.image clone (book.image source) clone)
      rw [update_self, ← same]
      exact sound.separate.clear old there
    · exact rest.separate.clear grant kept
  · intro grant member low
    rcases List.mem_append.mp member with copied | kept
    · obtain ⟨old, there, _, _, span⟩ := copies grant copied
      unfold Grant.mapped at low
      rw [span] at low ⊢
      exact sound.heap old there low
    · exact rest.heap grant kept low

theorem Book.Sound.release {book : Book} (sound : book.Sound) (tid base : Nat) :
    (book.release tid base).Sound where
  separate :=
    { apart := sound.separate.apart.filter _
      clear := fun grant member => sound.separate.clear grant (List.mem_filter.mp member).1 }
  heap grant member := sound.heap grant (List.mem_filter.mp member).1
  images := sound.images

/-- A range may be handed out when it is apart from the image and the grants of its directory. -/
theorem Book.Sound.grant {book : Book} (sound : book.Sound) {kernel : Kernel}
    {tid base length : Nat}
    (clear : Apart ⟨base, length⟩ (book.image (kernel.tasks tid).pageDir))
    (apart : ∀ grant ∈ book.grants, grant.pageDir = (kernel.tasks tid).pageDir →
      Apart ⟨base, length⟩ grant.span)
    (heap : base < mmapBase → base + length ≤ heapLimit) :
    (book.grant kernel tid base length).Sound := by
  unfold Book.grant
  split_ifs
  · exact sound
  · refine ⟨⟨List.pairwise_cons.mpr ⟨fun grant member same => ?_, sound.separate.apart⟩, ?_⟩, ?_,
      sound.images⟩
    · exact apart grant member same.symm
    · intro grant member
      rcases List.mem_cons.mp member with rfl | old
      · exact clear
      · exact sound.separate.clear grant old
    · intro grant member low
      rcases List.mem_cons.mp member with rfl | old
      · exact heap (by simpa [Grant.mapped] using low)
      · exact sound.heap grant old low

end MectovOS.Sched
