/-
This file is a library of buddy stores. The free cells lie in blocks of 2^order
cells, each aligned to its size and listed under its order, with a mark at its
first cell. A cell is taken by splitting a block down to it, and put back by
merging it with its buddy as long as the buddy is a free block of the same
order. Both keep a store sound, and change the free cells by that one cell.
-/

import Mathlib

namespace Buddy

open Function

/-! ### Stores -/

/-- The mark of a cell: it starts a free block of an order, or it carries a label. -/
inductive Mark (Label : Type) where
  | head (order : Nat)
  | label (value : Label)
  deriving DecidableEq

/-- The first cells of the free blocks by their order, and the marks. -/
structure Store (Label : Type) where
  lists : Nat → List Nat
  mark : Nat → Mark Label

variable {Label : Type}

/-- The cells of a block. -/
def Inside (head order cell : Nat) : Prop := head ≤ cell ∧ cell < head + 2 ^ order

namespace Store

/-- List a block. -/
def add (store : Store Label) (head order : Nat) : Store Label where
  lists := update store.lists order (head :: store.lists order)
  mark := update store.mark head (.head order)

/-- Take a block off its list. -/
def remove (store : Store Label) (head order : Nat) (value : Label) : Store Label where
  lists := update store.lists order ((store.lists order).erase head)
  mark := update store.mark head (.label value)

/-- A cell of a block on a list. -/
def Free (store : Store Label) (cell : Nat) : Prop :=
  ∃ order head, head ∈ store.lists order ∧ Inside head order cell

/-- Every listed block is marked, aligned, in the window, and apart from the others. -/
structure Sound (store : Store Label) (maxOrder low high : Nat) : Prop where
  listed : ∀ order head, head ∈ store.lists order ↔ store.mark head = .head order
  nodup : ∀ order, (store.lists order).Nodup
  order_le : ∀ order head, head ∈ store.lists order → order ≤ maxOrder
  aligned : ∀ order head, head ∈ store.lists order → 2 ^ order ∣ head
  window : ∀ order head, head ∈ store.lists order → low ≤ head ∧ head + 2 ^ order ≤ high
  apart : ∀ first second head other, head ∈ store.lists first → other ∈ store.lists second →
    head ≠ other → head + 2 ^ first ≤ other ∨ other + 2 ^ second ≤ head

variable {store : Store Label} {maxOrder low high : Nat}

/-! ### One block -/

theorem mem_add {head order other second : Nat} :
    other ∈ (store.add head order).lists second ↔
      other ∈ store.lists second ∨ second = order ∧ other = head := by
  unfold add
  dsimp only
  by_cases same : second = order
  · rw [same, update_self, List.mem_cons, or_comm]
    simp only [true_and]
  · rw [update_of_ne same]
    simp only [same, false_and, or_false]

theorem head_unique (sound : store.Sound maxOrder low high) {head first second : Nat}
    (member : head ∈ store.lists first) (again : head ∈ store.lists second) : first = second := by
  have marks := ((sound.listed _ _).mp member).symm.trans ((sound.listed _ _).mp again)
  exact Mark.head.inj marks

theorem mem_remove (sound : store.Sound maxOrder low high) {head order other second : Nat}
    (member : head ∈ store.lists order) {value : Label} :
    other ∈ (store.remove head order value).lists second ↔
      other ∈ store.lists second ∧ other ≠ head := by
  unfold remove
  dsimp only
  by_cases same : second = order
  · rw [same, update_self, (sound.nodup order).mem_erase_iff, and_comm]
  · rw [update_of_ne same]
    refine ⟨fun listed => ⟨listed, fun equal => same ?_⟩, And.left⟩
    exact head_unique sound (equal ▸ listed) member

theorem Sound.remove (sound : store.Sound maxOrder low high) {head order : Nat}
    (member : head ∈ store.lists order) (value : Label) :
    (store.remove head order value).Sound maxOrder low high where
  listed second other := by
    rw [mem_remove sound member]
    unfold Store.remove
    dsimp only
    by_cases same : other = head
    · rw [same, update_self]
      exact iff_of_false (fun both => both.2 rfl) nofun
    · rw [update_of_ne same, and_iff_left same]
      exact sound.listed second other
  nodup second := by
    unfold Store.remove
    dsimp only
    by_cases same : second = order
    · rw [same, update_self]
      exact (sound.nodup order).erase head
    · rw [update_of_ne same]
      exact sound.nodup second
  order_le second other listed := sound.order_le _ _ ((mem_remove sound member).mp listed).1
  aligned second other listed := sound.aligned _ _ ((mem_remove sound member).mp listed).1
  window second other listed := sound.window _ _ ((mem_remove sound member).mp listed).1
  apart first second head other listed there :=
    sound.apart _ _ _ _ ((mem_remove sound member).mp listed).1
      ((mem_remove sound member).mp there).1

/-- A cell lies in one block at most. -/
theorem block_unique (sound : store.Sound maxOrder low high) {head other first second cell : Nat}
    (member : head ∈ store.lists first) (inside : Inside head first cell)
    (there : other ∈ store.lists second) (again : Inside other second cell) : head = other := by
  by_contra differ
  have low := inside.1
  have high := inside.2
  have lowThere := again.1
  have highThere := again.2
  rcases sound.apart _ _ _ _ member there differ with before | after <;> omega

theorem free_remove (sound : store.Sound maxOrder low high) {head order : Nat}
    (member : head ∈ store.lists order) (value : Label) (cell : Nat) :
    (store.remove head order value).Free cell ↔ store.Free cell ∧ ¬Inside head order cell := by
  constructor
  · rintro ⟨second, other, listed, inside⟩
    obtain ⟨there, differ⟩ := (mem_remove sound member).mp listed
    exact ⟨⟨second, other, there, inside⟩,
      fun again => differ (block_unique sound there inside member again)⟩
  · rintro ⟨⟨second, other, there, inside⟩, outside⟩
    refine ⟨second, other, (mem_remove sound member).mpr ⟨there, fun same => outside ?_⟩, inside⟩
    obtain rfl := same
    rwa [head_unique sound there member] at inside

theorem inside_head (head order : Nat) : Inside head order head :=
  ⟨le_rfl, Nat.lt_add_of_pos_right (Nat.two_pow_pos order)⟩

/-- A block that may be listed: none of its cells is free yet. -/
structure Room (store : Store Label) (maxOrder low high head order : Nat) : Prop where
  order_le : order ≤ maxOrder
  aligned : 2 ^ order ∣ head
  window : low ≤ head ∧ head + 2 ^ order ≤ high
  taken : ∀ cell, Inside head order cell → ¬store.Free cell

theorem Room.unlisted {head order : Nat} (room : store.Room maxOrder low high head order)
    (second : Nat) : head ∉ store.lists second := fun listed =>
  room.taken head (inside_head head order) ⟨second, head, listed, inside_head head second⟩

/-- Two ranges of which neither holds a cell of the other are apart. -/
theorem Room.apart {head order : Nat} (room : store.Room maxOrder low high head order)
    {other second : Nat} (listed : other ∈ store.lists second) :
    head + 2 ^ order ≤ other ∨ other + 2 ^ second ≤ head := by
  have here := Nat.two_pow_pos order
  have there := Nat.two_pow_pos second
  rcases Nat.le_or_ge head other with before | after
  · refine Or.inl (Nat.le_of_not_lt fun overlap => ?_)
    exact room.taken other ⟨before, overlap⟩ ⟨second, other, listed, inside_head other second⟩
  · refine Or.inr (Nat.le_of_not_lt fun overlap => ?_)
    exact room.taken head (inside_head head order) ⟨second, other, listed, after, overlap⟩

theorem Sound.add (sound : store.Sound maxOrder low high) {head order : Nat}
    (room : store.Room maxOrder low high head order) :
    (store.add head order).Sound maxOrder low high where
  listed second other := by
    rw [mem_add]
    unfold Store.add
    dsimp only
    by_cases same : other = head
    · rw [same, update_self]
      simp only [room.unlisted second, false_or, and_true, Mark.head.injEq]
      exact eq_comm
    · rw [update_of_ne same]
      simp only [same, and_false, or_false]
      exact sound.listed second other
  nodup second := by
    unfold Store.add
    dsimp only
    by_cases same : second = order
    · rw [same, update_self]
      exact List.nodup_cons.mpr ⟨room.unlisted order, sound.nodup order⟩
    · rw [update_of_ne same]
      exact sound.nodup second
  order_le second other listed := by
    rcases mem_add.mp listed with there | ⟨rfl, rfl⟩
    · exact sound.order_le _ _ there
    · exact room.order_le
  aligned second other listed := by
    rcases mem_add.mp listed with there | ⟨rfl, rfl⟩
    · exact sound.aligned _ _ there
    · exact room.aligned
  window second other listed := by
    rcases mem_add.mp listed with there | ⟨rfl, rfl⟩
    · exact sound.window _ _ there
    · exact room.window
  apart first second left right listed there differ := by
    rcases mem_add.mp listed with old | ⟨rfl, rfl⟩
    · rcases mem_add.mp there with also | ⟨rfl, rfl⟩
      · exact sound.apart _ _ _ _ old also differ
      · exact (room.apart old).symm
    · rcases mem_add.mp there with also | ⟨rfl, rfl⟩
      · exact room.apart also
      · exact absurd rfl differ

theorem free_add {head order : Nat} (cell : Nat) :
    (store.add head order).Free cell ↔ store.Free cell ∨ Inside head order cell := by
  constructor
  · rintro ⟨second, other, listed, inside⟩
    rcases mem_add.mp listed with there | ⟨rfl, rfl⟩
    · exact Or.inl ⟨second, other, there, inside⟩
    · exact Or.inr inside
  · rintro (⟨second, other, listed, inside⟩ | inside)
    · exact ⟨second, other, mem_add.mpr (Or.inl listed), inside⟩
    · exact ⟨order, head, mem_add.mpr (Or.inr ⟨rfl, rfl⟩), inside⟩

/-- Put another label on a cell. -/
def relabel (store : Store Label) (cell : Nat) (value : Label) : Store Label :=
  { store with mark := update store.mark cell (.label value) }

/-- A label on a cell that is not free changes nothing else. -/
theorem Sound.relabel (sound : store.Sound maxOrder low high) {cell : Nat}
    (taken : ¬store.Free cell) (value : Label) :
    (store.relabel cell value).Sound maxOrder low high :=
  { sound with
    listed := fun order head => by
      by_cases same : head = cell
      · rw [same]
        refine iff_of_false (fun member => taken ⟨order, cell, member, inside_head cell order⟩) ?_
        unfold Store.relabel
        dsimp only
        rw [update_self]
        nofun
      · refine (sound.listed order head).trans (Eq.congr ?_ rfl)
        exact (update_of_ne same _ _).symm }

/-! ### Taking a cell -/

/-- List the upper halves of a block that was taken, down to its first cell. -/
def split (store : Store Label) (head : Nat) : Nat → Store Label
  | 0 => store
  | order + 1 => (store.add (head + 2 ^ order) order).split head order

/-- The order of the smallest block. -/
def firstOrder (store : Store Label) (maxOrder : Nat) : Option Nat :=
  (List.range (maxOrder + 1)).find? fun order => !(store.lists order).isEmpty

/-- Take one cell: the first of a smallest block. -/
def take (store : Store Label) (maxOrder : Nat) (taken : Label) : Option (Nat × Store Label) :=
  match store.firstOrder maxOrder with
  | none => none
  | some order =>
    match store.lists order with
    | [] => none
    | head :: _ => some (head, (store.remove head order taken).split head order)

/-- What an operation did: the free cells are those of a set, and the marks changed at free
cells only. -/
structure Yields (before after : Store Label) (maxOrder low high : Nat) (cells : Nat → Prop) :
    Prop where
  sound : after.Sound maxOrder low high
  free : ∀ cell, after.Free cell ↔ cells cell
  mark : ∀ cell, ¬after.Free cell → after.mark cell = before.mark cell

theorem split_spec (sound : store.Sound maxOrder low high) {head order : Nat}
    (room : store.Room maxOrder low high head order) :
    Yields store (store.split head order) maxOrder low high fun cell =>
      store.Free cell ∨ Inside head order cell ∧ cell ≠ head := by
  induction order generalizing store with
  | zero =>
    refine ⟨sound, fun cell => ⟨Or.inl, ?_⟩, fun _ _ => rfl⟩
    rintro (free | ⟨⟨low, high⟩, differ⟩)
    · exact free
    · rw [Nat.pow_zero] at high
      omega
  | succ order inductionHypothesis =>
    have double : 2 ^ (order + 1) = 2 ^ order + 2 ^ order := by rw [Nat.pow_succ]; omega
    have window := room.window
    have order_le : order ≤ maxOrder := Nat.le_of_succ_le room.order_le
    have aligned : 2 ^ order ∣ head :=
      (Nat.pow_dvd_pow 2 (Nat.le_succ order)).trans room.aligned
    have upper : store.Room maxOrder low high (head + 2 ^ order) order := by
      refine ⟨order_le, Nat.dvd_add aligned (Nat.dvd_refl _), by omega, fun cell inside => ?_⟩
      refine room.taken cell ?_
      unfold Inside at inside ⊢
      omega
    have lower : (store.add (head + 2 ^ order) order).Room maxOrder low high head order := by
      refine ⟨order_le, aligned, by omega, fun cell inside free => ?_⟩
      rcases (free_add cell).mp free with old | other
      · refine room.taken cell ?_ old
        unfold Inside at inside ⊢
        omega
      · unfold Inside at inside other
        omega
    have done := inductionHypothesis (sound.add upper) lower
    refine ⟨done.sound, fun cell => ?_, fun cell taken => ?_⟩
    · rw [split, done.free, free_add]
      have positive := Nat.two_pow_pos order
      unfold Inside
      constructor
      · rintro ((free | high) | ⟨low, differ⟩)
        · exact Or.inl free
        · exact Or.inr ⟨by omega, by omega⟩
        · exact Or.inr ⟨by omega, differ⟩
      · rintro (free | ⟨inside, differ⟩)
        · exact Or.inl (Or.inl free)
        · by_cases below : cell < head + 2 ^ order
          · exact Or.inr ⟨⟨inside.1, below⟩, differ⟩
          · exact Or.inl (Or.inr ⟨by omega, by omega⟩)
    · rw [split] at taken ⊢
      rw [done.mark cell taken]
      unfold Store.add
      dsimp only
      refine update_of_ne (fun same => taken ?_) _ _
      rw [done.free, free_add, same]
      exact Or.inl (Or.inr (inside_head _ _))

/-- What taking a cell does. -/
structure Takes (before after : Store Label) (maxOrder low high cell : Nat) (taken : Label) :
    Prop where
  sound : after.Sound maxOrder low high
  was : before.Free cell
  window : low ≤ cell ∧ cell < high
  free : ∀ other, after.Free other ↔ before.Free other ∧ other ≠ cell
  own : after.mark cell = .label taken
  mark : ∀ other, ¬before.Free other → after.mark other = before.mark other

theorem take_spec (sound : store.Sound maxOrder low high) {taken : Label} {cell : Nat}
    {after : Store Label} (took : store.take maxOrder taken = some (cell, after)) :
    Takes store after maxOrder low high cell taken := by
  unfold take at took
  cases first : store.firstOrder maxOrder with
  | none =>
    rw [first] at took
    cases took
  | some order =>
    rw [first] at took
    dsimp only at took
    cases listed : store.lists order with
    | nil =>
      rw [listed] at took
      cases took
    | cons head rest =>
      rw [listed] at took
      obtain ⟨rfl, rfl⟩ := Prod.mk.inj (Option.some.inj took)
      have member : head ∈ store.lists order := by
        rw [listed]
        exact List.mem_cons_self
      have window := sound.window order head member
      have positive := Nat.two_pow_pos order
      have gone : ∀ other, Inside head order other → ¬(store.remove head order taken).Free other :=
        fun other inside free => ((free_remove sound member taken other).mp free).2 inside
      have room : (store.remove head order taken).Room maxOrder low high head order :=
        ⟨sound.order_le _ _ member, sound.aligned _ _ member, window, gone⟩
      have done := split_spec (sound.remove member taken) room
      have free : ∀ other, ((store.remove head order taken).split head order).Free other ↔
          store.Free other ∧ other ≠ head := by
        intro other
        rw [done.free, free_remove sound member]
        constructor
        · rintro (⟨free, outside⟩ | ⟨inside, differ⟩)
          · exact ⟨free, fun same => outside (same ▸ inside_head head order)⟩
          · exact ⟨⟨order, head, member, inside⟩, differ⟩
        · rintro ⟨free, differ⟩
          by_cases inside : Inside head order other
          · exact Or.inr ⟨inside, differ⟩
          · exact Or.inl ⟨free, inside⟩
      refine ⟨done.sound, ⟨order, head, member, inside_head head order⟩, by omega, free, ?_,
        fun other held => ?_⟩
      · rw [done.mark head fun again => ((free head).mp again).2 rfl]
        exact update_self _ _ _
      · have differ : other ≠ head := fun same =>
          held (same ▸ ⟨order, head, member, inside_head head order⟩)
        rw [done.mark other fun again => held ((free other).mp again).1]
        exact update_of_ne differ _ _

/-! ### Putting a cell back -/

/-- The other half of the block of the next order. -/
def buddyOf (head order : Nat) : Nat := head ^^^ 2 ^ order

/-- Listing a block adds its cells. -/
theorem yields_add (sound : store.Sound maxOrder low high) {head order : Nat}
    (room : store.Room maxOrder low high head order) :
    Yields store (store.add head order) maxOrder low high fun cell =>
      store.Free cell ∨ Inside head order cell := by
  refine ⟨sound.add room, free_add, fun cell taken => ?_⟩
  refine update_of_ne (fun same => taken ?_) _ _
  rw [free_add, same]
  exact Or.inr (inside_head head order)

/-- Merge a block with its buddy as long as that is a free block of the same order, and list
what it grew to. The first argument bounds the merges. -/
def coalesce [DecidableEq Label] (low high : Nat) (released : Label) :
    Nat → Nat → Nat → Store Label → Store Label
  | 0, order, head, store => store.add head order
  | fuel + 1, order, head, store =>
    let buddy := buddyOf head order
    if buddy < low ∨ high ≤ buddy ∨ store.mark buddy ≠ .head order ∨
        min head buddy % 2 ^ (order + 1) ≠ 0 then store.add head order
    else coalesce low high released fuel (order + 1) (min head buddy)
      (store.remove buddy order released)

theorem buddyOf_spec {head order : Nat} (aligned : 2 ^ order ∣ head) :
    buddyOf head order = head + 2 ^ order ∨ buddyOf head order + 2 ^ order = head := by
  obtain ⟨block, rfl⟩ := aligned
  have factored : buddyOf (2 ^ order * block) order = (block ^^^ 1) * 2 ^ order := by
    have scaled : (block ^^^ 1) <<< order = block <<< order ^^^ 1 <<< order :=
      Nat.shiftLeft_xor_distrib
    rw [Nat.shiftLeft_eq, Nat.shiftLeft_eq, Nat.shiftLeft_eq, Nat.one_mul] at scaled
    unfold buddyOf
    rw [scaled, Nat.mul_comm]
  rw [factored]
  rcases Nat.even_or_odd block with even | odd
  · left
    rw [Nat.xor_one_of_even even, Nat.succ_mul, Nat.mul_comm]
  · right
    rw [Nat.xor_one_of_odd odd, Nat.mul_comm (2 ^ order) block]
    have positive := odd.pos
    rw [← Nat.succ_mul]
    congr 1
    omega

/-- The cells of the two halves are those of the merged block. -/
theorem inside_merged {head order : Nat} (aligned : 2 ^ order ∣ head) (cell : Nat) :
    Inside (min head (buddyOf head order)) (order + 1) cell ↔
      Inside head order cell ∨ Inside (buddyOf head order) order cell := by
  have double : 2 ^ (order + 1) = 2 ^ order + 2 ^ order := by rw [Nat.pow_succ]; omega
  unfold Inside
  rw [double]
  rcases buddyOf_spec aligned with upper | lower
  · rw [upper, Nat.min_eq_left (Nat.le_add_right _ _)]
    omega
  · rw [Nat.min_eq_right (Nat.le.intro lower)]
    omega

/-- A block merged with a free buddy may be listed once the buddy is off its list. -/
theorem Room.merged (sound : store.Sound maxOrder low high) {head order : Nat}
    (room : store.Room maxOrder low high head order) (bound : order + 1 ≤ maxOrder)
    (free : buddyOf head order ∈ store.lists order) (even : min head (buddyOf head order) %
      2 ^ (order + 1) = 0) (released : Label) :
    (store.remove (buddyOf head order) order released).Room maxOrder low high
      (min head (buddyOf head order)) (order + 1) := by
  have double : 2 ^ (order + 1) = 2 ^ order + 2 ^ order := by rw [Nat.pow_succ]; omega
  have window := room.window
  have there := sound.window _ _ free
  have halves := buddyOf_spec room.aligned
  refine ⟨bound, Nat.dvd_of_mod_eq_zero even, by omega, fun cell inside again => ?_⟩
  have left := (free_remove sound free released cell).mp again
  rcases (inside_merged room.aligned cell).mp inside with own | other
  · exact room.taken cell own left.1
  · exact left.2 other

theorem coalesce_spec [DecidableEq Label] (sound : store.Sound maxOrder low high)
    (released : Label) {head order fuel : Nat}
    (room : store.Room maxOrder low high head order) (bound : order + fuel ≤ maxOrder) :
    Yields store (coalesce low high released fuel order head store) maxOrder low high fun cell =>
      store.Free cell ∨ Inside head order cell := by
  induction fuel generalizing store head order with
  | zero => exact yields_add sound room
  | succ fuel inductionHypothesis =>
    unfold coalesce
    dsimp only
    split_ifs with stops
    · exact yields_add sound room
    · obtain ⟨-, -, marked, even⟩ := not_or.mp stops |>.imp_right fun rest =>
        (not_or.mp rest).imp_right not_or.mp
      have free := (sound.listed _ _).mpr (not_not.mp marked)
      have done := inductionHypothesis (sound.remove free released)
        (room.merged sound (by omega) free (not_not.mp even) released) (by omega)
      have cells : ∀ cell, (coalesce low high released fuel (order + 1)
          (min head (buddyOf head order))
          (store.remove (buddyOf head order) order released)).Free cell ↔
          store.Free cell ∨ Inside head order cell := by
        intro cell
        rw [done.free, free_remove sound free, inside_merged room.aligned]
        constructor
        · rintro (⟨old, -⟩ | own | other)
          · exact Or.inl old
          · exact Or.inr own
          · exact Or.inl ⟨order, _, free, other⟩
        · rintro (old | own)
          · by_cases other : Inside (buddyOf head order) order cell
            · exact Or.inr (Or.inr other)
            · exact Or.inl ⟨old, other⟩
          · exact Or.inr (Or.inl own)
      refine ⟨done.sound, cells, fun cell taken => ?_⟩
      rw [done.mark cell taken]
      refine update_of_ne (fun same => taken ?_) _ _
      rw [cells, same]
      exact Or.inl ⟨order, _, free, inside_head _ order⟩

/-- Put one cell back. -/
def put [DecidableEq Label] (store : Store Label) (maxOrder low high : Nat) (released : Label)
    (cell : Nat) : Store Label :=
  coalesce low high released maxOrder 0 cell store

theorem inside_zero (head cell : Nat) : Inside head 0 cell ↔ cell = head := by
  unfold Inside
  rw [Nat.pow_zero]
  omega

/-- Putting back a cell that is not free adds it to the free cells. -/
theorem put_spec [DecidableEq Label] (sound : store.Sound maxOrder low high) (released : Label)
    {cell : Nat} (window : low ≤ cell ∧ cell < high) (taken : ¬store.Free cell) :
    Yields store (store.put maxOrder low high released cell) maxOrder low high fun other =>
      store.Free other ∨ other = cell := by
  have room : store.Room maxOrder low high cell 0 := by
    refine ⟨Nat.zero_le _, one_dvd _, window, fun other inside => ?_⟩
    rw [(inside_zero cell other).mp inside]
    exact taken
  have done := coalesce_spec sound released room (Nat.zero_add maxOrder).le
  exact ⟨done.sound, fun other => (done.free other).trans (or_congr_right (inside_zero cell other)),
    done.mark⟩

end Store

end Buddy
