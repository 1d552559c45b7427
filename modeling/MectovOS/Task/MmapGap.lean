/-
This file is about where `mmap_region_alloc` of src/sys/task.c puts a region. Its
comment promises the lowest gap that fits; the search looks only at the window's
start and at every multiple of the size and one page behind it, and it tests the
end of the window only when a position is taken. So it finds the lowest gap
exactly when that gap lies at one of its positions, and finds nothing in a full
window exactly when every position is taken.
-/

import MectovOS.Task.MmapTable

namespace MectovOS.Sched

open Spans (Span Apart)

/-! ### Gaps -/

/-- A range is apart from every region in use. -/
def Clear (regions : List MmapRegion) (base size : Nat) : Prop :=
  ∀ region ∈ regions, region.base ≠ 0 → Apart ⟨base, size⟩ region.span

/-- A page-aligned gap of the mmap window. -/
structure Gap (regions : List MmapRegion) (size base : Nat) : Prop where
  aligned : base % 4096 = 0
  low : mmapBase ≤ base
  high : base + size ≤ mmapEnd
  clear : Clear regions base size

structure LowestGap (regions : List MmapRegion) (size base : Nat) : Prop where
  gap : Gap regions size base
  lowest : ∀ other, Gap regions size other → base ≤ other

/-- The first slot that is not in use. -/
def freeSlotOf (regions : List MmapRegion) : Option Nat :=
  regions.findIdx? fun region => region.base = 0

/-- What `mmap_region_alloc` should return: a free slot with the lowest gap, or nothing when
there is no slot or no gap. -/
def PlacesLowest (regions : List MmapRegion) (size : Nat) : Option (Nat × Nat) → Prop
  | some (slot, base) => freeSlotOf regions = some slot ∧ LowestGap regions size base
  | none => ¬((∃ slot, freeSlotOf regions = some slot) ∧ ∃ base, Gap regions size base)

/-! ### The positions of the search -/

/-- The positions the search looks at. -/
def probe (size step : Nat) : Nat := mmapBase + step * (size + 4096)

/-- The search takes the first position that is clear. -/
structure FirstClear (regions : List MmapRegion) (size start step : Nat) : Prop where
  after : start ≤ step
  high : probe size step < mmapEnd
  clear : Clear regions (probe size step) size
  before : ∀ earlier, start ≤ earlier → earlier < step →
    ¬Clear regions (probe size earlier) size

theorem probe_succ (size step : Nat) : probe size (step + 1) = probe size step + size + 4096 := by
  unfold probe
  rw [Nat.succ_mul]
  omega

theorem probe_mono {size first second : Nat} (before : first ≤ second) :
    probe size first ≤ probe size second :=
  Nat.add_le_add_left (Nat.mul_le_mul_right _ before) _

theorem placed_probe {size step : Nat} (positive : 0 < size) (aligned : size % 4096 = 0)
    (long : size ≤ mmapEnd - mmapBase) (high : probe size step < mmapEnd) :
    Placed (probe size step) size := by
  refine ⟨Nat.le_add_right _ _, high, ?_, positive, aligned, long⟩
  have pages : (size + 4096) % 4096 = 0 := by omega
  unfold probe
  rw [Nat.add_mod, Nat.mul_mod, pages]
  rfl

/-- The check of the search is the one of the addresses. -/
theorem fitsAt_iff {regions : List MmapRegion} (regular : Regular regions) {cursor size : Nat}
    (placed : Placed cursor size) :
    fitsAt regions cursor size = true ↔ Clear regions cursor size := by
  constructor
  · intro fits region member used
    exact apart_of_fitsAt placed fits member used (regular.placed region member used)
  · intro clear
    refine List.all_eq_true.mpr fun region member => ?_
    by_cases used : region.base = 0
    · rw [decide_eq_true used, Bool.true_or]
    · have there := regular.placed region member used
      have high := placed.high
      have long := placed.size_le
      have highThere := there.high
      have longThere := there.size_le
      have apart := clear region member used
      simp only [mmapEnd, mmapBase] at high long highThere longThere
      unfold Apart MmapRegion.span at apart
      dsimp only at apart
      unfold add32
      rw [Nat.mod_eq_of_lt (by omega), Nat.mod_eq_of_lt (by omega), decide_eq_false used,
        Bool.false_or, Bool.not_eq_true', Bool.and_eq_false_iff, decide_eq_false_iff_not,
        decide_eq_false_iff_not]
      omega

/-- What the search from a position on finds. -/
def Searched (regions : List MmapRegion) (size start : Nat) : Option Nat → Prop
  | some base => ∃ step, base = probe size step ∧ FirstClear regions size start step
  | none => ∀ step, start ≤ step → probe size step < mmapEnd →
      ¬Clear regions (probe size step) size

/-- What is found behind a position that is taken is what is found from it on. -/
theorem Searched.earlier {regions : List MmapRegion} {size start : Nat} {found : Option Nat}
    (later : Searched regions size (start + 1) found)
    (taken : ¬Clear regions (probe size start) size) : Searched regions size start found := by
  cases found with
  | some base =>
    obtain ⟨step, rfl, first⟩ := later
    refine ⟨step, rfl, Nat.le_of_succ_le first.after, first.high, first.clear, ?_⟩
    intro earlier low below
    by_cases here : earlier = start
    · rw [here]
      exact taken
    · exact first.before earlier (by omega) below
  | none =>
    intro step low high
    by_cases here : step = start
    · rw [here]
      exact taken
    · exact later step (by omega) high

theorem searched_mmapCursor {regions : List MmapRegion} (regular : Regular regions)
    {size start steps : Nat} (positive : 0 < size) (aligned : size % 4096 = 0)
    (long : size ≤ mmapEnd - mmapBase) (high : probe size start < mmapEnd)
    (enough : mmapEnd ≤ probe size start + 4096 * steps) :
    Searched regions size start (mmapCursor regions size steps (probe size start)) := by
  induction steps generalizing start with
  | zero => omega
  | succ steps inductionHypothesis =>
    have placed := placed_probe positive aligned long high
    unfold mmapCursor
    dsimp only
    rw [nextCursor_spec placed.base_aligned placed.high aligned long, ← probe_succ]
    split_ifs with fits past
    · exact ⟨start, rfl, le_rfl, high, (fitsAt_iff regular placed).mp fits,
        fun _ low below => absurd below (Nat.not_lt_of_le low)⟩
    · have taken := fun clear => fits ((fitsAt_iff regular placed).mpr clear)
      refine Searched.earlier (fun step low below => ?_) taken
      have beyond := @probe_mono size (start + 1) step low
      omega
    · have taken := fun clear => fits ((fitsAt_iff regular placed).mpr clear)
      have next := probe_succ size start
      exact (inductionHypothesis (Nat.lt_of_not_le past) (by omega)).earlier taken

/-! ### The lowest gap -/

/-- The positions of the search agree with the gaps: every slot is in use, or the lowest gap
lies at a position, or there is no gap and every position is taken. -/
def ProbesAgree (regions : List MmapRegion) (size : Nat) : Prop :=
  freeSlotOf regions = none ∨ (∃ step, LowestGap regions size (probe size step)) ∨
    (¬∃ base, Gap regions size base) ∧
      ∀ step, probe size step < mmapEnd → ¬Clear regions (probe size step) size

/-- A position that is clear below a gap is a gap. -/
theorem gap_of_clear {regions : List MmapRegion} {size step : Nat} (positive : 0 < size)
    (aligned : size % 4096 = 0) (long : size ≤ mmapEnd - mmapBase) {base : Nat}
    (gap : Gap regions size base) (below : probe size step ≤ base)
    (clear : Clear regions (probe size step) size) : Gap regions size (probe size step) := by
  have high := gap.high
  have placed := placed_probe positive aligned long
    (show probe size step < mmapEnd by omega)
  exact ⟨placed.base_aligned, placed.low, by omega, clear⟩

/-- A program has reserved one page. -/
def onePageUserland : Userland :=
  userRun oneCore (startProgram 0x300000 0x08001000 ++ [.mmap 0 4096])

theorem onePageUserland_reachable :
    userSystem.Reachable Transition.anyStep onePageUserland :=
  userRun_reachable (by decide +kernel)

/-- Its region table. -/
def onePageRegions : List MmapRegion :=
  ⟨mmapBase, 4096, 0, -1, 0, 0⟩ :: List.replicate 7 MmapRegion.empty

theorem onePageUserland_regions :
    (onePageUserland.kernel.tasks 1).mmapRegions = onePageRegions := by decide +kernel

theorem gap_behind_page : Gap onePageRegions 0x400000 (mmapBase + 4096) where
  aligned := by decide
  low := by decide
  high := by decide
  clear := by
    have clear : ∀ region ∈ onePageRegions, region.base ≠ 0 →
        Apart ⟨mmapBase + 4096, 0x400000⟩ region.span := by decide
    exact clear

end MectovOS.Sched
