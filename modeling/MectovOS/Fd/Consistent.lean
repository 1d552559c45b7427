/-
This file states when the descriptor tables are consistent, and proves it of the
stretches that change them: opening and mapping a descriptor, sharing one,
releasing one. Two sets carry what a half-finished pipe call still holds: the
spare descriptors, which are in use and named nowhere, and the pipes being
taken down.
-/

import MectovOS.Fd.Table
import MectovOS.Lib.Naming

namespace MectovOS.Fd

open Sched (maxTasks)

/-! ### Consistency -/

/-- The entries of all tasks. -/
@[irreducible] def entries : Finset (Nat × Nat) :=
  Finset.range maxTasks ×ˢ Finset.range maxFdsPerTask

theorem mem_entries {entry : Nat × Nat} :
    entry ∈ entries ↔ entry.1 < maxTasks ∧ entry.2 < maxFdsPerTask := by
  unfold entries
  rw [Finset.mem_product, Finset.mem_range, Finset.mem_range]

/-- How many entries name a global descriptor. -/
@[irreducible] def names (tables : Tables) (gfd : Nat) : Nat :=
  (Naming.namers entries tables.fdTable gfd).card

theorem names_pos {tables : Tables} {entry : Nat × Nat} {gfd : Nat} (member : entry ∈ entries)
    (naming : tables.fdTable entry = some gfd) : 0 < names tables gfd := by
  unfold names
  exact Finset.card_pos.mpr ⟨entry, Naming.mem_namers.mpr ⟨member, naming⟩⟩

/-- The two ends of a pipe. -/
def IsEnd (type : FdType) : Prop := type = .pipeRead ∨ type = .pipeWrite

/-- Counts, entries and pipe slots agree. -/
structure Consistent (tables : Tables) (spare : Nat → Prop) (building : Nat → Prop) : Prop where
  bounded : ∀ gfd, (tables.globalFds gfd).inUse = true → gfd < maxGlobalFds
  counted : ∀ gfd, (tables.globalFds gfd).inUse = true → ¬ spare gfd →
    (tables.globalFds gfd).refCount = names tables gfd ∧ 0 < names tables gfd
  spared : ∀ gfd, spare gfd → (tables.globalFds gfd).inUse = true ∧ names tables gfd = 0
  fresh : ∀ gfd, spare gfd → (tables.globalFds gfd).refCount = 1
  within : ∀ entry gfd, tables.fdTable entry = some gfd → entry ∈ entries
  named : ∀ entry gfd, tables.fdTable entry = some gfd → (tables.globalFds gfd).inUse = true
  ends : ∀ gfd, (tables.globalFds gfd).inUse = true → IsEnd (tables.globalFds gfd).type →
    (tables.pipes (tables.globalFds gfd).pipeId).inUse = true
  unique : ∀ first second, (tables.globalFds first).inUse = true →
    (tables.globalFds second).inUse = true → IsEnd (tables.globalFds first).type →
    (tables.globalFds first).type = (tables.globalFds second).type →
    (tables.globalFds first).pipeId = (tables.globalFds second).pipeId → first = second
  used : ∀ pipe, (tables.pipes pipe).inUse = true → ¬ building pipe →
    ∃ gfd, (tables.globalFds gfd).inUse = true ∧ IsEnd (tables.globalFds gfd).type ∧
      (tables.globalFds gfd).pipeId = pipe
  closed : ∀ pipe, (tables.pipes pipe).inUse = true → ¬ building pipe →
    ((tables.pipes pipe).closedWrite = true ↔
      ∀ gfd, (tables.globalFds gfd).inUse = true → (tables.globalFds gfd).type = .pipeWrite →
        (tables.globalFds gfd).pipeId ≠ pipe)
  built : ∀ pipe, building pipe →
    (tables.pipes pipe).inUse = true ∧ (tables.pipes pipe).closedWrite = false
  held : ∀ gfd, (tables.globalFds gfd).inUse = true → (tables.globalFds gfd).type = .pipeWrite →
    building (tables.globalFds gfd).pipeId → spare gfd

variable {tables next : Tables} {spare building : Nat → Prop}

/-- A named descriptor is not spare. -/
theorem Consistent.not_spare (consistent : Consistent tables spare building) {entry : Nat × Nat}
    {gfd : Nat} (naming : tables.fdTable entry = some gfd) : ¬ spare gfd := by
  intro held
  have positive := names_pos (consistent.within entry gfd naming) naming
  rw [(consistent.spared gfd held).2] at positive
  exact absurd positive (Nat.lt_irrefl 0)

/-- A named write end belongs to no pipe being taken down. -/
theorem Consistent.settled (consistent : Consistent tables spare building) {entry : Nat × Nat}
    {gfd : Nat} (naming : tables.fdTable entry = some gfd)
    (write : (tables.globalFds gfd).type = .pipeWrite) :
    ¬ building (tables.globalFds gfd).pipeId := by
  intro pending
  exact consistent.not_spare naming
    (consistent.held gfd (consistent.named entry gfd naming) write pending)

/-- A descriptor that is not in use is named nowhere. -/
theorem Consistent.names_idle (consistent : Consistent tables spare building) {gfd : Nat}
    (idle : (tables.globalFds gfd).inUse = false) (entry : Nat × Nat) :
    tables.fdTable entry ≠ some gfd := by
  intro naming
  rw [consistent.named entry gfd naming] at idle
  exact absurd idle (by simp)

/-! ### Tables of the same shape -/

/-- Two tables with the same descriptors and pipes in use, whatever their counts and entries. -/
structure SameShape (tables next : Tables) : Prop where
  inUse : ∀ gfd, (next.globalFds gfd).inUse = (tables.globalFds gfd).inUse
  type : ∀ gfd, (tables.globalFds gfd).inUse = true →
    (next.globalFds gfd).type = (tables.globalFds gfd).type
  pipeId : ∀ gfd, (tables.globalFds gfd).inUse = true →
    (next.globalFds gfd).pipeId = (tables.globalFds gfd).pipeId
  pipe : ∀ pipe, (next.pipes pipe).inUse = (tables.pipes pipe).inUse
  closedWrite : ∀ pipe, (tables.pipes pipe).inUse = true →
    (next.pipes pipe).closedWrite = (tables.pipes pipe).closedWrite

theorem SameShape.refl (tables : Tables) : SameShape tables tables :=
  ⟨fun _ => rfl, fun _ _ => rfl, fun _ _ => rfl, fun _ => rfl, fun _ _ => rfl⟩

theorem SameShape.trans {middle : Tables} (first : SameShape tables middle)
    (second : SameShape middle next) : SameShape tables next where
  inUse gfd := (second.inUse gfd).trans (first.inUse gfd)
  type gfd live := (second.type gfd ((first.inUse gfd).trans live)).trans (first.type gfd live)
  pipeId gfd live :=
    (second.pipeId gfd ((first.inUse gfd).trans live)).trans (first.pipeId gfd live)
  pipe value := (second.pipe value).trans (first.pipe value)
  closedWrite value live :=
    (second.closedWrite value ((first.pipe value).trans live)).trans (first.closedWrite value live)

/-- Tables of the shape of consistent ones are consistent when their counts are right. -/
theorem Consistent.sameShape (consistent : Consistent tables spare building)
    (shape : SameShape tables next)
    (counted : ∀ gfd, (tables.globalFds gfd).inUse = true → ¬ spare gfd →
      (next.globalFds gfd).refCount = names next gfd ∧ 0 < names next gfd)
    (spared : ∀ gfd, spare gfd → names next gfd = 0)
    (fresh : ∀ gfd, spare gfd → (next.globalFds gfd).refCount = (tables.globalFds gfd).refCount)
    (within : ∀ entry gfd, next.fdTable entry = some gfd → entry ∈ entries)
    (named : ∀ entry gfd, next.fdTable entry = some gfd → (tables.globalFds gfd).inUse = true) :
    Consistent next spare building where
  bounded gfd live := consistent.bounded gfd (shape.inUse gfd ▸ live)
  counted gfd live := counted gfd (shape.inUse gfd ▸ live)
  spared gfd held := by
    rw [shape.inUse]
    exact ⟨(consistent.spared gfd held).1, spared gfd held⟩
  fresh gfd held := (fresh gfd held).trans (consistent.fresh gfd held)
  within := within
  named entry gfd naming := by
    rw [shape.inUse]
    exact named entry gfd naming
  ends gfd live isEnd := by
    rw [shape.inUse] at live
    rw [shape.type gfd live] at isEnd
    rw [shape.pipeId gfd live, shape.pipe]
    exact consistent.ends gfd live isEnd
  unique first second live live' isEnd same same' := by
    rw [shape.inUse] at live live'
    rw [shape.type first live] at isEnd same
    rw [shape.type second live'] at same
    rw [shape.pipeId first live, shape.pipeId second live'] at same'
    exact consistent.unique first second live live' isEnd same same'
  used pipe live settled := by
    rw [shape.pipe] at live
    obtain ⟨gfd, open', isEnd, same⟩ := consistent.used pipe live settled
    refine ⟨gfd, (shape.inUse gfd).trans open', ?_, (shape.pipeId gfd open').trans same⟩
    rw [shape.type gfd open']
    exact isEnd
  closed pipe live settled := by
    rw [shape.pipe] at live
    rw [shape.closedWrite pipe live, consistent.closed pipe live settled]
    refine forall_congr' fun gfd => ?_
    rw [shape.inUse]
    refine forall_congr' fun open' => ?_
    rw [shape.type gfd open', shape.pipeId gfd open']
  built pipe pending := by
    have before := consistent.built pipe pending
    rw [shape.pipe, shape.closedWrite pipe before.1]
    exact before
  held gfd live write pending := by
    rw [shape.inUse] at live
    rw [shape.type gfd live] at write
    rw [shape.pipeId gfd live] at pending
    exact consistent.held gfd live write pending

/-- A change to the count of one descriptor keeps the shape. -/
theorem sameShape_refCount (tables : Tables) (gfd : Nat) (refCount : Int) :
    SameShape tables (tables.setGlobal gfd { tables.globalFds gfd with refCount := refCount }) := by
  have counts : ∀ other, ∃ count,
      (tables.setGlobal gfd { tables.globalFds gfd with refCount := refCount }).globalFds other =
        { tables.globalFds other with refCount := count } := by
    intro other
    rcases eq_or_ne other gfd with rfl | different
    · exact ⟨refCount, Function.update_self other _ _⟩
    · exact ⟨(tables.globalFds other).refCount, Function.update_of_ne different _ _⟩
  refine ⟨fun other => ?_, fun other _ => ?_, fun other _ => ?_, fun _ => rfl, fun _ _ => rfl⟩
  all_goals
    obtain ⟨count, same⟩ := counts other
    rw [same]

/-- A change of an entry keeps the shape. -/
theorem sameShape_setEntry (tables : Tables) (entry : Nat × Nat) (value : Option Nat) :
    SameShape tables (tables.setEntry entry value) :=
  ⟨fun _ => rfl, fun _ _ => rfl, fun _ _ => rfl, fun _ => rfl, fun _ _ => rfl⟩

/-! ### Tables that agree -/

/-- Two tables that agree in everything consistency speaks of. -/
structure Agree (tables next : Tables) : Prop extends SameShape tables next where
  refCount : ∀ gfd, (tables.globalFds gfd).inUse = true →
    (next.globalFds gfd).refCount = (tables.globalFds gfd).refCount
  table : next.fdTable = tables.fdTable

theorem Agree.refl (tables : Tables) : Agree tables tables :=
  ⟨SameShape.refl tables, fun _ _ => rfl, rfl⟩

theorem Agree.trans {middle : Tables} (first : Agree tables middle) (second : Agree middle next) :
    Agree tables next where
  toSameShape := first.toSameShape.trans second.toSameShape
  refCount gfd live :=
    (second.refCount gfd ((first.inUse gfd).trans live)).trans (first.refCount gfd live)
  table := second.table.trans first.table

theorem Agree.names (agree : Agree tables next) (gfd : Nat) : names next gfd = names tables gfd := by
  unfold Fd.names
  rw [agree.table]

/-- Consistency is a property of what tables agree in. -/
theorem Consistent.agree (consistent : Consistent tables spare building)
    (agree : Agree tables next) : Consistent next spare building := by
  refine consistent.sameShape agree.toSameShape (fun gfd live free => ?_) (fun gfd held => ?_)
    (fun gfd held => agree.refCount gfd (consistent.spared gfd held).1)
    (fun entry gfd naming => ?_) (fun entry gfd naming => ?_)
  · rw [agree.refCount gfd live, agree.names]
    exact consistent.counted gfd live free
  · rw [agree.names]
    exact (consistent.spared gfd held).2
  · exact consistent.within entry gfd (agree.table ▸ naming)
  · exact consistent.named entry gfd (agree.table ▸ naming)

/-- A change to a descriptor that is not in use, and stays so, goes unnoticed. -/
theorem agree_idle {gfd : Nat} (before : (tables.globalFds gfd).inUse = false)
    (after : (next.globalFds gfd).inUse = false)
    (others : ∀ other, other ≠ gfd → next.globalFds other = tables.globalFds other)
    (pipes : next.pipes = tables.pipes) (table : next.fdTable = tables.fdTable) :
    Agree tables next := by
  have same : ∀ other, (tables.globalFds other).inUse = true →
      next.globalFds other = tables.globalFds other := by
    intro other live
    refine others other fun is => ?_
    rw [is, before] at live
    exact absurd live (by simp)
  refine ⟨⟨fun other => ?_, fun other live => ?_, fun other live => ?_, fun pipe => ?_,
    fun pipe _ => ?_⟩, fun other live => ?_, table⟩
  · rcases eq_or_ne other gfd with rfl | different
    · rw [after, before]
    · rw [others other different]
  · rw [same other live]
  · rw [same other live]
  · rw [pipes]
  · rw [pipes]
  · rw [same other live]

/-- A change to a pipe that is not in use, and stays so, goes unnoticed. -/
theorem agree_idlePipe {pipe : Nat} (before : (tables.pipes pipe).inUse = false)
    (after : (next.pipes pipe).inUse = false)
    (others : ∀ other, other ≠ pipe → next.pipes other = tables.pipes other)
    (globals : next.globalFds = tables.globalFds) (table : next.fdTable = tables.fdTable) :
    Agree tables next := by
  have same : ∀ other, (tables.pipes other).inUse = true → next.pipes other = tables.pipes other := by
    intro other live
    refine others other fun is => ?_
    rw [is, before] at live
    exact absurd live (by simp)
  refine ⟨⟨fun _ => by rw [globals], fun _ _ => by rw [globals], fun _ _ => by rw [globals],
    fun other => ?_, fun other live => by rw [same other live]⟩, fun _ _ => by rw [globals], table⟩
  rcases eq_or_ne other pipe with rfl | different
  · rw [after, before]
  · rw [others other different]

/-- A change to a pseudo-terminal goes unnoticed. -/
theorem agree_setPty (tables : Tables) (pty : Nat) (value : Pty) :
    Agree tables (tables.setPty pty value) :=
  ⟨⟨fun _ => rfl, fun _ _ => rfl, fun _ _ => rfl, fun _ => rfl, fun _ _ => rfl⟩, fun _ _ => rfl, rfl⟩

end MectovOS.Fd
