/-
This file proves that three moves keep the descriptor tables consistent: a fresh
descriptor gets its first entry, a descriptor gets one more, and an entry is
cleared and its descriptor released, which frees it, and the pipe behind it,
with the last one.
-/

import MectovOS.Fd.Consistent

namespace MectovOS.Fd

open Function

open Sched (maxTasks)

variable {tables next : Tables} {spare building : Nat → Prop}

/-! ### Counting -/

theorem names_set {entry : Nat × Nat} {gfd : Nat} (member : entry ∈ entries)
    (vacant : tables.fdTable entry ≠ some gfd)
    (table : next.fdTable = update tables.fdTable entry (some gfd)) :
    names next gfd = names tables gfd + 1 := by
  unfold names
  rw [table]
  exact Naming.card_namers_set member vacant

theorem names_clear {entry : Nat × Nat} {gfd : Nat} (member : entry ∈ entries)
    (naming : tables.fdTable entry = some gfd)
    (table : next.fdTable = update tables.fdTable entry none) :
    names next gfd + 1 = names tables gfd := by
  unfold names
  rw [table]
  exact Naming.card_namers_clear member naming

theorem names_other {entry : Nat × Nat} {value : Option Nat} {gfd : Nat}
    (before : tables.fdTable entry ≠ some gfd) (after : value ≠ some gfd)
    (table : next.fdTable = update tables.fdTable entry value) :
    names next gfd = names tables gfd := by
  unfold names
  rw [table, Naming.namers_update_of_ne entries before after]

theorem names_eq_zero (consistent : Consistent tables spare building) {gfd : Nat}
    (idle : (tables.globalFds gfd).inUse = false) : names tables gfd = 0 := by
  unfold names
  exact Naming.card_namers_eq_zero fun entry _ => consistent.names_idle idle entry

/-! ### A fresh descriptor -/

/-- A descriptor that was free gets its first entry. -/
structure Opened (tables next : Tables) (gfd : Nat) (entry : Nat × Nat) : Prop where
  idle : (tables.globalFds gfd).inUse = false
  bounded : gfd < maxGlobalFds
  member : entry ∈ entries
  vacant : tables.fdTable entry = none
  inUse : (next.globalFds gfd).inUse = true
  refCount : (next.globalFds gfd).refCount = 1
  type : ¬ IsEnd (next.globalFds gfd).type
  others : ∀ other, other ≠ gfd → next.globalFds other = tables.globalFds other
  pipes : next.pipes = tables.pipes
  table : next.fdTable = update tables.fdTable entry (some gfd)

theorem Consistent.opened (consistent : Consistent tables spare building) {gfd : Nat}
    {entry : Nat × Nat} (opened : Opened tables next gfd entry) :
    Consistent next spare building := by
  have vacant : ∀ other, tables.fdTable entry ≠ some other := by
    intro other
    rw [opened.vacant]
    simp
  have first : names next gfd = 1 := by
    rw [names_set opened.member (vacant gfd) opened.table, names_eq_zero consistent opened.idle]
  have count : ∀ other, other ≠ gfd → names next other = names tables other := by
    intro other different
    exact names_other (vacant other) (by simpa using different.symm) opened.table
  have live : ∀ other, other ≠ gfd → (next.globalFds other).inUse = true →
      (tables.globalFds other).inUse = true := by
    intro other different live
    rwa [opened.others other different] at live
  have endsOf : ∀ other, IsEnd (next.globalFds other).type → other ≠ gfd := by
    rintro other isEnd rfl
    exact opened.type isEnd
  have kept : ∀ other, (tables.globalFds other).inUse = true → other ≠ gfd := by
    rintro other before rfl
    rw [opened.idle] at before
    exact absurd before (by simp)
  constructor
  case bounded =>
    intro other live'
    rcases eq_or_ne other gfd with rfl | different
    · exact opened.bounded
    · exact consistent.bounded other (live other different live')
  case counted =>
    intro other live' free
    rcases eq_or_ne other gfd with rfl | different
    · rw [opened.refCount, first]
      exact ⟨rfl, Nat.one_pos⟩
    · rw [opened.others other different, count other different]
      exact consistent.counted other (live other different live') free
  case spared =>
    intro other held
    obtain ⟨before, none'⟩ := consistent.spared other held
    have different := kept other before
    rw [opened.others other different, count other different]
    exact ⟨before, none'⟩
  case fresh =>
    intro other held
    rw [opened.others other (kept other (consistent.spared other held).1)]
    exact consistent.fresh other held
  case within =>
    intro other named naming
    rw [opened.table] at naming
    rcases eq_or_ne other entry with rfl | different
    · exact opened.member
    · rw [update_of_ne different] at naming
      exact consistent.within other named naming
  case named =>
    intro other named naming
    rw [opened.table] at naming
    rcases eq_or_ne other entry with rfl | different
    · rw [update_self] at naming
      rw [← Option.some.inj naming]
      exact opened.inUse
    · rw [update_of_ne different] at naming
      have before := consistent.named other named naming
      rw [opened.others named (kept named before)]
      exact before
  case ends =>
    intro other live' isEnd
    have different := endsOf other isEnd
    rw [opened.others other different] at live' isEnd ⊢
    rw [opened.pipes]
    exact consistent.ends other live' isEnd
  case unique =>
    intro one two live' live'' isEnd same same'
    have different := endsOf one isEnd
    have different' := endsOf two (same ▸ isEnd)
    rw [opened.others one different] at live' isEnd same same'
    rw [opened.others two different'] at live'' same same'
    exact consistent.unique one two live' live'' isEnd same same'
  case used =>
    intro pipe live' settled
    rw [opened.pipes] at live'
    obtain ⟨other, before, isEnd, same⟩ := consistent.used pipe live' settled
    refine ⟨other, ?_⟩
    rw [opened.others other (kept other before)]
    exact ⟨before, isEnd, same⟩
  case closed =>
    intro pipe live' settled
    rw [opened.pipes] at live' ⊢
    rw [consistent.closed pipe live' settled]
    refine forall_congr' fun other => ?_
    rcases eq_or_ne other gfd with rfl | different
    · refine ⟨fun _ _ write => absurd (Or.inr write) opened.type, fun _ live'' => ?_⟩
      rw [opened.idle] at live''
      exact absurd live'' (by simp)
    · rw [opened.others other different]
  case built =>
    intro pipe pending
    rw [opened.pipes]
    exact consistent.built pipe pending
  case held =>
    intro other live' write pending
    have different := endsOf other (Or.inr write)
    rw [opened.others other different] at live' write pending
    exact consistent.held other live' write pending

/-! ### One more entry -/

/-- A named descriptor gets one more entry. -/
theorem Consistent.share (consistent : Consistent tables spare building) {gfd : Nat}
    {entry source : Nat × Nat} (member : entry ∈ entries) (vacant : tables.fdTable entry = none)
    (naming : tables.fdTable source = some gfd) :
    Consistent ((tables.setGlobal gfd { tables.globalFds gfd with
      refCount := (tables.globalFds gfd).refCount + 1 }).setEntry entry (some gfd))
      spare building := by
  have free := consistent.not_spare naming
  have vacant' : ∀ other, tables.fdTable entry ≠ some other := by
    intro other
    rw [vacant]
    simp
  generalize shared : (tables.setGlobal gfd { tables.globalFds gfd with
      refCount := (tables.globalFds gfd).refCount + 1 }).setEntry entry (some gfd) = next
  have shape : SameShape tables next := by
    rw [← shared]
    exact (sameShape_refCount tables gfd _).trans (sameShape_setEntry _ _ _)
  have table : next.fdTable = update tables.fdTable entry (some gfd) := by
    rw [← shared]
    rfl
  have here : (next.globalFds gfd).refCount = (tables.globalFds gfd).refCount + 1 := by
    rw [← shared]
    show (update tables.globalFds gfd _ gfd).refCount = _
    rw [update_self]
  have others : ∀ other, other ≠ gfd → next.globalFds other = tables.globalFds other := by
    intro other different
    rw [← shared]
    exact update_of_ne different _ _
  have count : ∀ other, other ≠ gfd → names next other = names tables other := by
    intro other different
    exact names_other (vacant' other) (by simpa using different.symm) table
  refine consistent.sameShape shape (fun other live unheld => ?_) (fun other held => ?_)
    (fun other held => by rw [others other fun same => free (same ▸ held)])
    (fun other named naming' => ?_) (fun other named naming' => ?_)
  · obtain ⟨exact', positive⟩ := consistent.counted other live unheld
    rcases eq_or_ne other gfd with rfl | different
    · rw [here, names_set member (vacant' other) table, Nat.cast_succ, ← exact']
      exact ⟨rfl, Nat.succ_pos _⟩
    · rw [others other different, count other different]
      exact ⟨exact', positive⟩
  · rw [count other fun same => free (same ▸ held)]
    exact (consistent.spared other held).2
  · rw [table] at naming'
    rcases eq_or_ne other entry with rfl | different
    · exact member
    · rw [update_of_ne different] at naming'
      exact consistent.within other named naming'
  · rw [table] at naming'
    rcases eq_or_ne other entry with rfl | different
    · rw [update_self] at naming'
      rw [← Option.some.inj naming']
      exact consistent.named source gfd naming
    · rw [update_of_ne different] at naming'
      exact consistent.named other named naming'

/-! ### One entry less -/

/-- What the last release leaves of the pipe slots. -/
def pipesReleased (tables : Tables) (gfd : Nat) : Nat → Pipe :=
  let pipe := (tables.globalFds gfd).pipeId
  match (tables.globalFds gfd).type with
  | .pipeWrite =>
    update tables.pipes pipe
      { tables.pipes pipe with
        closedWrite := true
        inUse := if readOpen tables pipe then (tables.pipes pipe).inUse else false }
  | .pipeRead =>
    if (tables.pipes pipe).closedWrite then
      update tables.pipes pipe { tables.pipes pipe with inUse := false }
    else tables.pipes
  | _ => tables.pipes

theorem ptyClose_shape (tables : Tables) (gfd : Nat) :
    (ptyClose tables gfd).pipes = tables.pipes ∧ (ptyClose tables gfd).fdTable = tables.fdTable ∧
      ∀ other, other ≠ gfd → (ptyClose tables gfd).globalFds other = tables.globalFds other := by
  unfold ptyClose
  cases ptySlotIsMaster tables gfd with
  | none => exact ⟨rfl, rfl, fun _ _ => rfl⟩
  | some isMaster => exact ⟨rfl, rfl, fun other different => update_of_ne different _ _⟩

/-- The last release changes no other descriptor and no entry. -/
theorem releaseOwned_shape (tables : Tables) (gfd : Nat) :
    (releaseOwned tables gfd).pipes = pipesReleased tables gfd ∧
      (releaseOwned tables gfd).fdTable = tables.fdTable ∧
      ∀ other, other ≠ gfd → (releaseOwned tables gfd).globalFds other = tables.globalFds other := by
  unfold releaseOwned pipesReleased
  cases (tables.globalFds gfd).type with
  | pipeWrite =>
    have scan : readOpen (tables.setPipe (tables.globalFds gfd).pipeId
        { tables.pipes (tables.globalFds gfd).pipeId with closedWrite := true })
        (tables.globalFds gfd).pipeId = readOpen tables (tables.globalFds gfd).pipeId := rfl
    simp only [scan]
    cases readOpen tables (tables.globalFds gfd).pipeId with
    | true => exact ⟨rfl, rfl, fun _ _ => rfl⟩
    | false =>
      refine ⟨?_, rfl, fun _ _ => rfl⟩
      show update (update tables.pipes _ _) _ _ = _
      rw [update_idem]
      congr 1
      show { (update tables.pipes _ _ _ : Pipe) with inUse := false } = _
      rw [update_self]
      rfl
  | pipeRead =>
    simp only
    split
    · exact ⟨rfl, rfl, fun _ _ => rfl⟩
    · exact ⟨rfl, rfl, fun _ _ => rfl⟩
  | pty => exact ptyClose_shape tables gfd
  | none => exact ⟨rfl, rfl, fun _ _ => rfl⟩
  | file => exact ⟨rfl, rfl, fun _ _ => rfl⟩
  | dev => exact ⟨rfl, rfl, fun _ _ => rfl⟩
  | socket => exact ⟨rfl, rfl, fun _ _ => rfl⟩

/-- A release with other references left drops the count; the last one frees the descriptor. -/
theorem fdReleaseGlobal_cases (tables : Tables) (gfd : Nat) :
    ((tables.globalFds gfd).refCount ≠ 1 ∧
      fdReleaseGlobal tables gfd = tables.setGlobal gfd
        { tables.globalFds gfd with refCount := (tables.globalFds gfd).refCount - 1 }) ∨
    ((tables.globalFds gfd).refCount = 1 ∧
      ((fdReleaseGlobal tables gfd).globalFds gfd).inUse = false ∧
      (fdReleaseGlobal tables gfd).pipes = pipesReleased tables gfd ∧
      (fdReleaseGlobal tables gfd).fdTable = tables.fdTable ∧
      ∀ other, other ≠ gfd →
        (fdReleaseGlobal tables gfd).globalFds other = tables.globalFds other) := by
  generalize lowered : tables.setGlobal gfd
    { tables.globalFds gfd with refCount := (tables.globalFds gfd).refCount - 1 } = dropped
  have unfolded : fdReleaseGlobal tables gfd =
      if (dropped.globalFds gfd).refCount = 0 then (releaseOwned dropped gfd).freeGlobal gfd
      else dropped := by
    rw [← lowered]
    rfl
  have here : dropped.globalFds gfd = { tables.globalFds gfd with
      refCount := (tables.globalFds gfd).refCount - 1 } := by
    rw [← lowered]
    exact update_self gfd _ _
  have others : ∀ other, other ≠ gfd → dropped.globalFds other = tables.globalFds other := by
    intro other different
    rw [← lowered]
    exact update_of_ne different _ _
  have shape : ∀ other, (dropped.globalFds other).inUse = (tables.globalFds other).inUse ∧
      (dropped.globalFds other).type = (tables.globalFds other).type ∧
      (dropped.globalFds other).pipeId = (tables.globalFds other).pipeId := by
    intro other
    rcases eq_or_ne other gfd with rfl | different
    · rw [here]
      exact ⟨rfl, rfl, rfl⟩
    · rw [others other different]
      exact ⟨rfl, rfl, rfl⟩
  have pipes : dropped.pipes = tables.pipes := by
    rw [← lowered]
    rfl
  have scan : ∀ pipe, readOpen dropped pipe = readOpen tables pipe := by
    intro pipe
    unfold readOpen
    simp only [(shape _).1, (shape _).2.1, (shape _).2.2]
  rw [unfolded]
  by_cases last : (tables.globalFds gfd).refCount = 1
  · have zero : (dropped.globalFds gfd).refCount = 0 := by
      rw [here, last]
      rfl
    obtain ⟨pipes', table, others'⟩ := releaseOwned_shape dropped gfd
    rw [if_pos zero]
    refine Or.inr ⟨last, ?_, ?_, ?_, fun other different => ?_⟩
    · show (update (releaseOwned dropped gfd).globalFds gfd _ gfd).inUse = false
      rw [update_self]
    · show (releaseOwned dropped gfd).pipes = _
      rw [pipes']
      unfold pipesReleased
      rw [(shape gfd).2.1, (shape gfd).2.2, pipes]
      simp only [scan]
    · show (releaseOwned dropped gfd).fdTable = _
      rw [table, ← lowered]
      rfl
    · show update (releaseOwned dropped gfd).globalFds gfd _ other = _
      rw [update_of_ne different, others' other different, others other different]
  · refine Or.inl ⟨last, if_neg ?_⟩
    rw [here]
    show (tables.globalFds gfd).refCount - 1 ≠ 0
    omega

theorem readOpen_iff (tables : Tables) (pipe : Nat) :
    readOpen tables pipe = true ↔ ∃ gfd < maxGlobalFds, (tables.globalFds gfd).inUse = true ∧
      (tables.globalFds gfd).type = .pipeRead ∧ (tables.globalFds gfd).pipeId = pipe := by
  unfold readOpen
  simp only [List.any_eq_true, List.mem_range, Bool.and_eq_true, beq_iff_eq, and_assoc]

theorem fdTable_of_cleared {entry : Nat × Nat}
    (table : next.fdTable = update tables.fdTable entry none) {other : Nat × Nat}
    {gfd : Nat} (naming : next.fdTable other = some gfd) : tables.fdTable other = some gfd := by
  rw [table] at naming
  rcases eq_or_ne other entry with rfl | different
  · rw [update_self] at naming
    exact absurd naming (by simp)
  · rwa [update_of_ne different] at naming

/-- Dropping one entry of a descriptor that has others keeps the tables consistent. -/
theorem Consistent.drop (consistent : Consistent tables spare building) {gfd : Nat}
    {entry : Nat × Nat} (naming : tables.fdTable entry = some gfd)
    (more : (tables.globalFds gfd).refCount ≠ 1) :
    Consistent ((tables.setEntry entry none).setGlobal gfd { tables.globalFds gfd with
      refCount := (tables.globalFds gfd).refCount - 1 }) spare building := by
  have member := consistent.within entry gfd naming
  have free := consistent.not_spare naming
  generalize lowered : (tables.setEntry entry none).setGlobal gfd { tables.globalFds gfd with
      refCount := (tables.globalFds gfd).refCount - 1 } = next
  have shape : SameShape tables next := by
    rw [← lowered]
    exact (sameShape_setEntry tables entry none).trans (sameShape_refCount _ gfd _)
  have table : next.fdTable = update tables.fdTable entry none := by
    rw [← lowered]
    rfl
  have here : (next.globalFds gfd).refCount = (tables.globalFds gfd).refCount - 1 := by
    rw [← lowered]
    show (update tables.globalFds gfd _ gfd).refCount = _
    rw [update_self]
  have others : ∀ other, other ≠ gfd → next.globalFds other = tables.globalFds other := by
    intro other different
    rw [← lowered]
    exact update_of_ne different _ _
  have count : ∀ other, other ≠ gfd → names next other = names tables other := by
    intro other different
    refine names_other ?_ (by simp) table
    rw [naming]
    simpa using different.symm
  refine consistent.sameShape shape (fun other live unheld => ?_) (fun other held => ?_)
    (fun other held => by rw [others other fun same => free (same ▸ held)])
    (fun other named naming' => consistent.within other named (fdTable_of_cleared table naming'))
    (fun other named naming' => consistent.named other named (fdTable_of_cleared table naming'))
  · obtain ⟨exact', positive⟩ := consistent.counted other live unheld
    rcases eq_or_ne other gfd with rfl | different
    · have fewer := names_clear member naming table
      rw [here]
      omega
    · rw [others other different, count other different]
      exact ⟨exact', positive⟩
  · rw [count other fun same => free (same ▸ held)]
    exact (consistent.spared other held).2

/-- The part of consistency that speaks of pipe slots. -/
structure Slots (tables : Tables) (building : Nat → Prop) : Prop where
  ends : ∀ gfd, (tables.globalFds gfd).inUse = true → IsEnd (tables.globalFds gfd).type →
    (tables.pipes (tables.globalFds gfd).pipeId).inUse = true
  used : ∀ pipe, (tables.pipes pipe).inUse = true → ¬ building pipe →
    ∃ gfd, (tables.globalFds gfd).inUse = true ∧ IsEnd (tables.globalFds gfd).type ∧
      (tables.globalFds gfd).pipeId = pipe
  closed : ∀ pipe, (tables.pipes pipe).inUse = true → ¬ building pipe →
    ((tables.pipes pipe).closedWrite = true ↔
      ∀ gfd, (tables.globalFds gfd).inUse = true → (tables.globalFds gfd).type = .pipeWrite →
        (tables.globalFds gfd).pipeId ≠ pipe)
  built : ∀ pipe, building pipe →
    (tables.pipes pipe).inUse = true ∧ (tables.pipes pipe).closedWrite = false

/-- One descriptor is freed and every other one stays as it is. -/
structure Freed (tables next : Tables) (gfd : Nat) : Prop where
  live : (tables.globalFds gfd).inUse = true
  freed : (next.globalFds gfd).inUse = false
  others : ∀ other, other ≠ gfd → next.globalFds other = tables.globalFds other

theorem Freed.ne {gfd other : Nat} (freed : Freed tables next gfd)
    (open' : (next.globalFds other).inUse = true) : other ≠ gfd := by
  rintro rfl
  rw [freed.freed] at open'
  exact absurd open' (by simp)

/-- A write end of another pipe, or a descriptor that is none, takes no part in whether a pipe
has a write end. -/
theorem Freed.writers {gfd pipe : Nat} (freed : Freed tables next gfd)
    (apart : (tables.globalFds gfd).type = .pipeWrite → (tables.globalFds gfd).pipeId ≠ pipe) :
    (∀ other, (next.globalFds other).inUse = true → (next.globalFds other).type = .pipeWrite →
        (next.globalFds other).pipeId ≠ pipe) ↔
      ∀ other, (tables.globalFds other).inUse = true →
        (tables.globalFds other).type = .pipeWrite → (tables.globalFds other).pipeId ≠ pipe := by
  refine forall_congr' fun other => ?_
  rcases eq_or_ne other gfd with rfl | different
  · refine ⟨fun _ _ => apart, fun _ open' => ?_⟩
    exact absurd rfl (freed.ne open')
  · rw [freed.others other different]

/-- Freeing a descriptor that is no end of a pipe leaves the slots right. -/
theorem Consistent.slots_none (consistent : Consistent tables spare building) {gfd : Nat}
    (freed : Freed tables next gfd) (none' : ¬ IsEnd (tables.globalFds gfd).type)
    (pipes : next.pipes = tables.pipes) : Slots next building where
  ends other open' isEnd := by
    have different := freed.ne open'
    rw [freed.others other different] at open' isEnd ⊢
    rw [pipes]
    exact consistent.ends other open' isEnd
  used pipe live settled := by
    rw [pipes] at live
    obtain ⟨other, open', isEnd, same⟩ := consistent.used pipe live settled
    have different : other ≠ gfd := fun is => none' (is ▸ isEnd)
    refine ⟨other, ?_⟩
    rw [freed.others other different]
    exact ⟨open', isEnd, same⟩
  closed pipe live settled := by
    rw [pipes] at live ⊢
    rw [consistent.closed pipe live settled,
      freed.writers fun write => absurd (Or.inr write) none']
  built pipe pending := by
    rw [pipes]
    exact consistent.built pipe pending

/-- Freeing the write end of a pipe closes the pipe, and frees it when no read end is left. -/
theorem Consistent.slots_write (consistent : Consistent tables spare building) {gfd pipe : Nat}
    (freed : Freed tables next gfd) (write : (tables.globalFds gfd).type = .pipeWrite)
    (of : (tables.globalFds gfd).pipeId = pipe) (settled : ¬ building pipe)
    (here : (next.pipes pipe).closedWrite = true ∧ (next.pipes pipe).inUse =
      if readOpen tables pipe then (tables.pipes pipe).inUse else false)
    (elsewhere : ∀ other, other ≠ pipe → next.pipes other = tables.pipes other) :
    Slots next building where
  ends other open' isEnd := by
    have different := freed.ne open'
    rw [freed.others other different] at open' isEnd ⊢
    rcases eq_or_ne (tables.globalFds other).pipeId pipe with same | apart
    · have read : (tables.globalFds other).type = .pipeRead := by
        refine isEnd.resolve_right fun write' => different ?_
        exact consistent.unique other gfd open' freed.live isEnd (write'.trans write.symm)
          (same.trans of.symm)
      have reading : readOpen tables pipe = true :=
        (readOpen_iff tables pipe).mpr ⟨other, consistent.bounded other open', open', read, same⟩
      rw [same, here.2, if_pos reading, ← same]
      exact consistent.ends other open' isEnd
    · rw [elsewhere _ apart]
      exact consistent.ends other open' isEnd
  used other live settled' := by
    rcases eq_or_ne other pipe with rfl | apart
    · have reading : readOpen tables other = true := by
        by_contra closed
        rw [here.2, if_neg closed] at live
        exact absurd live (by simp)
      obtain ⟨reader, _, open', read, same⟩ := (readOpen_iff tables other).mp reading
      have different : reader ≠ gfd := by
        rintro rfl
        rw [write] at read
        exact absurd read (by simp)
      refine ⟨reader, ?_⟩
      rw [freed.others reader different]
      exact ⟨open', Or.inl read, same⟩
    · rw [elsewhere other apart] at live
      obtain ⟨left, open', isEnd, same⟩ := consistent.used other live settled'
      have different : left ≠ gfd := by
        rintro rfl
        exact apart (same.symm.trans of)
      refine ⟨left, ?_⟩
      rw [freed.others left different]
      exact ⟨open', isEnd, same⟩
  closed other live settled' := by
    rcases eq_or_ne other pipe with rfl | apart
    · refine iff_of_true here.1 fun writer open' write' same => ?_
      have different := freed.ne open'
      rw [freed.others writer different] at open' write' same
      exact different (consistent.unique writer gfd open' freed.live (Or.inr write')
        (write'.trans write.symm) (same.trans of.symm))
    · rw [elsewhere other apart] at live ⊢
      rw [consistent.closed other live settled',
        freed.writers fun _ same => apart (same.symm.trans of)]
  built other pending := by
    have apart : other ≠ pipe := fun same => settled (same ▸ pending)
    rw [elsewhere other apart]
    exact consistent.built other pending

/-- Freeing the read end of a pipe frees the pipe when its write end is closed. -/
theorem Consistent.slots_read (consistent : Consistent tables spare building) {gfd pipe : Nat}
    (freed : Freed tables next gfd) (read : (tables.globalFds gfd).type = .pipeRead)
    (of : (tables.globalFds gfd).pipeId = pipe)
    (here : (tables.pipes pipe).closedWrite = true → (next.pipes pipe).inUse = false)
    (still : (tables.pipes pipe).closedWrite = false → next.pipes pipe = tables.pipes pipe)
    (elsewhere : ∀ other, other ≠ pipe → next.pipes other = tables.pipes other) :
    Slots next building := by
  have notWrite : (tables.globalFds gfd).type ≠ .pipeWrite := by
    rw [read]
    simp
  have live : (tables.pipes pipe).inUse = true :=
    of ▸ consistent.ends gfd freed.live (Or.inl read)
  have kept : ∀ other, (next.pipes other).inUse = true → next.pipes other = tables.pipes other := by
    intro other open'
    rcases eq_or_ne other pipe with rfl | apart
    · cases shut : (tables.pipes other).closedWrite with
      | true =>
        rw [here shut] at open'
        exact absurd open' (by simp)
      | false => exact still shut
    · exact elsewhere other apart
  refine ⟨fun other open' isEnd => ?_, fun other open' settled => ?_,
    fun other open' settled => ?_, fun other pending => ?_⟩
  · have different := freed.ne open'
    rw [freed.others other different] at open' isEnd ⊢
    rcases eq_or_ne (tables.globalFds other).pipeId pipe with same | apart
    · have write : (tables.globalFds other).type = .pipeWrite := by
        refine isEnd.resolve_left fun read' => different ?_
        exact consistent.unique other gfd open' freed.live isEnd (read'.trans read.symm)
          (same.trans of.symm)
      have shut : (tables.pipes pipe).closedWrite = false := by
        by_contra closed
        rw [Bool.not_eq_false] at closed
        have settled : ¬ building pipe := by
          intro pending
          rw [(consistent.built pipe pending).2] at closed
          exact absurd closed (by simp)
        exact (consistent.closed pipe live settled).mp closed other open' write same
      rw [same, still shut]
      exact live
    · rw [elsewhere _ apart]
      exact consistent.ends other open' isEnd
  · have same := kept other open'
    rw [same] at open'
    rcases eq_or_ne other pipe with rfl | apart
    · have shut : (tables.pipes other).closedWrite = false := by
        by_contra closed
        rw [Bool.not_eq_false] at closed
        have gone := here closed
        rw [same, open'] at gone
        exact absurd gone (by simp)
      have writer : ¬ ∀ gfd, (tables.globalFds gfd).inUse = true →
          (tables.globalFds gfd).type = .pipeWrite → (tables.globalFds gfd).pipeId ≠ other := by
        rw [← consistent.closed other open' settled, shut]
        simp
      push Not at writer
      obtain ⟨left, liveLeft, write, same'⟩ := writer
      have different : left ≠ gfd := by
        rintro rfl
        exact notWrite write
      refine ⟨left, ?_⟩
      rw [freed.others left different]
      exact ⟨liveLeft, Or.inr write, same'⟩
    · obtain ⟨left, liveLeft, isEnd, same'⟩ := consistent.used other open' settled
      have different : left ≠ gfd := by
        rintro rfl
        exact apart (same'.symm.trans of)
      refine ⟨left, ?_⟩
      rw [freed.others left different]
      exact ⟨liveLeft, isEnd, same'⟩
  · have same := kept other open'
    rw [same] at open' ⊢
    rw [consistent.closed other open' settled, freed.writers fun write => absurd write notWrite]
  · obtain ⟨open', shut⟩ := consistent.built other pending
    rcases eq_or_ne other pipe with rfl | apart
    · rw [still shut]
      exact ⟨open', shut⟩
    · rw [elsewhere other apart]
      exact ⟨open', shut⟩

/-- The pipe slots after the last release of a descriptor in use. -/
theorem Consistent.released (consistent : Consistent tables spare building) {gfd : Nat}
    (freed : Freed tables next gfd)
    (settled : (tables.globalFds gfd).type = .pipeWrite → ¬ building (tables.globalFds gfd).pipeId)
    (pipes : next.pipes = pipesReleased tables gfd) : Slots next building := by
  unfold pipesReleased at pipes
  cases type : (tables.globalFds gfd).type with
  | pipeWrite =>
    rw [type] at pipes settled
    refine consistent.slots_write freed type rfl (settled rfl) ?_ fun other apart => ?_
    · rw [pipes]
      simp only [update_self, and_self]
    · rw [pipes]
      exact update_of_ne apart _ _
  | pipeRead =>
    rw [type] at pipes
    refine consistent.slots_read freed type rfl (fun shut => ?_) (fun shut => ?_) fun other apart => ?_
    · rw [pipes]
      simp only [shut, if_true, update_self]
    · rw [pipes]
      simp only [shut, Bool.false_eq_true, if_false]
    · rw [pipes]
      simp only
      split
      · exact update_of_ne apart _ _
      · rfl
  | none => exact consistent.slots_none freed (by simp [type, IsEnd]) (by rw [pipes, type])
  | file => exact consistent.slots_none freed (by simp [type, IsEnd]) (by rw [pipes, type])
  | dev => exact consistent.slots_none freed (by simp [type, IsEnd]) (by rw [pipes, type])
  | socket => exact consistent.slots_none freed (by simp [type, IsEnd]) (by rw [pipes, type])
  | pty => exact consistent.slots_none freed (by simp [type, IsEnd]) (by rw [pipes, type])

/-- Releasing the last entry of a descriptor keeps the tables consistent. -/
theorem Consistent.last (consistent : Consistent tables spare building) {gfd : Nat}
    {entry : Nat × Nat} (naming : tables.fdTable entry = some gfd)
    (only : (tables.globalFds gfd).refCount = 1)
    (freed : (next.globalFds gfd).inUse = false) (pipes : next.pipes = pipesReleased tables gfd)
    (table : next.fdTable = update tables.fdTable entry none)
    (others : ∀ other, other ≠ gfd → next.globalFds other = tables.globalFds other) :
    Consistent next spare building := by
  have member := consistent.within entry gfd naming
  have free := consistent.not_spare naming
  have live := consistent.named entry gfd naming
  have single : names tables gfd = 1 := by
    have counted := (consistent.counted gfd live free).1
    rw [only] at counted
    exact_mod_cast counted.symm
  have nameless : ∀ other, next.fdTable other ≠ some gfd := by
    intro other naming'
    have fewer := names_clear member naming table
    have inside := consistent.within other gfd (fdTable_of_cleared table naming')
    have positive := names_pos inside naming'
    omega
  have count : ∀ other, other ≠ gfd → names next other = names tables other := by
    intro other different
    refine names_other ?_ (by simp) table
    rw [naming]
    simpa using different.symm
  have kept : ∀ other, (next.globalFds other).inUse = true → other ≠ gfd := by
    rintro other open' rfl
    rw [freed] at open'
    exact absurd open' (by simp)
  have before : ∀ other, (next.globalFds other).inUse = true →
      (tables.globalFds other).inUse = true := by
    intro other open'
    rwa [others other (kept other open')] at open'
  have stays : ∀ other, other ≠ gfd → (tables.globalFds other).inUse = true →
      (next.globalFds other).inUse = true := by
    intro other different open'
    rwa [others other different]
  obtain ⟨ends, used, closed, built⟩ :=
    consistent.released ⟨live, freed, others⟩ (consistent.settled naming) pipes
  constructor
  case bounded => exact fun other open' => consistent.bounded other (before other open')
  case counted =>
    intro other open' unheld
    rw [others other (kept other open'), count other (kept other open')]
    exact consistent.counted other (before other open') unheld
  case spared =>
    intro other held
    have different : other ≠ gfd := fun same => free (same ▸ held)
    obtain ⟨open', none'⟩ := consistent.spared other held
    exact ⟨stays other different open', (count other different).trans none'⟩
  case fresh =>
    intro other held
    rw [others other fun same => free (same ▸ held)]
    exact consistent.fresh other held
  case within => exact fun other named naming' =>
    consistent.within other named (fdTable_of_cleared table naming')
  case named =>
    intro other named naming'
    have different : named ≠ gfd := by
      rintro rfl
      exact nameless other naming'
    exact stays named different (consistent.named other named (fdTable_of_cleared table naming'))
  case ends => exact ends
  case unique =>
    intro one two open' open'' isEnd same same'
    rw [others one (kept one open')] at isEnd same same'
    rw [others two (kept two open'')] at same same'
    exact consistent.unique one two (before one open') (before two open'') isEnd same same'
  case used => exact used
  case closed => exact closed
  case built => exact built
  case held =>
    intro other open' write pending
    rw [others other (kept other open')] at write pending
    exact consistent.held other (before other open') write pending

/-- Clearing an entry and releasing its descriptor keeps the tables consistent. -/
theorem Consistent.release (consistent : Consistent tables spare building) {gfd : Nat}
    {entry : Nat × Nat} (naming : tables.fdTable entry = some gfd) :
    Consistent (fdReleaseGlobal (tables.setEntry entry none) gfd) spare building := by
  rcases fdReleaseGlobal_cases (tables.setEntry entry none) gfd with
    ⟨more, same⟩ | ⟨only, freed, pipes, table, others⟩
  · rw [same]
    exact consistent.drop naming more
  · exact consistent.last naming only freed pipes table others

/-! ### Moves -/

/-- What a stretch does to the tables. Entries are set only in the tables of tasks that `free`
admits, and descriptors are shared only out of such tables. -/
inductive Move (free : Nat → Prop) (tables : Tables) : Tables → Prop
  | agree {next : Tables} : Agree tables next → Move free tables next
  | opened {next : Tables} {gfd : Nat} {entry : Nat × Nat} :
      Opened tables next gfd entry → free entry.1 → Move free tables next
  | share {gfd : Nat} {entry source : Nat × Nat} : entry ∈ entries → tables.fdTable entry = none →
      tables.fdTable source = some gfd → free entry.1 → free source.1 →
      Move free tables ((tables.setGlobal gfd { tables.globalFds gfd with
        refCount := (tables.globalFds gfd).refCount + 1 }).setEntry entry (some gfd))
  | release {gfd : Nat} {entry : Nat × Nat} : tables.fdTable entry = some gfd →
      Move free tables (fdReleaseGlobal (tables.setEntry entry none) gfd)

/-- Any number of moves. -/
def Moves (free : Nat → Prop) : Tables → Tables → Prop := Relation.ReflTransGen (Move free)

variable {free : Nat → Prop}

theorem Move.moves (move : Move free tables next) : Moves free tables next :=
  Relation.ReflTransGen.single move

theorem Moves.refl (tables : Tables) : Moves free tables tables := Relation.ReflTransGen.refl

theorem Consistent.move (consistent : Consistent tables spare building)
    (move : Move free tables next) : Consistent next spare building := by
  cases move with
  | agree agree => exact consistent.agree agree
  | opened opened _ => exact consistent.opened opened
  | share member vacant naming _ _ => exact consistent.share member vacant naming
  | release naming => exact consistent.release naming

theorem Consistent.moves (consistent : Consistent tables spare building)
    (moves : Moves free tables next) : Consistent next spare building := by
  induction moves with
  | refl => exact consistent
  | tail _ move inductionHypothesis => exact inductionHypothesis.move move

end MectovOS.Fd
