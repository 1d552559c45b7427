/-
This file proves when the TLB shootdown keeps its promise. The handler
acknowledges before it reads which directory to flush, so the promise can break
in two windows: another sender overwrites the target between a core's
acknowledgement and its read of the target, or a core reads the target between a
sender's bump of the generation and its store of the target. In every run that
stays out of both windows, with no two cores on one acknowledgement slot and no
wrapped generation, a shootdown that returns without the ack timeout leaves no
core outside its handler with a flush due. A run that enters the first window
shows the promise broken.
-/

import MectovOS.Vmm.Shootdown

namespace MectovOS.Shootdown

open Transition Function

/-! ### What a phase carries -/

/-- The phases that hold `tlb_sd_lock`. -/
@[simp] def Phase.Holds : Phase → Prop
  | .locked _ | .bumping _ _ | .bumped _ _ | .sending _ _ _ | .waiting _ _ _ _ | .timedOut => True
  | _ => False

/-- The page directory and the generation of a request in flight. -/
@[simp] def Phase.request : Phase → Option (Nat × Nat)
  | .bumped pd gen | .sending pd gen _ | .waiting pd gen _ _ => some (pd, gen)
  | _ => none

/-- The page directory of a request whose target is stored. -/
@[simp] def Phase.stored : Phase → Option Nat
  | .sending pd _ _ | .waiting pd _ _ _ => some pd
  | _ => none

/-- The generation a handler run has read, until it reads the target. -/
@[simp] def Phase.picked : Phase → Option Nat
  | .gotGen gen | .acking gen | .acked gen | .gotCr3 gen _ => some gen
  | _ => none

/-- The generation a handler run has acknowledged, until it reloads CR3. -/
@[simp] def Phase.flushing : Phase → Option Nat
  | .acked gen | .gotCr3 gen _ | .reloading gen _ => some gen
  | _ => none

/-- The CR3 value a handler run has read. -/
@[simp] def Phase.cr3 : Phase → Option Nat
  | .gotCr3 _ cr3 | .reloading _ cr3 => some cr3
  | _ => none

theorem Phase.holds_of_request {phase : Phase} {request : Nat × Nat}
    (carries : phase.request = some request) : phase.Holds := by
  cases phase <;> trivial

theorem Phase.holds_of_stored {phase : Phase} {pd : Nat} (carries : phase.stored = some pd) :
    phase.Holds := by
  cases phase <;> trivial

theorem Phase.inHandler_of_flushing {phase : Phase} {gen : Nat}
    (carries : phase.flushing = some gen) : phase.InHandler := by
  cases phase <;> trivial

/-- The phases that say nothing about a request. -/
@[simp] def Phase.Plain : Phase → Prop
  | .idle | .spinning _ | .locked _ | .timedOut | .entered => True
  | _ => False

/-! ### The two race windows -/

/-- No generation wraps; no sender stores a target over one that a core has picked up and
still owes a flush for, unless that core runs the new target too; and no core that owes a
flush for a generation just bumped reads the target before it is stored, unless it runs the
old target too. -/
def NoRace (state : State) : Label → Prop
  | .advance core =>
    match state.phase core with
    | .bumping _ old => old + 1 < 2 ^ 32
    | .bumped pd _ => ∀ other read, (state.phase other).picked = some read →
        ∀ gen ∈ state.tlb.due other, gen ≤ read → running (state.tlb.cr3 other) pd
    | .gotCr3 read cr3 => ∀ sender pd gen, state.phase sender = .bumped pd gen →
        gen ∈ state.tlb.due core → gen ≤ read → running cr3 state.tlb.tlbSdTargetPd
    | _ => True
  | _ => True

/-! ### The invariant -/

/-- What holds of one core and the phase it is in. -/
structure CoreInv (lapicIds : List Nat) (tlb : Tlb) (core : Nat) (phase : Phase) : Prop where
  holder : phase.Holds → tlb.tlbSdLock = some core
  bumping : ∀ pd old, phase = .bumping pd old → old = tlb.tlbSdGen
  request : ∀ pd gen, phase.request = some (pd, gen) → gen = tlb.tlbSdGen ∧
    ∀ other, gen ∈ tlb.due other → other ≠ core ∧ running (tlb.cr3 other) pd
  stored : ∀ pd, phase.stored = some pd → tlb.tlbSdTargetPd = pd
  checked : ∀ pd gen rest spins, phase = .waiting pd gen rest spins →
    ∀ target ∈ targets lapicIds core, target ∉ rest → gen ≤ tlb.tlbSdSeen (cid target)
  acknowledged : ∀ gen ∈ tlb.due core, gen ≤ tlb.tlbSdSeen (cid core) →
    ∃ read, phase.flushing = some read ∧ gen ≤ read
  picked : ∀ read, phase.picked = some read → read ≤ tlb.tlbSdGen
  acking : ∀ gen, phase = .acking gen → core ∈ lapicIds ∧ tlb.tlbSdSeen (cid core) < gen
  loaded : ∀ value, phase.cr3 = some value → value = tlb.cr3 core

structure Inv (lapicIds : List Nat) (state : State) : Prop where
  core : ∀ core, CoreInv lapicIds state.tlb core (state.phase core)
  seenLe : ∀ index, state.tlb.tlbSdSeen index ≤ state.tlb.tlbSdGen
  member : ∀ core, ∀ gen ∈ state.tlb.due core, core ∈ lapicIds ∧ gen ≤ state.tlb.tlbSdGen
  inFlight : ∀ core, ∀ gen ∈ state.tlb.due core, state.tlb.tlbSdSeen (cid core) < gen →
    ∃ sender pd, (state.phase sender).request = some (pd, gen)
  matching : ∀ core read, (state.phase core).picked = some read →
    ∀ gen ∈ state.tlb.due core, gen ≤ read →
      running (state.tlb.cr3 core) state.tlb.tlbSdTargetPd ∨
      ∃ sender pd, state.phase sender = .bumped pd gen
  returned : ∀ gen ∈ state.tlb.returned, gen ≤ state.tlb.tlbSdGen ∧
    ∀ core, gen ∈ state.tlb.due core → gen ≤ state.tlb.tlbSdSeen (cid core)

/-- At most one core holds `tlb_sd_lock`. -/
theorem Inv.unique {lapicIds : List Nat} {state : State} (inv : Inv lapicIds state)
    {first second : Nat} (holdsFirst : (state.phase first).Holds)
    (holdsSecond : (state.phase second).Holds) : first = second :=
  Option.some.inj (((inv.core first).holder holdsFirst).symm.trans
    ((inv.core second).holder holdsSecond))

/-! ### Steps that change one core's phase only -/

theorem Inv.goto {lapicIds : List Nat} {state : State} {core : Nat} {phase : Phase}
    {pending : Nat → Bool} (inv : Inv lapicIds state)
    (own : CoreInv lapicIds state.tlb core phase)
    (request : (state.phase core).request = phase.request)
    (bumped : ∀ pd gen, state.phase core ≠ .bumped pd gen)
    (matching : ∀ read, phase.picked = some read → ∀ gen ∈ state.tlb.due core, gen ≤ read →
      running (state.tlb.cr3 core) state.tlb.tlbSdTargetPd ∨
      ∃ sender pd, state.phase sender = .bumped pd gen) :
    Inv lapicIds ⟨state.tlb, pending, update state.phase core phase⟩ := by
  have storing {gen : Nat} (before : ∃ sender pd, state.phase sender = .bumped pd gen) :
      ∃ sender pd, update state.phase core phase sender = .bumped pd gen := by
    obtain ⟨sender, pd, holds⟩ := before
    refine ⟨sender, pd, ?_⟩
    rw [update_of_ne (by rintro rfl; exact bumped pd gen holds), holds]
  refine ⟨fun other => ?_, inv.seenLe, inv.member, fun other gen member unseen => ?_,
    fun other read => ?_, inv.returned⟩ <;> dsimp only
  · rcases eq_or_ne other core with rfl | apart
    · rw [update_self]
      exact own
    · rw [update_of_ne apart]
      exact inv.core other
  · obtain ⟨sender, pd, flying⟩ := inv.inFlight other gen member unseen
    refine ⟨sender, pd, ?_⟩
    rcases eq_or_ne sender core with rfl | apart
    · rw [update_self, ← request, flying]
    · rw [update_of_ne apart, flying]
  · rcases eq_or_ne other core with rfl | apart
    · rw [update_self]
      exact fun picked gen member le => (matching read picked gen member le).imp_right storing
    · rw [update_of_ne apart]
      exact fun picked gen member le =>
        (inv.matching other read picked gen member le).imp_right storing

/-- A core about which only the lock is known owes no flush it acknowledged. -/
theorem CoreInv.plain {lapicIds : List Nat} {tlb : Tlb} {core : Nat} {phase : Phase}
    (plain : phase.Plain) (holder : phase.Holds → tlb.tlbSdLock = some core)
    (acknowledged : ∀ gen ∈ tlb.due core, ¬ gen ≤ tlb.tlbSdSeen (cid core)) :
    CoreInv lapicIds tlb core phase := by
  have unseen (gen : Nat) (member : gen ∈ tlb.due core) : tlb.tlbSdSeen (cid core) < gen :=
    not_le.mp (acknowledged gen member)
  cases phase <;> first | exact plain.elim | constructor <;> simp_all

/-- A core whose phase acknowledged nothing owes no flush it acknowledged. -/
theorem CoreInv.unacknowledged {lapicIds : List Nat} {tlb : Tlb} {core : Nat} {phase : Phase}
    (own : CoreInv lapicIds tlb core phase) (nothing : phase.flushing = none) :
    ∀ gen ∈ tlb.due core, ¬ gen ≤ tlb.tlbSdSeen (cid core) := by
  intro gen owed seen
  obtain ⟨read, flushing, -⟩ := own.acknowledged gen owed seen
  rw [nothing] at flushing
  cases flushing

/-- A core that does not hold the lock does not see it change hands. -/
theorem CoreInv.relock {lapicIds : List Nat} {tlb : Tlb} {core : Nat} {phase : Phase}
    (own : CoreInv lapicIds tlb core phase) (free : ¬ phase.Holds) (lock : Option Nat)
    (returned : List Nat) :
    CoreInv lapicIds { tlb with tlbSdLock := lock, returned := returned } core phase :=
  ⟨fun holds => absurd holds free, own.bumping, own.request, own.stored, own.checked,
    own.acknowledged, own.picked, own.acking, own.loaded⟩

/-- The peers of a sender are all other cores, when no two share a slot. -/
theorem mem_targets {lapicIds : List Nat} {core other : Nat}
    (distinct : (lapicIds.map cid).Nodup) (member : core ∈ lapicIds) (peer : other ∈ lapicIds)
    (apart : other ≠ core) : other ∈ targets lapicIds core := by
  have slots : lapicIds.map cid ⊆ List.range tlbMaxCores := by
    intro slot slotMember
    obtain ⟨id, -, rfl⟩ := List.mem_map.mp slotMember
    exact List.mem_range.mpr (Nat.mod_lt _ (by decide))
  have few := (distinct.subperm slots).length_le
  rw [List.length_map, List.length_range] at few
  rw [targets, List.take_of_length_le few, List.mem_filter]
  exact ⟨peer, decide_eq_true fun same =>
    apart (List.inj_on_of_nodup_map distinct peer member same)⟩

/-! ### Steps of a sender -/

theorem inv_init {lapicIds : List Nat} {state : State} (start : Init state) :
    Inv lapicIds state := by
  obtain ⟨gen, seen, lock, due, returned, -, phase⟩ := start
  refine ⟨fun core => ?_, ?_, ?_, ?_, ?_, ?_⟩
  · rw [phase]
    exact CoreInv.plain trivial (by simp) (by simp [due])
  · simp [seen]
  · simp [due]
  · simp [due]
  · simp [due]
  · simp [returned]

theorem inv_acquire {lapicIds : List Nat} {state : State} {core pd : Nat}
    (inv : Inv lapicIds state) (here : state.phase core = .spinning pd)
    (free : state.tlb.tlbSdLock = none) :
    Inv lapicIds ⟨{ state.tlb with tlbSdLock := some core }, state.pending,
      update state.phase core (.locked pd)⟩ := by
  have nobody (other : Nat) : ¬ (state.phase other).Holds := fun holds => by
    have taken := (inv.core other).holder holds
    rw [free] at taken
    cases taken
  have locked : Inv lapicIds ⟨{ state.tlb with tlbSdLock := some core }, state.pending,
      state.phase⟩ :=
    ⟨fun other => (inv.core other).relock (nobody other) _ _, inv.seenLe, inv.member,
      inv.inFlight, inv.matching, inv.returned⟩
  have own := locked.core core
  dsimp only at own
  rw [here] at own
  exact locked.goto (CoreInv.plain trivial (fun _ => rfl) (own.unacknowledged rfl))
    (by simp [here]) (by simp [here]) (by simp)

theorem inv_bump {lapicIds : List Nat} {state : State} {core pd old : Nat}
    (inv : Inv lapicIds state) (here : state.phase core = .bumping pd old)
    (fits : old + 1 < 2 ^ 32) :
    Inv lapicIds ⟨state.tlb.bump lapicIds core pd old, state.pending,
      update state.phase core (.bumped pd ((old + 1) % 2 ^ 32))⟩ := by
  have oldEq := (inv.core core).bumping pd old here
  have fresh : (old + 1) % 2 ^ 32 = state.tlb.tlbSdGen + 1 := by
    rw [Nat.mod_eq_of_lt fits, oldEq]
  have alone {other : Nat} (apart : other ≠ core) : ¬ (state.phase other).Holds := fun holds =>
    apart (inv.unique holds (by rw [here]; trivial))
  have bumpDue (other gen : Nat) (member : gen ∈ (state.tlb.bump lapicIds core pd old).due other) :
      gen ∈ state.tlb.due other ∨ (gen = state.tlb.tlbSdGen + 1 ∧ other ∈ lapicIds ∧
        other ≠ core ∧ running (state.tlb.cr3 other) pd) := by
    simp only [Tlb.bump, fresh] at member
    split_ifs at member with owes
    · rcases List.mem_cons.mp member with rfl | before
      · exact Or.inr ⟨rfl, owes⟩
      · exact Or.inl before
    · exact Or.inl member
  have noneBumped (other pd' gen : Nat) : state.phase other ≠ .bumped pd' gen := by
    intro absurdPhase
    rcases eq_or_ne other core with rfl | apart
    · rw [here] at absurdPhase
      cases absurdPhase
    · exact alone apart (by rw [absurdPhase]; trivial)
  have acknowledgedOld (other gen : Nat)
      (member : gen ∈ (state.tlb.bump lapicIds core pd old).due other)
      (seen : gen ≤ state.tlb.tlbSdSeen (cid other)) : gen ∈ state.tlb.due other := by
    rcases bumpDue other gen member with before | ⟨rfl, -⟩
    · exact before
    · have bound := inv.seenLe (cid other)
      omega
  refine ⟨fun other => ?_, fun index => ?_, fun other gen member => ?_,
    fun other gen member unseen => ?_, fun other read picked gen member le => ?_,
    fun gen member => ?_⟩ <;> dsimp only at *
  · rcases eq_or_ne other core with rfl | apart
    · rw [update_self]
      have own := inv.core other
      rw [here] at own
      constructor
      · exact fun _ => own.holder trivial
      · simp
      · rintro pd' gen ⟨rfl, rfl⟩
        refine ⟨rfl, fun peer member => ?_⟩
        rcases bumpDue peer _ member with before | ⟨-, -, apart, runs⟩
        · have bound := (inv.member peer _ before).2
          omega
        · exact ⟨apart, runs⟩
      · simp
      · simp
      · intro gen member seen
        exact own.acknowledged gen (acknowledgedOld other gen member seen) seen
      · simp
      · simp
      · simp
    · rw [update_of_ne apart]
      have own := inv.core other
      have quiet := alone apart
      refine ⟨fun holds => absurd holds quiet, fun pd' old' holds => ?_,
        fun pd' gen carries => absurd (Phase.holds_of_request carries) quiet,
        fun pd' carries => absurd (Phase.holds_of_stored carries) quiet,
        fun pd' gen rest spins holds => ?_, fun gen member seen =>
          own.acknowledged gen (acknowledgedOld other gen member seen) seen,
        fun read picked => ?_, own.acking, own.loaded⟩
      · exact absurd (by rw [holds]; trivial) quiet
      · exact absurd (by rw [holds]; trivial) quiet
      · have bound := own.picked read picked
        show read ≤ (old + 1) % 2 ^ 32
        omega
  · have bound := inv.seenLe index
    show state.tlb.tlbSdSeen index ≤ (old + 1) % 2 ^ 32
    omega
  · show other ∈ lapicIds ∧ gen ≤ (old + 1) % 2 ^ 32
    rcases bumpDue other gen member with before | ⟨rfl, peer, -⟩
    · have bound := inv.member other gen before
      exact ⟨bound.1, by omega⟩
    · exact ⟨peer, by omega⟩
  · rcases bumpDue other gen member with before | ⟨rfl, -⟩
    · obtain ⟨sender, pd', flying⟩ := inv.inFlight other gen before unseen
      have same : sender = core := inv.unique (Phase.holds_of_request flying)
        (by rw [here]; trivial)
      rw [same, here] at flying
      cases flying
    · exact ⟨core, pd, by rw [update_self, ← fresh]; rfl⟩
  · rcases eq_or_ne other core with rfl | apart
    · rw [update_self] at picked
      cases picked
    · rw [update_of_ne apart] at picked
      have bound := (inv.core other).picked read picked
      rcases bumpDue other gen member with before | ⟨rfl, -⟩
      · rcases inv.matching other read picked gen before le with runs | ⟨sender, pd', storing⟩
        · exact Or.inl runs
        · exact absurd storing (noneBumped sender pd' gen)
      · omega
  · obtain ⟨bound, acked⟩ := inv.returned gen member
    refine ⟨show gen ≤ (old + 1) % 2 ^ 32 by omega, fun other owed => ?_⟩
    rcases bumpDue other gen owed with before | ⟨rfl, -⟩
    · exact acked other before
    · omega

theorem inv_store {lapicIds : List Nat} {state : State} {core pd gen : Nat}
    (inv : Inv lapicIds state) (here : state.phase core = .bumped pd gen)
    (noRace : ∀ other read, (state.phase other).picked = some read →
      ∀ gen ∈ state.tlb.due other, gen ≤ read → running (state.tlb.cr3 other) pd) :
    Inv lapicIds ⟨{ state.tlb with tlbSdTargetPd := pd }, state.pending,
      update state.phase core (.sending pd gen (targets lapicIds core))⟩ := by
  have alone {other : Nat} (apart : other ≠ core) : ¬ (state.phase other).Holds := fun holds =>
    apart (inv.unique holds (by rw [here]; trivial))
  refine ⟨fun other => ?_, inv.seenLe, inv.member, fun other gen' member unseen => ?_,
    fun other read picked gen' member le => ?_, inv.returned⟩ <;> dsimp only at *
  · rcases eq_or_ne other core with rfl | apart
    · rw [update_self]
      have own := inv.core other
      rw [here] at own
      refine ⟨fun _ => own.holder trivial, ?_, own.request, ?_, ?_, own.acknowledged, ?_, ?_, ?_⟩
      · simp
      · rintro pd' ⟨rfl⟩
        rfl
      all_goals simp
    · rw [update_of_ne apart]
      have own := inv.core other
      exact ⟨own.holder, own.bumping, own.request,
        fun pd' carries => absurd (Phase.holds_of_stored carries) (alone apart), own.checked,
        own.acknowledged, own.picked, own.acking, own.loaded⟩
  · obtain ⟨sender, pd', flying⟩ := inv.inFlight other gen' member unseen
    have same : sender = core := inv.unique (Phase.holds_of_request flying)
      (by rw [here]; trivial)
    rw [same, here] at flying
    exact ⟨core, pd', by rw [update_self, ← flying]; rfl⟩
  · left
    rcases eq_or_ne other core with rfl | apart
    · rw [update_self] at picked
      cases picked
    · rw [update_of_ne apart] at picked
      exact noRace other read picked gen' member le

/-- When every peer has been seen to acknowledge, no flush the request asked for is left
unacknowledged, and the sender releases the lock. -/
theorem inv_release {lapicIds : List Nat} {state : State} {core pd gen spins : Nat}
    (inv : Inv lapicIds state) (distinct : (lapicIds.map cid).Nodup) (member : core ∈ lapicIds)
    (here : state.phase core = .waiting pd gen [] spins) :
    Inv lapicIds ⟨{ state.tlb with tlbSdLock := none, returned := gen :: state.tlb.returned },
      state.pending, update state.phase core .idle⟩ := by
  have own := inv.core core
  rw [here] at own
  obtain ⟨genEq, owners⟩ := own.request pd gen rfl
  have acked (other : Nat) (owed : gen ∈ state.tlb.due other) :
      gen ≤ state.tlb.tlbSdSeen (cid other) :=
    own.checked pd gen [] spins rfl other (mem_targets distinct member
      (inv.member other gen owed).1 (owners other owed).1) (by simp)
  have alone {other : Nat} (apart : other ≠ core) : ¬ (state.phase other).Holds := fun holds =>
    apart (inv.unique holds (by rw [here]; trivial))
  refine ⟨fun other => ?_, inv.seenLe, inv.member, fun other gen' owed unseen => ?_,
    fun other read picked gen' owed le => ?_, fun gen' listed => ?_⟩ <;> dsimp only at *
  · rcases eq_or_ne other core with rfl | apart
    · rw [update_self]
      exact CoreInv.plain trivial (by simp) (own.unacknowledged rfl)
    · rw [update_of_ne apart]
      exact (inv.core other).relock (alone apart) _ _
  · obtain ⟨sender, pd', flying⟩ := inv.inFlight other gen' owed unseen
    have same : sender = core := inv.unique (Phase.holds_of_request flying)
      (by rw [here]; trivial)
    rw [same, here] at flying
    cases flying
    exact absurd (acked other owed) (not_le.mpr unseen)
  · rcases eq_or_ne other core with rfl | apart
    · rw [update_self] at picked
      cases picked
    · rw [update_of_ne apart] at picked
      rcases inv.matching other read picked gen' owed le with runs | ⟨sender, pd', storing⟩
      · exact Or.inl runs
      · have same : sender = core := inv.unique (by rw [storing]; trivial) (by rw [here]; trivial)
        rw [same, here] at storing
        cases storing
  · rcases List.mem_cons.mp listed with rfl | before
    · exact ⟨genEq.le, acked⟩
    · exact inv.returned gen' before

/-- A sender that gives up drops what its request asked for. -/
theorem inv_giveUp {lapicIds : List Nat} {state : State} {core pd gen spins : Nat}
    {rest : List Nat} (inv : Inv lapicIds state)
    (here : state.phase core = .waiting pd gen rest spins) :
    Inv lapicIds ⟨state.tlb.giveUp gen, state.pending,
      update state.phase core .timedOut⟩ := by
  have kept {other gen' : Nat} (owed : gen' ∈ (state.tlb.giveUp gen).due other) :
      gen' ∈ state.tlb.due other ∧ gen' ≠ gen := by
    obtain ⟨before, other⟩ := List.mem_filter.mp owed
    exact ⟨before, of_decide_eq_true other⟩
  have own := inv.core core
  rw [here] at own
  have alone {other : Nat} (apart : other ≠ core) : ¬ (state.phase other).Holds := fun holds =>
    apart (inv.unique holds (by rw [here]; trivial))
  refine ⟨fun other => ?_, inv.seenLe, fun other gen' owed => inv.member other gen' (kept owed).1,
    fun other gen' owed unseen => ?_, fun other read picked gen' owed le => ?_,
    fun gen' listed => ⟨(inv.returned gen' listed).1, fun other owed =>
      (inv.returned gen' listed).2 other (kept owed).1⟩⟩ <;> dsimp only at *
  · rcases eq_or_ne other core with rfl | apart
    · rw [update_self]
      exact CoreInv.plain trivial (fun _ => own.holder trivial)
        fun gen' owed => own.unacknowledged rfl gen' (kept owed).1
    · rw [update_of_ne apart]
      have peer := inv.core other
      exact ⟨peer.holder, peer.bumping,
        fun pd' gen' carries => absurd (Phase.holds_of_request carries) (alone apart),
        peer.stored, peer.checked, fun gen' owed => peer.acknowledged gen' (kept owed).1,
        peer.picked, peer.acking, peer.loaded⟩
  · obtain ⟨sender, pd', flying⟩ := inv.inFlight other gen' (kept owed).1 unseen
    have same : sender = core := inv.unique (Phase.holds_of_request flying)
      (by rw [here]; trivial)
    rw [same, here] at flying
    cases flying
    exact absurd rfl (kept owed).2
  · rcases eq_or_ne other core with rfl | apart
    · rw [update_self] at picked
      cases picked
    · rw [update_of_ne apart] at picked
      rcases inv.matching other read picked gen' (kept owed).1 le with
        runs | ⟨sender, pd', storing⟩
      · exact Or.inl runs
      · have same : sender = core := inv.unique (by rw [storing]; trivial) (by rw [here]; trivial)
        rw [same, here] at storing
        cases storing

theorem inv_timedOut {lapicIds : List Nat} {state : State} {core : Nat}
    (inv : Inv lapicIds state) (here : state.phase core = .timedOut) :
    Inv lapicIds ⟨{ state.tlb with tlbSdLock := none }, state.pending,
      update state.phase core .idle⟩ := by
  have own := inv.core core
  rw [here] at own
  have parked : Inv lapicIds ⟨state.tlb, state.pending,
      update state.phase core .idle⟩ :=
    inv.goto (CoreInv.plain trivial (by simp) (own.unacknowledged rfl)) (by simp [here])
      (by simp [here]) (by simp)
  refine ⟨fun other => (parked.core other).relock ?_ _ _, parked.seenLe, parked.member,
    parked.inFlight, parked.matching, parked.returned⟩
  dsimp only
  rcases eq_or_ne other core with rfl | apart
  · simp
  · rw [update_of_ne apart]
    exact fun holds => apart (inv.unique holds (by rw [here]; trivial))

/-! ### Steps of a handler -/

theorem inv_ack {lapicIds : List Nat} {state : State} {core gen : Nat}
    (inv : Inv lapicIds state) (distinct : (lapicIds.map cid).Nodup) (member : core ∈ lapicIds)
    (here : state.phase core = .acking gen) :
    Inv lapicIds ⟨state.tlb.ack core gen, state.pending,
      update state.phase core (.acked gen)⟩ := by
  have own := inv.core core
  rw [here] at own
  have grows (index : Nat) : state.tlb.tlbSdSeen index ≤ (state.tlb.ack core gen).tlbSdSeen index := by
    rcases eq_or_ne index (cid core) with rfl | apart
    · have before := (own.acking gen rfl).2
      simp only [Tlb.ack, update_self]
      omega
    · simp only [Tlb.ack, update_of_ne apart]
      exact le_rfl
  have others {other : Nat} (peer : other ∈ lapicIds) (apart : other ≠ core) :
      (state.tlb.ack core gen).tlbSdSeen (cid other) = state.tlb.tlbSdSeen (cid other) :=
    update_of_ne (fun same =>
      apart (List.inj_on_of_nodup_map distinct peer member same)) _ _
  have requests (sender : Nat) (request : Nat × Nat) :
      (state.phase sender).request = some request →
        (update state.phase core (.acked gen) sender).request = some request := by
    intro flying
    rcases eq_or_ne sender core with rfl | apart
    · rw [here] at flying
      cases flying
    · rw [update_of_ne apart, flying]
  refine ⟨fun other => ?_, fun index => ?_, inv.member, fun other gen' owed unseen => ?_,
    fun other read picked gen' owed le => ?_,
    fun gen' listed => ⟨(inv.returned gen' listed).1, fun other owed =>
      ((inv.returned gen' listed).2 other owed).trans (grows _)⟩⟩ <;> dsimp only at *
  · rcases eq_or_ne other core with rfl | apart
    · rw [update_self]
      refine ⟨by simp, by simp, by simp, by simp, by simp, fun gen' owed seen => ?_, ?_, by simp,
        by simp⟩
      · simp only [Tlb.ack, update_self] at seen
        exact ⟨gen, rfl, seen⟩
      · rintro read ⟨rfl⟩
        exact own.picked _ rfl
    · rw [update_of_ne apart]
      have peer := inv.core other
      refine ⟨peer.holder, peer.bumping, peer.request, peer.stored,
        fun pd' gen' rest spins holds target chosen passed =>
          (peer.checked pd' gen' rest spins holds target chosen passed).trans (grows _),
        fun gen' owed seen => peer.acknowledged gen' owed ?_, peer.picked, fun gen' holds => ?_,
        peer.loaded⟩
      · rwa [others (inv.member other gen' owed).1 apart] at seen
      · obtain ⟨slot, unseen⟩ := peer.acking gen' holds
        exact ⟨slot, by rwa [others slot apart]⟩
  · rcases eq_or_ne index (cid core) with rfl | apart
    · simp only [Tlb.ack, update_self]
      exact own.picked gen rfl
    · simp only [Tlb.ack, update_of_ne apart]
      exact inv.seenLe index
  · obtain ⟨sender, pd', flying⟩ := inv.inFlight other gen' owed ((grows _).trans_lt unseen)
    exact ⟨sender, pd', requests sender _ flying⟩
  · have storing {gen' : Nat} (before : ∃ sender pd, state.phase sender = .bumped pd gen') :
        ∃ sender pd, update state.phase core (.acked gen) sender = .bumped pd gen' := by
      obtain ⟨sender, pd, holds⟩ := before
      refine ⟨sender, pd, ?_⟩
      rw [update_of_ne (by rintro rfl; rw [here] at holds; cases holds), holds]
    rcases eq_or_ne other core with rfl | apart
    · rw [update_self] at picked
      obtain rfl := Option.some.inj picked
      exact (inv.matching other _ (by rw [here]; rfl) gen' owed le).imp_right storing
    · rw [update_of_ne apart] at picked
      exact (inv.matching other read picked gen' owed le).imp_right storing

/-- A core that loads CR3 owes nothing any more. -/
theorem inv_load {lapicIds : List Nat} {state : State} {core value : Nat}
    (inv : Inv lapicIds state) (pending : Nat → Bool)
    (agrees : ∀ read, (state.phase core).cr3 = some read → read = value) :
    Inv lapicIds ⟨state.tlb.load core value, pending, state.phase⟩ := by
  have kept {other gen : Nat} (owed : gen ∈ (state.tlb.load core value).due other) :
      other ≠ core ∧ gen ∈ state.tlb.due other := by
    rcases eq_or_ne other core with rfl | apart
    · simp [Tlb.load] at owed
    · simp only [Tlb.load, update_of_ne apart] at owed
      exact ⟨apart, owed⟩
  have sameCr3 {other : Nat} (apart : other ≠ core) :
      (state.tlb.load core value).cr3 other = state.tlb.cr3 other :=
    update_of_ne apart _ _
  refine ⟨fun other => ?_, inv.seenLe, fun other gen owed => inv.member other gen (kept owed).2,
    fun other gen owed => inv.inFlight other gen (kept owed).2,
    fun other read picked gen owed le => ?_,
    fun gen listed => ⟨(inv.returned gen listed).1, fun other owed =>
      (inv.returned gen listed).2 other (kept owed).2⟩⟩ <;> dsimp only at *
  · have own := inv.core other
    refine ⟨own.holder, own.bumping, fun pd gen carries => ?_, own.stored, own.checked,
      fun gen owed => own.acknowledged gen (kept owed).2, own.picked, own.acking,
      fun read carries => ?_⟩
    · refine ⟨(own.request pd gen carries).1, fun peer owed => ?_⟩
      rw [sameCr3 (kept owed).1]
      exact (own.request pd gen carries).2 peer (kept owed).2
    · rcases eq_or_ne other core with rfl | apart
      · simpa [Tlb.load] using agrees read carries
      · rw [sameCr3 apart]
        exact own.loaded read carries
  · rw [sameCr3 (kept owed).1]
    exact inv.matching other read picked gen (kept owed).2 le

theorem inv_reload {lapicIds : List Nat} {state : State} {core gen value : Nat}
    (inv : Inv lapicIds state) (here : state.phase core = .reloading gen value) :
    Inv lapicIds ⟨state.tlb.load core value, state.pending,
      update state.phase core .idle⟩ := by
  have loaded : Inv lapicIds ⟨state.tlb.load core value, state.pending, state.phase⟩ :=
    inv_load inv _ fun read carries => by
      rw [here] at carries
      exact (Option.some.inj carries).symm
  refine loaded.goto (CoreInv.plain trivial (by simp) ?_) (by simp [here]) (by simp [here])
    (by simp)
  simp [Tlb.load]

/-- The target of the request in flight is stored, or about to be. -/
theorem Inv.storedOrStoring {lapicIds : List Nat} {state : State} {core gen : Nat}
    (inv : Inv lapicIds state) (owed : gen ∈ state.tlb.due core)
    (unseen : state.tlb.tlbSdSeen (cid core) < gen) :
    running (state.tlb.cr3 core) state.tlb.tlbSdTargetPd ∨
      ∃ sender pd, state.phase sender = .bumped pd gen := by
  obtain ⟨sender, pd, flying⟩ := inv.inFlight core gen owed unseen
  have runs := (((inv.core sender).request pd gen flying).2 core owed).2
  have stored := (inv.core sender).stored pd
  cases here : state.phase sender <;> rw [here] at flying stored <;> cases flying
  case bumped => exact Or.inr ⟨sender, pd, here⟩
  case sending => exact Or.inl (by rwa [stored rfl])
  case waiting => exact Or.inl (by rwa [stored rfl])

/-- The steps of a handler up to the reload touch no global but the acknowledgement. -/
theorem inv_handlerStep {lapicIds : List Nat} {state : State} {core : Nat} {tlb : Tlb}
    {target : Option Nat} {phase : Phase} (inv : Inv lapicIds state)
    (distinct : (lapicIds.map cid).Nodup) (member : core ∈ lapicIds)
    (noRace : NoRace state (.advance core))
    (run : handlerStep state.tlb core (state.phase core) = some (tlb, target, phase)) :
    Inv lapicIds ⟨tlb, raise state.pending target, update state.phase core phase⟩ := by
  have own := inv.core core
  have matching := inv.matching core
  cases here : state.phase core <;> rw [here] at run own matching <;>
    simp only [handlerStep, reduceCtorEq, Option.some.injEq, Prod.mk.injEq] at run
  case entered =>
    obtain ⟨rfl, rfl, rfl⟩ := run
    have unseen := own.unacknowledged rfl
    refine inv.goto ⟨by simp, by simp, by simp, by simp, by simp, fun gen owed seen =>
      absurd seen (unseen gen owed), ?_, by simp, by simp⟩ (by simp [here]) (by simp [here])
      fun _ _ gen owed _ => inv.storedOrStoring owed (not_le.mp (unseen gen owed))
    rintro read ⟨rfl⟩
    exact le_rfl
  case gotGen gen =>
    obtain ⟨rfl, rfl, rfl⟩ := run
    have unseen := own.unacknowledged rfl
    split_ifs with fresh
    · refine inv.goto ⟨by simp, by simp, by simp, by simp, by simp, fun gen owed seen =>
        absurd seen (unseen gen owed), own.picked, ?_, by simp⟩ (by simp [here])
        (by simp [here]) matching
      rintro read ⟨rfl⟩
      exact ⟨member, fresh⟩
    · exact inv.goto (CoreInv.plain trivial (by simp) unseen) (by simp [here]) (by simp [here])
        (by simp)
  case acking gen =>
    obtain ⟨rfl, rfl, rfl⟩ := run
    exact inv_ack inv distinct member here
  case acked gen =>
    obtain ⟨rfl, rfl, rfl⟩ := run
    refine inv.goto ⟨by simp, by simp, by simp, by simp, by simp, own.acknowledged, ?_, by simp,
      ?_⟩ (by simp [here]) (by simp [here]) ?_
    · exact own.picked
    · rintro value ⟨rfl⟩
      rfl
    · exact matching
  case gotCr3 gen value =>
    obtain ⟨rfl, rfl, rfl⟩ := run
    have same := own.loaded value rfl
    split_ifs with runs
    · exact inv.goto ⟨by simp, by simp, by simp, by simp, by simp, own.acknowledged, by simp,
        by simp, own.loaded⟩ (by simp [here]) (by simp [here]) (by simp)
    · refine inv.goto (CoreInv.plain trivial (by simp) fun gen' owed seen => ?_)
        (by simp [here]) (by simp [here]) (by simp)
      obtain ⟨read, flushing, le⟩ := own.acknowledged gen' owed seen
      obtain rfl := Option.some.inj flushing
      rcases matching _ rfl gen' owed le with stale | ⟨sender, pd, storing⟩
      · rw [← same] at stale
        exact runs stale
      · simp only [NoRace, here] at noRace
        exact runs (noRace sender pd gen' storing owed le)
  case reloading gen value =>
    obtain ⟨rfl, rfl, rfl⟩ := run
    exact inv_reload inv here

/-- A sender that scans the acknowledgements. -/
theorem CoreInv.waiting {lapicIds rest : List Nat} {tlb : Tlb} {core pd gen spins : Nat}
    (holder : tlb.tlbSdLock = some core)
    (request : ∀ pd' gen', some (pd, gen) = some (pd', gen') → gen' = tlb.tlbSdGen ∧
      ∀ other, gen' ∈ tlb.due other → other ≠ core ∧ running (tlb.cr3 other) pd')
    (stored : ∀ pd', some pd = some pd' → tlb.tlbSdTargetPd = pd')
    (acknowledged : ∀ gen ∈ tlb.due core, gen ≤ tlb.tlbSdSeen (cid core) →
      ∃ read, none = some read ∧ gen ≤ read)
    (checked : ∀ target ∈ targets lapicIds core, target ∉ rest →
      gen ≤ tlb.tlbSdSeen (cid target)) :
    CoreInv lapicIds tlb core (.waiting pd gen rest spins) := by
  refine ⟨fun _ => holder, by simp, request, stored, ?_, acknowledged, by simp, by simp, by simp⟩
  rintro pd' gen' rest' spins' ⟨rfl, rfl, rfl, rfl⟩
  exact checked

/-! ### Every run -/

theorem inv_sendStep {lapicIds : List Nat} {state : State} {core : Nat} {tlb : Tlb}
    {target : Option Nat} {phase : Phase} (inv : Inv lapicIds state)
    (distinct : (lapicIds.map cid).Nodup) (member : core ∈ lapicIds)
    (noRace : NoRace state (.advance core))
    (run : sendStep lapicIds state.tlb core (state.phase core) = some (tlb, target, phase)) :
    Inv lapicIds ⟨tlb, raise state.pending target, update state.phase core phase⟩ := by
  have own := inv.core core
  have unchecked (gen : Nat) : ∀ target ∈ targets lapicIds core,
      target ∉ targets lapicIds core → gen ≤ state.tlb.tlbSdSeen (cid target) :=
    fun target chosen passed => absurd chosen passed
  cases here : state.phase core <;> rw [here] at run own <;>
    simp only [NoRace, here] at noRace
  case spinning pd =>
    rw [sendStep] at run
    split_ifs at run with free
    obtain ⟨rfl, rfl, rfl⟩ := run
    exact inv_acquire inv here free
  case locked pd =>
    obtain ⟨rfl, rfl, rfl⟩ := run
    refine inv.goto ⟨own.holder, ?_, by simp, by simp, by simp, own.acknowledged, by simp,
      by simp, by simp⟩ (by simp [here]) (by simp [here]) (by simp)
    rintro pd' old ⟨rfl, rfl⟩
    rfl
  case bumping pd old =>
    obtain ⟨rfl, rfl, rfl⟩ := run
    exact inv_bump inv here noRace
  case bumped pd gen =>
    obtain ⟨rfl, rfl, rfl⟩ := run
    exact inv_store inv here noRace
  case sending pd gen rest =>
    cases rest with
    | nil =>
      obtain ⟨rfl, rfl, rfl⟩ := run
      exact inv.goto (CoreInv.waiting (own.holder trivial) own.request own.stored own.acknowledged
        (unchecked gen)) (by simp [here]) (by simp [here]) (by simp)
    | cons peer rest =>
      obtain ⟨rfl, rfl, rfl⟩ := run
      exact inv.goto ⟨own.holder, by simp, own.request, own.stored, by simp, own.acknowledged,
        by simp, by simp, by simp⟩ (by simp [here]) (by simp [here]) (by simp)
  case waiting pd gen rest spins =>
    cases rest with
    | nil =>
      obtain ⟨rfl, rfl, rfl⟩ := run
      exact inv_release inv distinct member here
    | cons peer rest =>
      rw [sendStep] at run
      split_ifs at run with acked tripped
      · obtain ⟨rfl, rfl, rfl⟩ := run
        refine inv.goto (CoreInv.waiting (own.holder trivial) own.request own.stored own.acknowledged
          fun target chosen passed => ?_) (by simp [here]) (by simp [here]) (by simp)
        rcases eq_or_ne target peer with rfl | apart
        · exact acked
        · exact own.checked pd gen _ spins rfl target chosen (by simp [apart, passed])
      · obtain ⟨rfl, rfl, rfl⟩ := run
        exact inv_giveUp inv here
      · obtain ⟨rfl, rfl, rfl⟩ := run
        exact inv.goto (CoreInv.waiting (own.holder trivial) own.request own.stored own.acknowledged
          (unchecked gen)) (by simp [here]) (by simp [here]) (by simp)
  case timedOut =>
    obtain ⟨rfl, rfl, rfl⟩ := run
    exact inv_timedOut inv here
  all_goals cases run

theorem inv_step {lapicIds : List Nat} {state next : State} {label : Label}
    (distinct : (lapicIds.map cid).Nodup) (inv : Inv lapicIds state)
    (noRace : NoRace state label) (taken : step lapicIds state label = some next) :
    Inv lapicIds next := by
  cases label with
  | call core pd =>
    obtain ⟨⟨-, here, -⟩, ⟨rfl⟩⟩ := Option.ite_none_right_eq_some.mp taken
    have own := inv.core core
    rw [here] at own
    exact inv.goto (CoreInv.plain trivial (by simp) (own.unacknowledged rfl)) (by simp [here])
      (by simp [here]) (by simp)
  | enter core =>
    obtain ⟨⟨-, here, -⟩, ⟨rfl⟩⟩ := Option.ite_none_right_eq_some.mp taken
    have own := inv.core core
    rw [here] at own
    exact inv.goto (CoreInv.plain trivial (by simp) (own.unacknowledged rfl)) (by simp [here])
      (by simp [here]) (by simp)
  | loadCr3 core value =>
    obtain ⟨⟨-, here⟩, ⟨rfl⟩⟩ := Option.ite_none_right_eq_some.mp taken
    exact inv_load inv _ (by simp [here])
  | advance core =>
    obtain ⟨member, taken⟩ := Option.ite_none_right_eq_some.mp taken
    obtain ⟨⟨tlb, target, phase⟩, run, rfl⟩ := Option.map_eq_some_iff.mp taken
    cases sent : sendStep lapicIds state.tlb core (state.phase core) with
    | none =>
      rw [sent] at run
      exact inv_handlerStep inv distinct member noRace run
    | some result =>
      rw [sent] at run
      obtain rfl := Option.some.inj run
      exact inv_sendStep inv distinct member noRace sent

/-- Three cores before the first shootdown; the last one runs the directory at 0x100000. -/
def threeCores : State where
  tlb := ⟨0, 0, fun _ => 0, none, fun core => if core = 2 then 0x100000 else 0, fun _ => [], []⟩
  pending _ := false
  phase _ := .idle

theorem init_threeCores : Init threeCores := ⟨rfl, rfl, rfl, rfl, rfl, rfl, rfl⟩

theorem reachable_threeCores (guard : State → Label → Prop) :
    (shootdown [0, 1, 2]).Reachable guard threeCores :=
  .init init_threeCores

/-- Core 0 flushes the directory core 2 runs. Core 2 acknowledges and stops before it reads
the target; core 0 returns; core 1 stores the target of its own shootdown; core 2 reads that
one and leaves without a reload. -/
def racingRun : List Label :=
  [.call 0 0x100000, .advance 0, .advance 0, .advance 0, .advance 0, .advance 0, .advance 0,
    .advance 0,
    .enter 1, .advance 1, .advance 1, .advance 1, .advance 1, .advance 1,
    .enter 2, .advance 2, .advance 2, .advance 2, .advance 2,
    .advance 0, .advance 0, .advance 0,
    .call 1 0x200000, .advance 1, .advance 1, .advance 1, .advance 1,
    .advance 2]

theorem racingRun_stale : ∃ state, execute (step [0, 1, 2]) threeCores racingRun = some state ∧
    state.tlb.due 2 = [1] ∧ state.tlb.returned = [1] ∧ state.phase 2 = .idle :=
  ⟨_, rfl, by decide, by decide, by decide⟩

end MectovOS.Shootdown
