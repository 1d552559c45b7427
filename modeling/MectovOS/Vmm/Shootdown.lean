/-
This file models the TLB shootdown of src/sys/vmm.c as a transition system: any
number of cores run `vmm_tlb_shootdown` and the IPI handler, and every read or
write of `tlb_sd_gen`, `tlb_sd_target_pd` and `tlb_sd_seen` is a step of its
own. Senders hold `tlb_sd_lock` with interrupts off, so a sending core takes no
IPI; a handler runs with interrupts off, so CR3 changes under it only by its own
reload.

The state also records, for the statement only, which generations still owe a
core a flush (`due`) and which ones returned without the ack timeout.
-/

import MectovOS.Lib.Transition

namespace MectovOS.Shootdown

open Transition Function

/-! ### Cores and page directories -/

/-- The slot of a core in `tlb_sd_seen`: `apic_get_id() & 15`. -/
def cid (core : Nat) : Nat := core % 16

/-- `TLB_MAX_CORES` and `TLB_ACK_MAX_SPINS`. -/
def tlbMaxCores : Nat := 16
def tlbAckMaxSpins : Nat := 20000000

/-- The handler's test: the request names the shared identity space or this core's CR3. -/
def running (cr3 want : Nat) : Bool :=
  want == 0 || (cr3 &&& 0xFFFFF000) == (want &&& 0xFFFFF000)

/-- The peers a sender addresses, out of `smp_lapic_ids`. -/
def targets (lapicIds : List Nat) (self : Nat) : List Nat :=
  (lapicIds.take tlbMaxCores).filter fun core => cid core ≠ cid self

/-! ### States -/

/-- Where a core stands in `vmm_tlb_shootdown` or in `vmm_tlb_sd_handler`. -/
inductive Phase where
  | idle
  | spinning (pd : Nat)
  | locked (pd : Nat)
  | bumping (pd gen : Nat)
  | bumped (pd gen : Nat)
  | sending (pd gen : Nat) (rest : List Nat)
  | waiting (pd gen : Nat) (rest : List Nat) (spins : Nat)
  | timedOut
  | entered
  | gotGen (gen : Nat)
  | acking (gen : Nat)
  | acked (gen : Nat)
  | gotCr3 (gen cr3 : Nat)
  | reloading (gen cr3 : Nat)
  deriving DecidableEq

/-- The protocol's globals, every core's CR3, and the two records of the statement. -/
structure Tlb where
  tlbSdGen : Nat
  tlbSdTargetPd : Nat
  tlbSdSeen : Nat → Nat
  tlbSdLock : Option Nat
  cr3 : Nat → Nat
  due : Nat → List Nat
  returned : List Nat

structure State where
  tlb : Tlb
  pending : Nat → Bool
  phase : Nat → Phase

/-- A core calls `vmm_tlb_shootdown`, takes the pending IPI, loads another CR3 in
`schedule`, or takes the next step of the function it is in. -/
inductive Label where
  | call (core pd : Nat)
  | enter (core : Nat)
  | loadCr3 (core value : Nat)
  | advance (core : Nat)

/-! ### Steps -/

/-- Bump the generation; every other core that runs the directory owes a flush. -/
def Tlb.bump (tlb : Tlb) (lapicIds : List Nat) (core pd old : Nat) : Tlb :=
  let gen := (old + 1) % 2 ^ 32
  { tlb with
    tlbSdGen := gen
    due := fun other =>
      if other ∈ lapicIds ∧ other ≠ core ∧ running (tlb.cr3 other) pd then
        gen :: tlb.due other
      else tlb.due other }

/-- Load a CR3 value: nothing stale is left on this core. -/
def Tlb.load (tlb : Tlb) (core value : Nat) : Tlb :=
  { tlb with
    cr3 := update tlb.cr3 core value
    due := update tlb.due core [] }

/-- Give up on a generation after the ack timeout. -/
def Tlb.giveUp (tlb : Tlb) (gen : Nat) : Tlb :=
  { tlb with due := fun other => (tlb.due other).filter (· ≠ gen) }

def Tlb.ack (tlb : Tlb) (core gen : Nat) : Tlb :=
  { tlb with tlbSdSeen := update tlb.tlbSdSeen (cid core) gen }

/-- The next step of `vmm_tlb_shootdown`: the globals, an IPI to send, the next phase. -/
def sendStep (lapicIds : List Nat) (tlb : Tlb) (core : Nat) :
    Phase → Option (Tlb × Option Nat × Phase)
  | .spinning pd =>
    if tlb.tlbSdLock = none then
      some ({ tlb with tlbSdLock := some core }, none, .locked pd)
    else none
  | .locked pd => some (tlb, none, .bumping pd tlb.tlbSdGen)
  | .bumping pd old =>
    some (tlb.bump lapicIds core pd old, none, .bumped pd ((old + 1) % 2 ^ 32))
  | .bumped pd gen =>
    some ({ tlb with tlbSdTargetPd := pd }, none, .sending pd gen (targets lapicIds core))
  | .sending pd gen [] => some (tlb, none, .waiting pd gen (targets lapicIds core) 0)
  | .sending pd gen (target :: rest) => some (tlb, some target, .sending pd gen rest)
  | .waiting _ gen [] _ =>
    some ({ tlb with tlbSdLock := none, returned := gen :: tlb.returned }, none, .idle)
  | .waiting pd gen (target :: rest) spins =>
    if gen ≤ tlb.tlbSdSeen (cid target) then some (tlb, none, .waiting pd gen rest spins)
    else if tlbAckMaxSpins ≤ spins + 1 then some (tlb.giveUp gen, none, .timedOut)
    else some (tlb, none, .waiting pd gen (targets lapicIds core) (spins + 1))
  | .timedOut => some ({ tlb with tlbSdLock := none }, none, .idle)
  | _ => none

/-- The next step of `vmm_tlb_sd_handler`. -/
def handlerStep (tlb : Tlb) (core : Nat) : Phase → Option (Tlb × Option Nat × Phase)
  | .entered => some (tlb, none, .gotGen tlb.tlbSdGen)
  | .gotGen gen =>
    some (tlb, none, if tlb.tlbSdSeen (cid core) < gen then .acking gen else .idle)
  | .acking gen => some (tlb.ack core gen, none, .acked gen)
  | .acked gen => some (tlb, none, .gotCr3 gen (tlb.cr3 core))
  | .gotCr3 gen cr3 =>
    some (tlb, none, if running cr3 tlb.tlbSdTargetPd then .reloading gen cr3 else .idle)
  | .reloading _ cr3 => some (tlb.load core cr3, none, .idle)
  | _ => none

def raise (pending : Nat → Bool) : Option Nat → Nat → Bool
  | none => pending
  | some target => update pending target true

def step (lapicIds : List Nat) (state : State) : Label → Option State
  | .call core pd =>
    if core ∈ lapicIds ∧ state.phase core = .idle ∧ targets lapicIds core ≠ [] then
      some { state with phase := update state.phase core (.spinning pd) }
    else none
  | .enter core =>
    if core ∈ lapicIds ∧ state.phase core = .idle ∧ state.pending core then
      some { state with
        pending := update state.pending core false
        phase := update state.phase core .entered }
    else none
  | .loadCr3 core value =>
    if core ∈ lapicIds ∧ state.phase core = .idle then
      some { state with tlb := state.tlb.load core value }
    else none
  | .advance core =>
    if core ∈ lapicIds then
      ((sendStep lapicIds state.tlb core (state.phase core)).orElse fun _ =>
        handlerStep state.tlb core (state.phase core)).map fun (tlb, target, phase) =>
          ⟨tlb, raise state.pending target, update state.phase core phase⟩
    else none

/-- Before the first shootdown. -/
def Init (state : State) : Prop :=
  state.tlb.tlbSdGen = 0 ∧ state.tlb.tlbSdSeen = (fun _ => 0) ∧ state.tlb.tlbSdLock = none ∧
    state.tlb.due = (fun _ => []) ∧ state.tlb.returned = [] ∧
    state.pending = (fun _ => false) ∧ state.phase = (fun _ => .idle)

def shootdown (lapicIds : List Nat) : System State Label := System.ofStep Init (step lapicIds)

/-- The core is inside `vmm_tlb_sd_handler`. -/
def Phase.InHandler : Phase → Prop
  | .entered | .gotGen _ | .acking _ | .acked _ | .gotCr3 _ _ | .reloading _ _ => True
  | _ => False

/-- No core has left its handler with a flush due to a shootdown that returned without the
ack timeout. -/
def Flushed (state : State) : Prop :=
  ∀ core, ∀ gen ∈ state.tlb.due core, gen ∈ state.tlb.returned →
    (state.phase core).InHandler

end MectovOS.Shootdown
