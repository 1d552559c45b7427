/-
This file models the breakpoint table of src/drivers/gdb_stub.c and proves that it is
hidden from the program: in any run of inserted and removed breakpoints, traps and stores
beside the breakpoints, memory is what it would be without the stub, but for the 0xCC at
addresses of active breakpoints, and without active ones it is that memory again.
-/

import Mathlib

namespace MectovOS.Gdb

open Function (update update_self update_of_ne)

/-! ### The stub -/

/-- `GDB_MAX_BP`. -/
def gdbMaxBp : Nat := 16

/-- `gdb_bp_t`. -/
structure GdbBp where
  addr : Nat
  orig : UInt8
  active : Bool

/-- Memory and `gdb_bps`. -/
structure Stub where
  memory : Nat → UInt8
  bps : Fin gdbMaxBp → GdbBp

/-- `gdb_find_bp`. -/
def gdbFindBp (stub : Stub) (addr : Nat) : Option (Fin gdbMaxBp) :=
  (List.finRange gdbMaxBp).find? fun i => (stub.bps i).active && (stub.bps i).addr == addr

/-- `gdb_insert_bp`: not in a full table. -/
def gdbInsertBp (stub : Stub) (addr : Nat) : Bool × Stub :=
  if (gdbFindBp stub addr).isSome then (true, stub)
  else
    match (List.finRange gdbMaxBp).find? fun i => !(stub.bps i).active with
    | none => (false, stub)
    | some i =>
      (true, { memory := update stub.memory addr 0xcc
               bps := update stub.bps i ⟨addr, stub.memory addr, true⟩ })

/-- `gdb_remove_bp`. -/
def gdbRemoveBp (stub : Stub) (addr : Nat) : Stub :=
  match gdbFindBp stub addr with
  | none => stub
  | some i =>
    { memory := update stub.memory addr (stub.bps i).orig
      bps := update stub.bps i { stub.bps i with active := false } }

/-- `fb_addr` and the bytes behind it. -/
structure Framebuffer where
  addr : Nat
  size : Nat

/-- `gdb_mem_ok`. -/
def gdbMemOk (fb : Framebuffer) (addr len : Nat) : Bool :=
  len == 0 || (addr < 2 ^ 28 && (addr + len) % 2 ^ 32 ≤ 2 ^ 28) ||
    (fb.addr != 0 && fb.addr ≤ addr && (addr + len) % 2 ^ 32 ≤ (fb.addr + fb.size) % 2 ^ 32)

/-- An `int3` in `gdb_stub_handle_trap`: the instruction is put back and `eip` goes back to it, but
the entry stays active. -/
def gdbStubHandleTrap (stub : Stub) (eip : Nat) : Nat × Stub :=
  let bp := (eip + 2 ^ 32 - 1) % 2 ^ 32
  match gdbFindBp stub bp with
  | none => (eip, stub)
  | some i => (bp, { stub with memory := update stub.memory bp (stub.bps i).orig })

/-- What happens to memory and the table: packets Z0 and z0, traps, and bytes that the program or an
M packet stores. -/
inductive Event where
  | insert (addr : Nat)
  | remove (addr : Nat)
  | trap (eip : Nat)
  | store (addr : Nat) (value : UInt8)

def next (fb : Framebuffer) (stub : Stub) : Event → Stub
  | .insert addr => if gdbMemOk fb addr 1 then (gdbInsertBp stub addr).2 else stub
  | .remove addr => if gdbMemOk fb addr 1 then gdbRemoveBp stub addr else stub
  | .trap eip => (gdbStubHandleTrap stub eip).2
  | .store addr value => { stub with memory := update stub.memory addr value }

/-! ### The program without the stub -/

/-- Only stores change the memory of the program. -/
def plainNext (memory : Nat → UInt8) : Event → Nat → UInt8
  | .store addr value => update memory addr value
  | _ => memory

/-- The memory that the program is to see. -/
def Stub.program (stub : Stub) (addr : Nat) : UInt8 :=
  match gdbFindBp stub addr with
  | none => stub.memory addr
  | some i => (stub.bps i).orig

/-- No store of the run hits an active breakpoint. -/
def Apart (fb : Framebuffer) : Stub → List Event → Prop
  | _, [] => True
  | stub, event :: events =>
    (∀ addr value, event = .store addr value → gdbFindBp stub addr = none) ∧
      Apart fb (next fb stub event) events

/-- Active breakpoints have different addresses, and show as 0xCC or as the byte that they hide. -/
structure Sound (stub : Stub) : Prop where
  single : ∀ i j, (stub.bps i).active = true → (stub.bps j).active = true →
    (stub.bps i).addr = (stub.bps j).addr → i = j
  shown : ∀ i, (stub.bps i).active = true → stub.memory (stub.bps i).addr = 0xcc ∨
    stub.memory (stub.bps i).addr = (stub.bps i).orig

theorem gdbFindBp_some {stub : Stub} {addr : Nat} {i : Fin gdbMaxBp}
    (found : gdbFindBp stub addr = some i) :
    (stub.bps i).active = true ∧ (stub.bps i).addr = addr := by
  have holds := List.find?_some found
  rwa [Bool.and_eq_true, beq_iff_eq] at holds

theorem gdbFindBp_none {stub : Stub} {addr : Nat} (found : gdbFindBp stub addr = none)
    {i : Fin gdbMaxBp} (active : (stub.bps i).active = true) : (stub.bps i).addr ≠ addr := by
  intro is
  have fails := List.find?_eq_none.mp found i (List.mem_finRange i)
  rw [active, is, beq_self_eq_true] at fails
  exact fails rfl

theorem program_hidden {stub : Stub} (sound : Sound stub) {i : Fin gdbMaxBp}
    (active : (stub.bps i).active = true) : stub.program (stub.bps i).addr = (stub.bps i).orig := by
  unfold Stub.program
  cases found : gdbFindBp stub (stub.bps i).addr with
  | none => exact absurd rfl (gdbFindBp_none found active)
  | some j =>
    obtain ⟨also, same⟩ := gdbFindBp_some found
    rw [sound.single j i also active same]

theorem program_plain {stub : Stub} {addr : Nat}
    (free : ∀ i, (stub.bps i).active = true → (stub.bps i).addr ≠ addr) :
    stub.program addr = stub.memory addr := by
  unfold Stub.program
  cases found : gdbFindBp stub addr with
  | none => rfl
  | some i => exact absurd (gdbFindBp_some found).2 (free i (gdbFindBp_some found).1)

/-- Tables that hide the same bytes behind memory show one program. -/
theorem program_congr {stub stub' : Stub} (sound : Sound stub) (sound' : Sound stub') {addr : Nat}
    (hidden : ∀ i, (stub.bps i).active = true ∧ (stub.bps i).addr = addr ∨
      (stub'.bps i).active = true ∧ (stub'.bps i).addr = addr → stub.bps i = stub'.bps i)
    (memory : stub.memory addr = stub'.memory addr) : stub'.program addr = stub.program addr := by
  by_cases free : ∀ i, (stub.bps i).active = true → (stub.bps i).addr ≠ addr
  · have free' : ∀ i, (stub'.bps i).active = true → (stub'.bps i).addr ≠ addr := by
      intro i active is
      have same := hidden i (Or.inr ⟨active, is⟩)
      rw [← same] at active is
      exact free i active is
    rw [program_plain free, program_plain free', memory]
  · push Not at free
    obtain ⟨i, active, rfl⟩ := free
    have same := hidden i (Or.inl ⟨active, rfl⟩)
    rw [program_hidden sound active, same]
    exact program_hidden sound' (same ▸ active)

/-! ### Runs -/

/-- A slot that is free, or for an address, takes a breakpoint for that address. -/
theorem update_sound {stub : Stub} (sound : Sound stub) {i : Fin gdbMaxBp} {bp : GdbBp} {byte : UInt8}
    (slot : (stub.bps i).active = true → (stub.bps i).addr = bp.addr)
    (apart : ∀ {j}, j ≠ i → (stub.bps j).active = true → (stub.bps j).addr ≠ bp.addr)
    (shown : bp.active = true → byte = 0xcc ∨ byte = bp.orig) :
    Sound ⟨update stub.memory bp.addr byte, update stub.bps i bp⟩ ∧ ∀ place ≠ bp.addr,
      Stub.program ⟨update stub.memory bp.addr byte, update stub.bps i bp⟩ place =
        stub.program place := by
  have other : ∀ {j}, j ≠ i → update stub.bps i bp j = stub.bps j := fun away => update_of_ne away ..
  have kept : Sound ⟨update stub.memory bp.addr byte, update stub.bps i bp⟩ := by
    refine ⟨fun j k first second same => ?_, fun j active => ?_⟩
    · dsimp only at first second same
      by_cases here : j = i <;> by_cases there : k = i
      · rw [here, there]
      · rw [other there] at second same
        rw [here, update_self] at same
        exact absurd same.symm (apart there second)
      · rw [other here] at first same
        rw [there, update_self] at same
        exact absurd same (apart here first)
      · rw [other here] at first same
        rw [other there] at second same
        exact sound.single j k first second same
    · dsimp only at active ⊢
      by_cases here : j = i
      · rw [here, update_self] at active ⊢
        rw [update_self]
        exact shown active
      · rw [other here] at active ⊢
        rw [update_of_ne (apart here active)]
        exact sound.shown j active
  refine ⟨kept, fun place elsewhere => ?_⟩
  refine program_congr sound kept (fun j at' => ?_) (update_of_ne elsewhere ..).symm
  dsimp only at at' ⊢
  by_cases same : j = i
  · rw [same, update_self] at at'
    rcases at' with ⟨active, is⟩ | ⟨-, is⟩
    · exact absurd (is.symm.trans (slot active)) elsewhere
    · exact absurd is.symm elsewhere
  · exact (other same).symm

theorem insert_sound {stub : Stub} (sound : Sound stub) (addr : Nat) :
    Sound (gdbInsertBp stub addr).2 ∧ (gdbInsertBp stub addr).2.program = stub.program := by
  unfold gdbInsertBp
  by_cases known : (gdbFindBp stub addr).isSome = true
  · rw [if_pos known]
    exact ⟨sound, rfl⟩
  rw [if_neg known]
  have fresh : ∀ {i}, (stub.bps i).active = true → (stub.bps i).addr ≠ addr :=
    gdbFindBp_none (Option.not_isSome_iff_eq_none.mp known)
  cases free : (List.finRange gdbMaxBp).find? fun i => !(stub.bps i).active with
  | none => exact ⟨sound, rfl⟩
  | some i =>
    have idle : (stub.bps i).active ≠ true := by
      have holds := List.find?_some free
      rwa [Bool.not_eq_true', ← Bool.not_eq_true] at holds
    obtain ⟨kept, same⟩ := @update_sound stub sound i ⟨addr, stub.memory addr, true⟩ 0xcc
      (fun active => absurd active idle) (fun _ => fresh) fun _ => Or.inl rfl
    refine ⟨kept, funext fun place => ?_⟩
    by_cases here : place = addr
    · have entry : update stub.bps i ⟨addr, stub.memory addr, true⟩ i =
          ⟨addr, stub.memory addr, true⟩ := update_self ..
      have hides := @program_hidden _ kept i (congrArg GdbBp.active entry)
      dsimp only at hides
      rw [entry] at hides
      rw [here, hides, program_plain fun _ => fresh]
    · exact same place here

theorem remove_sound {stub : Stub} (sound : Sound stub) (addr : Nat) :
    Sound (gdbRemoveBp stub addr) ∧ (gdbRemoveBp stub addr).program = stub.program := by
  unfold gdbRemoveBp
  cases found : gdbFindBp stub addr with
  | none => exact ⟨sound, rfl⟩
  | some i =>
    obtain ⟨active, rfl⟩ := gdbFindBp_some found
    have elsewhere : ∀ {j}, j ≠ i → (stub.bps j).active = true →
        (stub.bps j).addr ≠ (stub.bps i).addr :=
      fun apart active' same => apart (sound.single _ i active' active same)
    obtain ⟨kept, same⟩ := @update_sound stub sound i { stub.bps i with active := false }
      (stub.bps i).orig (fun _ => rfl) elsewhere nofun
    refine ⟨kept, funext fun place => ?_⟩
    by_cases here : place = (stub.bps i).addr
    · dsimp only
      rw [here, program_hidden sound active, program_plain]
      · exact update_self ..
      rintro j active' same
      by_cases away : j = i
      · rw [away] at active'
        exact absurd (active'.symm.trans (congrArg GdbBp.active (update_self ..))) nofun
      dsimp only at active' same
      rw [update_of_ne away] at active' same
      exact elsewhere away active' same
    · exact same place here

/-- Stores beside the breakpoints, and a trap, leave the table as it is. -/
theorem memory_sound {stub : Stub} (sound : Sound stub) {memory : Nat → UInt8}
    (shown : ∀ i, (stub.bps i).active = true →
      memory (stub.bps i).addr = stub.memory (stub.bps i).addr ∨
        memory (stub.bps i).addr = (stub.bps i).orig) :
    Sound { stub with memory := memory } :=
  ⟨sound.single, fun i active => (shown i active).elim (fun same => by
    dsimp only
    rw [same]
    exact sound.shown i active) Or.inr⟩

/-- One event keeps the table sound, and the program sees what it would without the stub. -/
theorem next_sound (fb : Framebuffer) {stub : Stub} (sound : Sound stub) (event : Event)
    (apart : ∀ addr value, event = .store addr value → gdbFindBp stub addr = none) :
    Sound (next fb stub event) ∧
      (next fb stub event).program = plainNext stub.program event := by
  cases event with
  | insert addr =>
    by_cases fits : gdbMemOk fb addr 1 = true
    · rw [next, if_pos fits]
      exact insert_sound sound addr
    · rw [next, if_neg fits]
      exact ⟨sound, rfl⟩
  | remove addr =>
    by_cases fits : gdbMemOk fb addr 1 = true
    · rw [next, if_pos fits]
      exact remove_sound sound addr
    · rw [next, if_neg fits]
      exact ⟨sound, rfl⟩
  | trap eip =>
    unfold next gdbStubHandleTrap
    dsimp only
    cases found : gdbFindBp stub ((eip + 2 ^ 32 - 1) % 2 ^ 32) with
    | none => exact ⟨sound, rfl⟩
    | some i =>
      obtain ⟨active, is⟩ := gdbFindBp_some found
      rw [← is]
      have kept := @memory_sound stub sound
        (update stub.memory (stub.bps i).addr (stub.bps i).orig) fun j also => by
          by_cases same : (stub.bps j).addr = (stub.bps i).addr
          · rw [sound.single j i also active same, update_self]
            exact Or.inr rfl
          · exact Or.inl (update_of_ne same ..)
      refine ⟨kept, funext fun place => ?_⟩
      by_cases here : place = (stub.bps i).addr
      · rw [here]
        exact (program_hidden kept active).trans (program_hidden sound active).symm
      · exact program_congr sound kept (fun _ _ => rfl) (update_of_ne here ..).symm
  | store addr value =>
    have free := apart addr value rfl
    have kept := @memory_sound stub sound (update stub.memory addr value) fun j active =>
      Or.inl (update_of_ne (gdbFindBp_none free active) ..)
    refine ⟨kept, funext fun place => ?_⟩
    show _ = update stub.program addr value place
    by_cases here : place = addr
    · rw [here, update_self]
      have plain := @program_plain { stub with memory := update stub.memory addr value } addr fun _ =>
        gdbFindBp_none free
      exact plain.trans (update_self ..)
    · rw [update_of_ne here]
      exact program_congr sound kept (fun _ _ => rfl) (update_of_ne here ..).symm

/-- A run keeps the table sound. -/
theorem run_sound (fb : Framebuffer) {stub : Stub} (sound : Sound stub) {events : List Event}
    (apart : Apart fb stub events) :
    Sound (events.foldl (next fb) stub) ∧
      (events.foldl (next fb) stub).program = events.foldl plainNext stub.program := by
  induction events generalizing stub with
  | nil => exact ⟨sound, rfl⟩
  | cons event events induction =>
    obtain ⟨kept, seen⟩ := next_sound fb sound event apart.1
    rw [List.foldl_cons, List.foldl_cons, ← seen]
    exact induction kept apart.2

/-- The stub is hidden: in every run from an empty table, memory is the program's but for 0xCC at
active breakpoints, and all of it is once the table is empty. -/
theorem breakpoints_hidden (fb : Framebuffer) {start : Stub}
    (clean : ∀ i, (start.bps i).active = false) {events : List Event}
    (apart : Apart fb start events) :
    (∀ addr, (events.foldl (next fb) start).memory addr = events.foldl plainNext start.memory addr ∨
        (events.foldl (next fb) start).memory addr = 0xcc ∧
          (gdbFindBp (events.foldl (next fb) start) addr).isSome = true) ∧
      ((∀ i, ((events.foldl (next fb) start).bps i).active = false) →
        (events.foldl (next fb) start).memory = events.foldl plainNext start.memory) := by
  have idle : ∀ {stub : Stub}, (∀ i, (stub.bps i).active = false) →
      ∀ i, (stub.bps i).active ≠ true := fun none i active =>
    Bool.false_ne_true ((none i).symm.trans active)
  have sound : Sound start := ⟨fun i _ active => absurd active (idle clean i),
    fun i active => absurd active (idle clean i)⟩
  have shows : start.program = start.memory :=
    funext fun _ => program_plain fun i active => absurd active (idle clean i)
  obtain ⟨kept, seen⟩ := run_sound fb sound apart
  rw [shows] at seen
  rw [← seen]
  refine ⟨fun addr => ?_, fun none => funext fun _ =>
    (program_plain fun i active => absurd active (idle none i)).symm⟩
  cases found : gdbFindBp (events.foldl (next fb) start) addr with
  | none => exact Or.inl (program_plain fun _ => gdbFindBp_none found).symm
  | some i =>
    obtain ⟨active, rfl⟩ := gdbFindBp_some found
    exact (kept.shown i active).elim (fun break' => Or.inr ⟨break', rfl⟩) fun same =>
      Or.inl (same.trans (program_hidden kept active).symm)

/-- A breakpoint that is hit and taken out, with a store beside it. -/
def cleanStub : Stub := ⟨fun _ => 0x90, fun _ => ⟨0, 0, false⟩⟩

theorem breakpoints_hidden_hit :
    ([Event.insert 16, .trap 17, .store 5 7, .remove 16].foldl (next ⟨0, 0⟩) cleanStub).memory =
      update (fun _ => 0x90) 5 7 :=
  (@breakpoints_hidden ⟨0, 0⟩ cleanStub (fun _ => rfl)
    [.insert 16, .trap 17, .store 5 7, .remove 16]
    ⟨nofun, nofun, fun _ _ is => by cases is; decide +kernel, nofun, trivial⟩).2 (by decide +kernel)

end MectovOS.Gdb
