/-
This file proves that while no poll gives up, a device has at most the one chain of the
request that is polled for: what the device has moved of it agrees with the bounce buffer, and
the completion that the poll takes is its own, so reads and writes that return 0 are right.
-/

import MectovOS.Virtio.Blk

namespace MectovOS.Virtio

open Virtqueue Transition Function

variable {Data : Type} {bus next : Bus Data} {blk changed : Blk Data} {bounce : Nat → Data}
  {phase : Phase Work} {call : Call Data}

/-! ### What a device reads -/

/-- What a device reads does not depend on the rings, on the status or on the medium. -/
theorem command_same (queue : Queue Work) (size : queue.size = blk.queue.size) (status : Nat)
    (medium : Nat → Data) :
    Blk.command { blk with queue := queue, status := status, medium := medium } 0 =
      blk.command 0 := by
  rw [Blk.command, Blk.command, size]

/-- What a device makes of the chain of `vblk_chunk`. -/
theorem vblkChunk_command (size : 3 ≤ blk.queue.size) (isWrite : Bool) (sector nsec : Nat) :
    (blk.vblkChunk isWrite sector nsec).command 0 =
      ⟨if isWrite then vblkOut else vblkIn, sector, nsec, !isWrite⟩ := by
  obtain ⟨fuel, is⟩ := Nat.exists_eq_add_of_le' size
  have chain : dataOf (chainFrom (blk.vblkChunk isWrite sector nsec).desc blk.queue.size 0) =
      [⟨.bounce, nsec * 512, descNext ||| (if isWrite then 0 else descWrite), 2⟩] := by
    rw [is]
    cases isWrite <;> simp [chainFrom, dataOf, Blk.vblkChunk, descNext, descWrite]
  show Command.mk _ _ _ _ = _
  have queue : (blk.vblkChunk isWrite sector nsec).queue.size = blk.queue.size := rfl
  rw [queue, chain]
  cases isWrite <;> simp [Blk.vblkChunk, descNext, descWrite]

/-- What a device makes of the chain of `vblk_flush`. -/
theorem vblkFlush_command (size : 3 ≤ blk.queue.size) :
    blk.vblkFlush.command 0 = ⟨vblkTFlush, 0, 0, true⟩ := by
  obtain ⟨fuel, is⟩ := Nat.exists_eq_add_of_le' size
  have chain : dataOf (chainFrom blk.vblkFlush.desc blk.queue.size 0) = [] := by
    rw [is]
    simp [chainFrom, dataOf, Blk.vblkFlush, descNext, descWrite]
  show Command.mk _ _ _ _ = _
  have queue : blk.vblkFlush.queue.size = blk.queue.size := rfl
  rw [queue, chain]
  rfl

/-! ### Steps of a device -/

/-- Every chain is at head 0, and a device that has read one has read what the memory says. -/
def Blk.Reads (blk : Blk Data) : Phase Work → Prop
  | .idle => True
  | .available entry | .answered entry => entry.head = 0
  | .taken entry work => entry.head = 0 ∧
      ∀ command, work.command = some command → command = blk.command 0

/-- A sector of the request is the same on the medium and in the bounce buffer. -/
def Blk.Served (blk : Blk Data) (bounce : Nat → Data) (sector : Nat) : Prop :=
  blk.medium ((blk.command 0).sector + sector) = bounce sector

/-- What is known of the chain that a call polls for: the sectors that were moved are the same on
both sides, and a status of `VBLK_S_OK` stands behind all of them. -/
def Blk.Serving (blk : Blk Data) (bounce : Nat → Data) : Phase Work → Prop
  | .idle => False
  | .available _ => True
  | .taken _ work =>
    (∀ sector < (blk.command 0).sectors, work.moved sector = true → blk.Served bounce sector) ∧
      ∀ status, work.result = some status → blk.status = status ∧ (status = vblkOk →
        ∀ sector < (blk.command 0).sectors, work.moved sector = true)
  | .answered _ => blk.status = vblkOk →
      ∀ sector < (blk.command 0).sectors, blk.Served bounce sector

/-- A step of a device leaves all but its own chain as it was. -/
structure DeviceStep (blk : Blk Data) (bounce : Nat → Data) (phase : Phase Work)
    (changed : Blk Data) (moved : Nat → Data) (later : Phase Work) : Prop where
  single : changed.queue.Single later
  reads : changed.Reads later
  size : changed.queue.size = blk.queue.size
  command : changed.command 0 = blk.command 0
  flushOk : changed.flushOk = blk.flushOk
  gaveUp : changed.gaveUp = blk.gaveUp
  pending : phase.pending = true
  entry : later.entry = phase.entry
  serving : blk.Serving bounce phase → changed.Serving moved later
  bounce : (blk.command 0).type ≠ vblkIn → moved = bounce
  medium : ∀ lba, (lba < (blk.command 0).sector ∨ (blk.command 0).sectors = 0) →
    changed.medium lba = blk.medium lba

/-- The device takes the chain. -/
theorem DeviceStep.take (single : blk.queue.Single phase) (reads : blk.Reads phase)
    {queue : Queue Work} (took : blk.queue.take ⟨none, fun _ => false, none⟩ = some queue) :
    ∃ later, DeviceStep blk bounce phase { blk with queue := queue } bounce later := by
  obtain ⟨entry, rfl, later⟩ := single.take took
  have size := Queue.take_size took
  refine ⟨_, later, ⟨reads, fun command is => ?_⟩, size, command_same queue size _ _, rfl, rfl,
    rfl, rfl, fun _ => ⟨fun _ _ moved => ?_, fun status is => ?_⟩, fun _ => rfl, fun _ _ => rfl⟩
  · exact absurd is (Option.some_ne_none command).symm
  · exact absurd moved Bool.false_ne_true
  · exact absurd is (Option.some_ne_none status).symm

/-- The device reads the chain. -/
theorem DeviceStep.load (single : blk.queue.Single phase) (reads : blk.Reads phase) {index : Nat}
    {queue : Queue Work} (went : blk.queue.work index blk.load = some queue) :
    ∃ later, DeviceStep blk bounce phase { blk with queue := queue } bounce later := by
  obtain ⟨entry, before, after, rfl, -, goes, later⟩ := single.work went
  have size := Queue.work_size went
  have same : Blk.command { blk with queue := queue } 0 = blk.command 0 :=
    command_same queue size _ _
  obtain ⟨-, equal⟩ := Option.ite_none_right_eq_some.mp goes
  obtain rfl := Option.some.inj equal
  refine ⟨_, later, ⟨reads.1, fun command is => ?_⟩, size, same, rfl, rfl, rfl, rfl,
    fun serving => ⟨fun sector below moved => ?_, fun status is => ?_⟩, fun _ => rfl,
    fun _ _ => rfl⟩
  · rw [same, ← Option.some.inj is, reads.1]
  · rw [same] at below
    show blk.medium (_ + sector) = _
    rw [same]
    exact serving.1 sector below moved
  · rw [same]
    exact serving.2 status is

/-- The device has a result. -/
theorem DeviceStep.settle (single : blk.queue.Single phase) (reads : blk.Reads phase)
    {index status : Nat} {queue : Queue Work}
    (went : blk.queue.work index (Work.settle status) = some queue) :
    ∃ later, DeviceStep blk bounce phase { blk with queue := queue, status := status } bounce
      later := by
  obtain ⟨entry, before, after, rfl, -, goes, later⟩ := single.work went
  have size := Queue.work_size went
  have same : Blk.command { blk with queue := queue, status := status } 0 = blk.command 0 :=
    command_same queue size _ _
  obtain ⟨⟨-, full⟩, equal⟩ := Option.ite_none_right_eq_some.mp goes
  obtain rfl := Option.some.inj equal
  refine ⟨_, later, ⟨reads.1, fun command is => ?_⟩, size, same, rfl, rfl, rfl, rfl,
    fun serving => ⟨fun sector below moved => ?_, fun status is => ?_⟩, fun _ => rfl,
    fun _ _ => rfl⟩
  · rw [same]
    exact reads.2 command is
  · rw [same] at below
    show blk.medium (_ + sector) = _
    rw [same]
    exact serving.1 sector below moved
  · obtain rfl := Option.some.inj is
    refine ⟨rfl, fun good sector below => ?_⟩
    rw [same] at below
    obtain ⟨command, loaded, moved⟩ := (Option.any_eq_true ..).mp (full good)
    rw [reads.2 command loaded] at moved
    exact List.all_eq_true.mp moved sector (List.mem_range.mpr below)

/-- The device completes the chain. -/
theorem DeviceStep.push (single : blk.queue.Single phase) (reads : blk.Reads phase)
    {queue : Queue Work} (pushed : blk.queue.push (fun work => work.result.isSome) = some queue) :
    ∃ later, DeviceStep blk bounce phase { blk with queue := queue } bounce later := by
  obtain ⟨entry, work, rfl, done, later⟩ := single.push pushed
  have size := Queue.push_size pushed
  have same : Blk.command { blk with queue := queue } 0 = blk.command 0 :=
    command_same queue size _ _
  obtain ⟨status, result⟩ := Option.isSome_iff_exists.mp done
  refine ⟨_, later, reads.1, size, same, rfl, rfl, rfl, rfl, fun serving good sector below => ?_,
    fun _ => rfl, fun _ _ => rfl⟩
  rw [same] at below
  show blk.medium (_ + sector) = _
  rw [same]
  obtain ⟨is, all⟩ := serving.2 status result
  exact serving.1 sector below (all (is.symm.trans good) sector below)

/-- The device moves a sector. -/
theorem DeviceStep.move {device index sector : Nat}
    (single : (bus.devices device).queue.Single phase) (reads : (bus.devices device).Reads phase)
    (step : bus.move device index sector = some next) :
    ∃ changed moved later,
      DeviceStep (bus.devices device) bus.bounce phase changed moved later ∧
        next = { bus.setDevice device changed with bounce := moved } := by
  obtain ⟨command, loaded, step⟩ := Option.bind_eq_some_iff.mp step
  obtain ⟨queue, went, step⟩ := Option.bind_eq_some_iff.mp step
  obtain ⟨entry, before, after, rfl, found, goes, later⟩ := single.work went
  have size := Queue.work_size went
  rw [found] at loaded
  obtain rfl := reads.2 command loaded
  obtain ⟨running, equal⟩ := Option.ite_none_right_eq_some.mp goes
  obtain rfl := Option.some.inj equal
  obtain ⟨below, step⟩ := Option.ite_none_left_eq_some.mp step
  have moves {changed : Blk Data} {moved : Nat → Data}
      (same : changed.command 0 = (bus.devices device).command 0)
      (here : changed.Served moved sector)
      (others : ∀ other, other ≠ sector → (bus.devices device).Served bus.bounce other →
        changed.Served moved other)
      (serving : (bus.devices device).Serving bus.bounce (.taken entry before)) :
      changed.Serving moved
        (.taken entry { before with moved := update before.moved sector true }) := by
    refine ⟨fun other less is => ?_, fun status is => ?_⟩
    · by_cases mine : other = sector
      · rw [mine]
        exact here
      · rw [same] at less
        refine others other mine (serving.1 other less ?_)
        exact (update_of_ne mine ..).symm.trans is
    · exact absurd (running.symm.trans is) (Option.some_ne_none status).symm
  split at step
  · next reading =>
    obtain rfl := Option.some.inj step
    have same : Blk.command { bus.devices device with queue := queue } 0 =
        (bus.devices device).command 0 := command_same queue size _ _
    refine ⟨_, _, .taken entry { before with moved := update before.moved sector true },
      ?_, rfl⟩
    refine ⟨later, ⟨reads.1, fun command is => ?_⟩, size, same, rfl, rfl, rfl, rfl,
      moves same ?_ fun other mine served => ?_, fun writes => absurd reading.1 writes,
      fun _ _ => rfl⟩
    · rw [same]
      exact reads.2 command is
    · show (bus.devices device).medium (_ + sector) = _
      rw [same, update_self]
    · show (bus.devices device).medium (_ + other) = _
      rw [same, update_of_ne mine]
      exact served
  · obtain ⟨writing, step⟩ := Option.ite_none_right_eq_some.mp step
    obtain rfl := Option.some.inj step
    have same : Blk.command { bus.devices device with
        queue := queue
        medium := update (bus.devices device).medium
          (((bus.devices device).command 0).sector + sector) (bus.bounce sector) } 0 =
        (bus.devices device).command 0 := command_same queue size _ _
    refine ⟨_, _, .taken entry { before with moved := update before.moved sector true },
      ?_, rfl⟩
    refine ⟨later, ⟨reads.1, fun command is => ?_⟩, size, same, rfl, rfl, rfl, rfl,
      moves same ?_ fun other mine served => ?_, fun _ => rfl, fun lba outside => ?_⟩
    · rw [same]
      exact reads.2 command is
    · show update _ _ _ (_ + sector) = _
      rw [same, update_self]
    · show update _ _ _ (_ + other) = _
      rw [same, update_of_ne (by omega)]
      exact served
    · exact update_of_ne (by omega) ..

/-- The device of an event of a device. -/
def Event.device? : Event Data → Option Nat
  | .take device | .load device _ | .move device _ _ | .settle device _ _ | .push device =>
    some device
  | _ => none

/-- Every event of a device is a step of that device. -/
theorem DeviceStep.of_step {event : Event Data} {device : Nat}
    (mine : event.device? = some device) (single : (bus.devices device).queue.Single phase)
    (reads : (bus.devices device).Reads phase) (step : bus.step event = some next) :
    ∃ changed moved later,
      DeviceStep (bus.devices device) bus.bounce phase changed moved later ∧
        next = { bus.setDevice device changed with bounce := moved } := by
  cases event with
  | call device isWrite lba count buf => cases mine
  | prepare => cases mine
  | post => cases mine
  | poll => cases mine
  | giveUp => cases mine
  | advance => cases mine
  | ret => cases mine
  | take device =>
    obtain rfl := Option.some.inj mine
    obtain ⟨queue, took, rfl⟩ := Option.map_eq_some_iff.mp step
    obtain ⟨later, steps⟩ := DeviceStep.take single reads took
    exact ⟨_, _, later, steps, rfl⟩
  | load device index =>
    obtain rfl := Option.some.inj mine
    obtain ⟨queue, went, rfl⟩ := Option.map_eq_some_iff.mp step
    obtain ⟨later, steps⟩ := DeviceStep.load single reads went
    exact ⟨_, _, later, steps, rfl⟩
  | move device index sector =>
    obtain rfl := Option.some.inj mine
    exact DeviceStep.move single reads step
  | settle device index status =>
    obtain rfl := Option.some.inj mine
    obtain ⟨queue, went, rfl⟩ := Option.map_eq_some_iff.mp step
    obtain ⟨later, steps⟩ := DeviceStep.settle single reads went
    exact ⟨_, _, later, steps, rfl⟩
  | push device =>
    obtain rfl := Option.some.inj mine
    obtain ⟨queue, pushed, rfl⟩ := Option.map_eq_some_iff.mp step
    obtain ⟨later, steps⟩ := DeviceStep.push single reads pushed
    exact ⟨_, _, later, steps, rfl⟩

/-! ### The call that has the lock -/

/-- The request of a call is in memory, and so are the data of a write. -/
structure Call.Prepared (call : Call Data) (blk : Blk Data) (bounce : Nat → Data) : Prop where
  command : blk.command 0 = if call.flushing then ⟨vblkTFlush, 0, 0, true⟩
    else ⟨if call.isWrite then vblkOut else vblkIn, call.sec, call.nsec, !call.isWrite⟩
  data : call.isWrite = true → call.flushing = false →
    ∀ sector < call.nsec, call.buf (call.done + sector) = some (bounce sector)

/-- What a call knows at its stage, as long as none of its requests has failed. -/
def Call.Here (call : Call Data) (blk : Blk Data) (bounce : Nat → Data) (phase : Phase Work) :
    Prop :=
  match call.stage with
  | .prepare => phase = .idle
  | .post => phase = .idle ∧ call.Prepared blk bounce
  | .poll => (∃ entry, phase.entry = some entry ∧ entry.ticket = call.ticket) ∧
      blk.Serving bounce phase ∧ call.Prepared blk bounce
  | .advance => phase = .idle ∧ call.flushing = false ∧ ∀ sector < call.nsec,
      blk.medium (call.sec + sector) = bounce sector ∧
        (call.isWrite = true → call.buf (call.done + sector) = some (bounce sector))
  | .ret => phase = .idle ∧ call.done = call.count

/-- The sectors that are done are the same in the caller's buffer and on the medium. -/
structure Call.Ok (call : Call Data) (blk : Blk Data) (bounce : Nat → Data)
    (phase : Phase Work) : Prop where
  device : call.device < virtioBlkMax
  written : call.isWrite = true → ∀ sector, (call.buf sector).isSome = true
  failed : call.ok = false → call.stage = .ret
  flushed : call.flushing = true → call.done = call.count
  unflushed : call.flushing = false → call.stage ≠ .ret → call.done < call.count
  progress : call.ok = true →
    ∀ sector < call.done, call.buf sector = some (blk.medium (call.lba + sector))
  here : call.ok = true → call.Here blk bounce phase

/-- A step of the device of a call. -/
theorem Call.Ok.device_step {moved : Nat → Data} {later : Phase Work}
    (ok : call.Ok blk bounce phase) (steps : DeviceStep blk bounce phase changed moved later) :
    call.Ok changed moved later := by
  obtain ⟨device, written, failed, flushed, unflushed, progress, here⟩ := ok
  have busy : phase ≠ .idle := by
    rintro rfl
    exact absurd steps.pending Bool.false_ne_true
  cases good : call.ok with
  | false => exact ⟨device, written, failed, flushed, unflushed,
      fun is => absurd (good.symm.trans is) Bool.false_ne_true,
      fun is => absurd (good.symm.trans is) Bool.false_ne_true⟩
  | true =>
    have now := here good
    have progress := progress good
    rw [Call.Here] at now
    have polls : call.stage = .poll := by
      split at now
      · exact absurd now busy
      · exact absurd now.1 busy
      · next stage => exact stage
      · exact absurd now.1 busy
      · exact absurd now.1 busy
    rw [polls] at now
    obtain ⟨ticket, serving, command, data⟩ := now
    have writes : call.isWrite = true → call.flushing = false → moved = bounce := by
      intro writing chunk
      refine steps.bounce ?_
      rw [command, chunk, writing]
      show vblkOut ≠ vblkIn
      decide
    have kept : ∀ sector < call.done, changed.medium (call.lba + sector) =
        blk.medium (call.lba + sector) := by
      intro sector below
      refine steps.medium _ ?_
      rw [command]
      cases call.flushing with
      | true => exact Or.inr rfl
      | false => exact Or.inl (Nat.add_lt_add_left below _)
    refine ⟨device, written, failed, flushed, unflushed,
      fun _ sector below => (progress sector below).trans (congrArg some (kept sector below).symm),
      fun _ => ?_⟩
    rw [Call.Here, polls]
    refine ⟨steps.entry ▸ ticket, steps.serving serving, steps.command.trans command,
      fun writing chunk => ?_⟩
    rw [writes writing chunk]
    exact data writing chunk

/-! ### The invariant -/

/-- Does the call that has the lock poll for a chain of a device? -/
def Bus.PollsOn (bus : Bus Data) (device : Nat) : Prop :=
  ∃ call, bus.call = some call ∧ call.stage = .poll ∧ call.device = device

/-- Each device is in a phase of its one chain, idle unless the call polls on it or has given up;
a chain of another device that may still be answered is a flush. -/
structure BusInv (bus : Bus Data) (phases : Nat → Phase Work) : Prop where
  size : ∀ device, 3 ≤ (bus.devices device).queue.size
  single : ∀ device, (bus.devices device).queue.Single (phases device)
  reads : ∀ device, (bus.devices device).Reads (phases device)
  idle : ∀ device, (bus.devices device).gaveUp = false → ¬ bus.PollsOn device →
    phases device = .idle
  few : ∀ device, (bus.devices device).gaveUp = true → device < virtioBlkMax
  call : ∀ call, bus.call = some call →
    call.Ok (bus.devices call.device) bus.bounce (phases call.device)
  others : ∀ call, bus.call = some call → ∀ device, device ≠ call.device →
    (phases device).pending = true → ((bus.devices device).command 0).type = vblkTFlush
  matched : bus.Matched

variable {phases : Nat → Phase Work}

/-- A step of a device keeps the invariant. -/
theorem BusInv.device_step (inv : BusInv bus phases) {device : Nat} {moved : Nat → Data}
    {later : Phase Work}
    (steps : DeviceStep (bus.devices device) bus.bounce (phases device) changed moved later) :
    BusInv { bus.setDevice device changed with bounce := moved }
      (update phases device later) := by
  have here {Value : Type} (keys : Nat → Value) (value : Value) :
      update keys device value device = value := update_self ..
  have there {Value : Type} (keys : Nat → Value) (value : Value) {other : Nat}
      (differs : other ≠ device) : update keys device value other = keys other :=
    update_of_ne differs ..
  refine ⟨fun other => ?_, fun other => ?_, fun other => ?_, fun other gave polls => ?_,
    fun other gave => ?_, fun call is => ?_, fun call is other differs pending => ?_,
    inv.matched⟩
  · show 3 ≤ (update bus.devices device changed other).queue.size
    by_cases same : other = device
    · rw [same, here, steps.size]
      exact inv.size device
    · rw [there _ _ same]
      exact inv.size other
  · show (update bus.devices device changed other).queue.Single _
    by_cases same : other = device
    · rw [same, here, here]
      exact steps.single
    · rw [there _ _ same, there _ _ same]
      exact inv.single other
  · show (update bus.devices device changed other).Reads _
    by_cases same : other = device
    · rw [same, here, here]
      exact steps.reads
    · rw [there _ _ same, there _ _ same]
      exact inv.reads other
  · have gave : (update bus.devices device changed other).gaveUp = false := gave
    by_cases same : other = device
    · rw [same, here, steps.gaveUp] at gave
      rw [same] at polls
      have pending := steps.pending
      rw [inv.idle device gave polls] at pending
      exact absurd pending Bool.false_ne_true
    · rw [there _ _ same] at gave
      rw [there _ _ same]
      exact inv.idle other gave polls
  · have gave : (update bus.devices device changed other).gaveUp = true := gave
    by_cases same : other = device
    · rw [same, here, steps.gaveUp] at gave
      exact same ▸ inv.few device gave
    · rw [there _ _ same] at gave
      exact inv.few other gave
  · show call.Ok (update bus.devices device changed call.device) moved _
    have ok := inv.call call is
    by_cases same : call.device = device
    · rw [same, here, here]
      rw [same] at ok
      exact ok.device_step steps
    · have bounce : moved = bus.bounce := by
        refine steps.bounce ?_
        rw [inv.others call is device (Ne.symm same) steps.pending]
        decide
      rw [there _ _ same, there _ _ same, bounce]
      exact ok
  · show ((update bus.devices device changed other).command 0).type = _
    by_cases same : other = device
    · rw [same, here, steps.command]
      exact inv.others call is device (same ▸ differs) steps.pending
    · rw [there _ _ same]
      rw [there _ _ same] at pending
      exact inv.others call is other differs pending

/-- A step of the call keeps the invariant, when it leaves the device of the call in a phase that
is known. -/
theorem BusInv.drive (inv : BusInv bus phases) (is : bus.call = some call)
    {after : Call Data} {later : Phase Work}
    (devices : next.devices = update bus.devices call.device changed)
    (nextCall : next.call = some after) (device : after.device = call.device)
    (size : changed.queue.size = (bus.devices call.device).queue.size)
    (single : changed.queue.Single later) (reads : changed.Reads later)
    (idle : changed.gaveUp = false → after.stage ≠ .poll → later = .idle)
    (ok : after.Ok changed next.bounce later) (matched : next.Matched) :
    BusInv next (update phases call.device later) := by
  have here {Value : Type} (keys : Nat → Value) (value : Value) :
      update keys call.device value call.device = value := update_self ..
  have there {Value : Type} (keys : Nat → Value) (value : Value) {other : Nat}
      (differs : other ≠ call.device) :
      update keys call.device value other = keys other :=
    update_of_ne differs ..
  refine ⟨fun other => ?_, fun other => ?_, fun other => ?_, fun other gave polls => ?_,
    fun other gave => ?_, fun found is' => ?_, fun found is' other differs pending => ?_,
    matched⟩
  · rw [devices]
    by_cases same : other = call.device
    · rw [same, here, size]
      exact inv.size call.device
    · rw [there _ _ same]
      exact inv.size other
  · rw [devices]
    by_cases same : other = call.device
    · rw [same, here, here]
      exact single
    · rw [there _ _ same, there _ _ same]
      exact inv.single other
  · rw [devices]
    by_cases same : other = call.device
    · rw [same, here, here]
      exact reads
    · rw [there _ _ same, there _ _ same]
      exact inv.reads other
  · rw [devices] at gave
    by_cases same : other = call.device
    · rw [same, here] at gave
      rw [same, here]
      exact idle gave fun stage => polls ⟨after, nextCall, stage, device.trans same.symm⟩
    · rw [there _ _ same] at gave
      rw [there _ _ same]
      refine inv.idle other gave fun ⟨found, is', _, mine⟩ => same ?_
      rw [← mine, ← Option.some.inj (is.symm.trans is')]
  · rw [devices] at gave
    by_cases same : other = call.device
    · rw [same, ← device]
      exact ok.device
    · rw [there _ _ same] at gave
      exact inv.few other gave
  · obtain rfl := Option.some.inj (nextCall.symm.trans is')
    rw [devices, device, here, here]
    exact ok
  · obtain rfl := Option.some.inj (nextCall.symm.trans is')
    rw [device] at differs
    rw [there _ _ differs] at pending
    rw [devices, there _ _ differs]
    exact inv.others call is other differs pending

/-! ### Steps of the call -/

theorem callAt_some {stage : Stage} (found : bus.callAt stage = some call) :
    bus.call = some call ∧ call.stage = stage := by
  obtain ⟨held, is, found⟩ := Option.bind_eq_some_iff.mp found
  obtain ⟨at_, equal⟩ := Option.ite_none_right_eq_some.mp found
  obtain rfl := Option.some.inj equal
  exact ⟨is, at_⟩

/-- Only a call in front of its return can have failed. -/
theorem Call.Ok.good (ok : call.Ok blk bounce phase) (going : call.stage ≠ .ret) :
    call.ok = true := by
  by_contra bad
  exact going (ok.failed (Bool.eq_false_of_not_eq_true bad))

theorem Call.Ok.at_ (ok : call.Ok blk bounce phase) {stage : Stage} (is : call.stage = stage)
    (going : stage ≠ .ret) : call.ok = true ∧ call.Here blk bounce phase :=
  ⟨ok.good (is.symm ▸ going), ok.here (ok.good (is.symm ▸ going))⟩

/-- The request of the call is written down. -/
theorem BusInv.prepare (inv : BusInv bus phases) (is : bus.call = some call)
    (stage : call.stage = .prepare) :
    BusInv (bus.prepare call) (update phases call.device .idle) := by
  have ok := inv.call call is
  obtain ⟨good, here⟩ := ok.at_ stage Stage.noConfusion
  rw [Call.Here, stage] at here
  have single := inv.single call.device
  rw [here] at single
  show BusInv (if call.flushing = true then _ else _) _
  split
  · next flushing =>
    refine inv.drive is rfl rfl rfl rfl single trivial (fun _ _ => rfl) ?_ inv.matched
    refine ⟨ok.device, ok.written, fun bad => absurd (good.symm.trans bad) Bool.noConfusion,
      ok.flushed, fun chunk => absurd (flushing.symm.trans chunk) Bool.noConfusion,
      fun _ => ok.progress good, fun _ => ⟨rfl, ?_, fun _ chunk => ?_⟩⟩
    · rw [vblkFlush_command (inv.size call.device)]
      exact (if_pos flushing).symm
    · exact absurd (flushing.symm.trans chunk) Bool.noConfusion
  · next flushing =>
    refine inv.drive is rfl rfl rfl rfl single trivial (fun _ _ => rfl) ?_ inv.matched
    refine ⟨ok.device, ok.written, fun bad => absurd (good.symm.trans bad) Bool.noConfusion,
      ok.flushed, fun chunk _ => ok.unflushed chunk (stage ▸ Stage.noConfusion),
      fun _ => ok.progress good, fun _ => ⟨rfl, ?_, fun writing _ sector below => ?_⟩⟩
    · rw [vblkChunk_command (inv.size call.device)]
      exact (if_neg flushing).symm
    · show _ = some (if call.isWrite && decide (sector < call.nsec) then _ else _)
      obtain ⟨data, held⟩ := Option.isSome_iff_exists.mp
        (ok.written writing (call.done + sector))
      have held : call.buf (call.done + sector) = some data := held
      have below : sector < call.nsec := below
      rw [writing, decide_eq_true below, held]
      rfl

/-- The request of the call is made available. -/
theorem BusInv.post (inv : BusInv bus phases) (is : bus.call = some call)
    (stage : call.stage = .post) :
    BusInv (bus.post call)
      (update phases call.device (.available ⟨0, bus.tickets⟩)) := by
  have ok := inv.call call is
  obtain ⟨good, here⟩ := ok.at_ stage Stage.noConfusion
  rw [Call.Here, stage] at here
  obtain ⟨idle, prepared⟩ := here
  have single := inv.single call.device
  rw [idle] at single
  have posted := single.post ⟨0, bus.tickets⟩
  refine inv.drive is rfl rfl rfl rfl posted rfl (fun _ polls => absurd rfl polls) ?_ inv.matched
  refine ⟨ok.device, ok.written, fun bad => absurd (good.symm.trans bad) Bool.noConfusion,
    ok.flushed, fun chunk _ => ok.unflushed chunk (stage ▸ Stage.noConfusion),
    fun _ => ok.progress good, fun _ => ⟨⟨_, rfl, rfl⟩, trivial, ?_, prepared.data⟩⟩
  exact (command_same _ rfl _ _).trans prepared.command

/-- The poll of the call gives up. -/
theorem BusInv.giveUp (inv : BusInv bus phases) (is : bus.call = some call) :
    BusInv (bus.giveUp call) (update phases call.device (phases call.device)) := by
  have ok := inv.call call is
  refine inv.drive is rfl rfl rfl rfl (inv.single call.device) ?_
    (fun kept => absurd kept.symm Bool.noConfusion) ?_ inv.matched
  · have reads := inv.reads call.device
    cases phase : phases call.device with
    | idle => trivial
    | available entry => rw [phase] at reads; exact reads
    | answered entry => rw [phase] at reads; exact reads
    | taken entry work => rw [phase] at reads; exact reads
  · exact ⟨ok.device, ok.written, fun _ => rfl, ok.flushed, fun _ going => absurd rfl going,
      fun good => absurd good Bool.noConfusion, fun good => absurd good Bool.noConfusion⟩

/-- The poll of the call takes the completion of its own request. -/
theorem BusInv.poll (inv : BusInv bus phases) (is : bus.call = some call)
    (stage : call.stage = .poll) (step : bus.poll call = some next) :
    ∃ phases, BusInv next phases := by
  have ok := inv.call call is
  obtain ⟨good, here⟩ := ok.at_ stage Stage.noConfusion
  rw [Call.Here, stage] at here
  obtain ⟨⟨entry, at_, ticket⟩, serving, prepared⟩ := here
  obtain ⟨answered, step⟩ := Option.ite_none_right_eq_some.mp step
  have single := inv.single call.device
  have phase := single.current answered
  rw [phase] at single serving at_
  have own := Option.some.inj at_
  split at step
  · obtain rfl := Option.some.inj step
    exact ⟨_, inv.giveUp is⟩
  · obtain rfl := Option.some.inj step
    refine ⟨_, inv.drive is rfl rfl rfl rfl single.consume trivial (fun _ _ => rfl) ?_
      ⟨fun pair member => ?_, inv.matched.2⟩⟩
    · refine ⟨ok.device, ok.written, fun bad => ?_, ok.flushed, fun chunk _ => ?_,
        fun _ => ok.progress good, fun fine => ?_⟩
      · have bad : decide ((bus.devices call.device).status = vblkOk) = false := bad
        show (if decide ((bus.devices call.device).status = vblkOk) && !call.flushing then
          Stage.advance else Stage.ret) = Stage.ret
        rw [bad]
        rfl
      · exact ok.unflushed chunk (stage ▸ Stage.noConfusion)
      · have fine : decide ((bus.devices call.device).status = vblkOk) = true := fine
        have served := serving (of_decide_eq_true fine)
        rw [Call.Here]
        show match (if decide ((bus.devices call.device).status = vblkOk) && !call.flushing then
          Stage.advance else Stage.ret) with
          | .prepare => _ | .post => _ | .poll => _ | .advance => _ | .ret => _
        rw [fine]
        rcases Bool.eq_false_or_eq_true call.flushing with flushing | flushing
        · rw [flushing]
          exact ⟨rfl, ok.flushed flushing⟩
        · rw [flushing]
          refine ⟨rfl, rfl, fun sector below => ⟨?_, fun writing => ?_⟩⟩
          · have at_ := served sector
            rw [Blk.Served, prepared.command, flushing] at at_
            exact at_ below
          · exact prepared.data writing flushing sector below
    · rcases List.mem_append.mp member with before | now
      · exact inv.matched.1 pair before
      · obtain rfl := List.mem_singleton.mp now
        exact (congrArg Entry.ticket own).trans ticket

/-- The sectors of a chunk that was answered are done. -/
theorem Call.Ok.advanced (ok : call.Ok blk bounce phase) (stage : call.stage = .advance)
    (sector : Nat) (below : sector < call.done + call.nsec) :
    (if !call.isWrite && decide (call.done ≤ sector) && sector < call.done + call.nsec then
        some (bounce (sector - call.done))
      else call.buf sector) = some (blk.medium (call.lba + sector)) := by
  obtain ⟨good, here⟩ := ok.at_ stage Stage.noConfusion
  rw [Call.Here, stage] at here
  obtain ⟨-, -, served⟩ := here
  by_cases old : sector < call.done
  · rw [decide_eq_false (Nat.not_le.mpr old), Bool.and_false, Bool.false_and]
    exact ok.progress good sector old
  · obtain ⟨offset, rfl⟩ := Nat.exists_eq_add_of_le (Nat.not_lt.mp old)
    obtain ⟨same, data⟩ := served offset (Nat.lt_of_add_lt_add_left below)
    have same : blk.medium (call.lba + (call.done + offset)) = bounce offset := by
      rw [← Nat.add_assoc]
      exact same
    rw [decide_eq_true (Nat.le_add_right ..), decide_eq_true below, Nat.add_sub_cancel_left,
      Bool.and_true, Bool.and_true, same]
    cases writing : call.isWrite with
    | true => exact data writing
    | false => rfl

/-- The call goes on behind a chunk. -/
theorem BusInv.advance (inv : BusInv bus phases) (is : bus.call = some call)
    (stage : call.stage = .advance) :
    BusInv (bus.advance call) (update phases call.device .idle) := by
  have ok := inv.call call is
  obtain ⟨good, here⟩ := ok.at_ stage Stage.noConfusion
  rw [Call.Here, stage] at here
  obtain ⟨idle, unflushed, -⟩ := here
  have single := inv.single call.device
  rw [idle] at single
  have within : call.done + call.nsec ≤ call.count := by
    have := ok.unflushed unflushed (stage ▸ Stage.noConfusion)
    rw [Call.nsec]
    omega
  have done := ok.advanced stage
  have written : call.isWrite = true → ∀ sector, ((if !call.isWrite && decide (call.done ≤ sector)
      && sector < call.done + call.nsec then some (bus.bounce (sector - call.done))
      else call.buf sector)).isSome = true := by
    intro writing sector
    rw [writing]
    exact ok.written writing sector
  have devices : bus.devices =
      update bus.devices call.device (bus.devices call.device) :=
    (update_eq_self ..).symm
  show BusInv (bus.setCall (if call.done + call.nsec < call.count then _
    else if (call.isWrite && (bus.devices call.device).flushOk) = true then _ else _)) _
  split
  · next more =>
    refine inv.drive is devices rfl rfl rfl single trivial (fun _ _ => rfl) ?_ inv.matched
    exact ⟨ok.device, written, fun bad => absurd (good.symm.trans bad) Bool.noConfusion,
      fun chunk => absurd (unflushed.symm.trans chunk) Bool.noConfusion, fun _ _ => more,
      fun _ => done, fun _ => rfl⟩
  · next last =>
    have all : call.done + call.nsec = call.count := by omega
    split
    · refine inv.drive is devices rfl rfl rfl single trivial (fun _ _ => rfl) ?_ inv.matched
      exact ⟨ok.device, written, fun bad => absurd (good.symm.trans bad) Bool.noConfusion,
        fun _ => all, fun chunk => absurd chunk.symm Bool.noConfusion, fun _ => done,
        fun _ => rfl⟩
    · refine inv.drive is devices rfl rfl rfl single trivial (fun _ _ => rfl) ?_ inv.matched
      exact ⟨ok.device, written, fun _ => rfl,
        fun chunk => absurd (unflushed.symm.trans chunk) Bool.noConfusion,
        fun _ going => absurd rfl going, fun _ => done, fun _ => ⟨rfl, all⟩⟩

/-- The call returns. -/
theorem BusInv.ret (inv : BusInv bus phases) (is : bus.call = some call)
    (stage : call.stage = .ret) : BusInv (bus.ret call) phases := by
  have ok := inv.call call is
  refine ⟨inv.size, inv.single, inv.reads, fun device gave _ => ?_, inv.few,
    fun _ is => absurd is.symm (Option.some_ne_none _), fun _ is => absurd is.symm
    (Option.some_ne_none _), inv.matched.1, fun answer member => ?_⟩
  · refine inv.idle device gave fun ⟨found, is', polls, _⟩ => ?_
    obtain rfl := Option.some.inj (is.symm.trans is')
    exact absurd (stage.symm.trans polls) Stage.noConfusion
  · rcases List.mem_append.mp member with before | now
    · exact inv.matched.2 answer before
    · split at now
      · next good =>
        obtain ⟨sector, below, rfl⟩ := List.mem_map.mp now
        have here := ok.here good
        rw [Call.Here, stage] at here
        refine ok.progress good sector ?_
        rw [here.2]
        exact List.mem_range.mp below
      · exact absurd now List.not_mem_nil

/-- A call takes the lock when the queue of its device has never been given up on. -/
theorem BusInv.enter (inv : BusInv bus phases) {device lba count : Nat} {isWrite : Bool}
    {buf : Nat → Data} (inTime : Event.inTime bus (.call device isWrite lba count buf) = true)
    (step : bus.enter device isWrite lba count buf = some next) : BusInv next phases := by
  obtain ⟨⟨free, below, -, some_⟩, equal⟩ := Option.ite_none_right_eq_some.mp step
  obtain rfl := Option.some.inj equal
  obtain ⟨kept, quiet⟩ := Bool.and_eq_true_iff.mp inTime
  have none : bus.call = none := Option.isNone_iff_eq_none.mp free
  have unpolled (other : Nat) : ¬ bus.PollsOn other := by
    rintro ⟨call, is, -⟩
    exact absurd (none.symm.trans is).symm (Option.some_ne_none call)
  have idle := inv.idle device (Bool.not_eq_true' _ |>.mp kept) (unpolled device)
  refine ⟨inv.size, inv.single, inv.reads, fun other gave _ => inv.idle other gave (unpolled other),
    inv.few, fun call is => ?_, fun call is other differs pending => ?_, inv.matched⟩
  · obtain rfl := Option.some.inj is
    refine ⟨below, fun writing sector => ?_, fun bad => absurd bad.symm Bool.noConfusion,
      fun chunk => absurd chunk Bool.noConfusion, fun _ _ => some_,
      fun _ sector less => absurd less (Nat.not_lt_zero _), fun _ => idle⟩
    have writing : isWrite = true := writing
    show (if isWrite = true then some (buf sector) else Option.none).isSome = true
    rw [if_pos writing]
    rfl
  · cases gave : (bus.devices other).gaveUp with
    | false =>
      rw [inv.idle other gave (unpolled other)] at pending
      exact absurd pending Bool.noConfusion
    | true =>
      have rests := List.all_eq_true.mp quiet other (List.mem_range.mpr (inv.few other gave))
      rw [gave, Bool.not_true, Bool.false_or, Bool.not_eq_true', Blk.usesBounce,
        (inv.single other).outstanding, pending, Bool.true_and] at rests
      exact bne_eq_false_iff_eq.mp rests

/-- A step in time keeps the invariant. -/
theorem BusInv.step (inv : BusInv bus phases) {event : Event Data}
    (inTime : event.inTime bus = true) (step : bus.step event = some next) :
    ∃ phases, BusInv next phases := by
  have device {device : Nat} (mine : event.device? = some device) :
      ∃ phases, BusInv next phases := by
    obtain ⟨changed, moved, later, steps, rfl⟩ :=
      DeviceStep.of_step mine (inv.single device) (inv.reads device) step
    exact ⟨_, inv.device_step steps⟩
  cases event with
  | call device isWrite lba count buf => exact ⟨_, inv.enter inTime step⟩
  | prepare =>
    obtain ⟨call, found, rfl⟩ := Option.map_eq_some_iff.mp step
    obtain ⟨is, stage⟩ := callAt_some found
    exact ⟨_, inv.prepare is stage⟩
  | post =>
    obtain ⟨call, found, rfl⟩ := Option.map_eq_some_iff.mp step
    obtain ⟨is, stage⟩ := callAt_some found
    exact ⟨_, inv.post is stage⟩
  | poll =>
    obtain ⟨call, found, step⟩ := Option.bind_eq_some_iff.mp step
    obtain ⟨is, stage⟩ := callAt_some found
    exact inv.poll is stage step
  | giveUp =>
    obtain ⟨call, found, rfl⟩ := Option.map_eq_some_iff.mp step
    obtain ⟨is, stage⟩ := callAt_some found
    exact ⟨_, inv.giveUp is⟩
  | advance =>
    obtain ⟨call, found, rfl⟩ := Option.map_eq_some_iff.mp step
    obtain ⟨is, stage⟩ := callAt_some found
    exact ⟨_, inv.advance is stage⟩
  | ret =>
    obtain ⟨call, found, rfl⟩ := Option.map_eq_some_iff.mp step
    obtain ⟨is, stage⟩ := callAt_some found
    exact ⟨_, inv.ret is stage⟩
  | take which => exact device rfl
  | load which index => exact device rfl
  | move which index sector => exact device rfl
  | settle which index status => exact device rfl
  | push which => exact device rfl

theorem BusInv.initial (fresh : bus.Fresh) : BusInv bus fun _ => .idle := by
  have queue (device : Nat) : ∃ size, 8 ≤ size ∧
      (bus.devices device).queue = Queue.fresh size ∧ (bus.devices device).gaveUp = false := by
    obtain ⟨size, low, -, is, gave⟩ := fresh.queue device
    exact ⟨size, low, is, gave⟩
  refine ⟨fun device => ?_, fun device => ?_, fun _ => trivial, fun _ _ _ => rfl,
    fun device gave => ?_, fun call is => ?_, fun call is => ?_, fun pair member => ?_,
    fun answer member => ?_⟩
  · obtain ⟨size, low, is, -⟩ := queue device
    rw [is]
    exact le_trans (by decide) low
  · obtain ⟨size, -, is, -⟩ := queue device
    rw [is]
    exact Queue.single_fresh size
  · obtain ⟨size, -, -, kept⟩ := queue device
    exact absurd (kept.symm.trans gave) Bool.noConfusion
  · exact absurd (fresh.call.symm.trans is).symm (Option.some_ne_none call)
  · exact absurd (fresh.call.symm.trans is).symm (Option.some_ne_none call)
  · exact absurd (fresh.taken ▸ member) List.not_mem_nil
  · exact absurd (fresh.answers ▸ member) List.not_mem_nil

/-- In every run in time all requests are matched. -/
theorem BusInv.reachable
    (reachable : (blkSystem : System (Bus Data) (Event Data)).Reachable
      (fun bus event => Event.inTime bus event) bus) : ∃ phases, BusInv bus phases :=
  reachable.invariant (fun bus => ∃ phases, BusInv bus phases)
    (fun _ fresh => ⟨_, BusInv.initial fresh⟩)
    fun _ _ _ ⟨_, inv⟩ inTime step => inv.step inTime step

end MectovOS.Virtio
