/-
This file puts the two drivers together: while no request is made on a queue whose poll has
given up before, a block request is answered by its own completion and a frame stays in the
transmit buffer until the device has let go of it.
-/

import MectovOS.Virtio.BlkKept
import MectovOS.Virtio.Net

namespace MectovOS.Virtio

open Virtqueue Transition

variable {Data : Type} {bus : Bus Data} {net : Net}

/-- In every run in time, block requests are matched and transmit buffers are kept. -/
theorem virtio_matched
    (blocks : (blkSystem : System (Bus Data) (Event Data)).Reachable (fun bus event => Event.inTime bus event) bus)
    (sends : netSystem.Reachable (fun net event => NetEvent.inTime net event) net) :
    bus.Matched ∧ net.Kept := by
  obtain ⟨phases, busInv⟩ := BusInv.reachable blocks
  obtain ⟨phase, netInv⟩ := NetInv.reachable sends
  exact ⟨busInv.matched, netInv.kept⟩

/-! ### Runs -/

/-- Devices of 8 entries that know how to flush, with the number of each sector on it. -/
def idleBus : Bus Nat where
  devices _ := ⟨true, true, Queue.fresh 8, fun _ => ⟨.header, 0, 0, 0⟩, ⟨0, 0⟩, 0, id, false⟩
  bounce _ := 0
  call := none
  tickets := 0
  taken := []
  answers := []

theorem idleBus_fresh : idleBus.Fresh :=
  ⟨fun _ => ⟨8, le_refl 8, by decide, rfl, rfl⟩, rfl, rfl, rfl⟩

def idleNet : Net where
  queue := Queue.fresh 8
  buf _ := 0
  len := 0
  sending := none
  gaveUp := false
  frames := []
  unfinished := []
  taken := []
  wire := []

theorem idleNet_fresh : idleNet.Fresh := ⟨⟨8, rfl⟩, rfl, rfl, rfl, rfl, rfl⟩

/-- A request that a device answers, with so many sectors. -/
def answered (sectors : Nat) : List (Event Nat) :=
  [.prepare, .post, .take 0, .load 0 0] ++ (List.range sectors).map (Event.move 0 0) ++
    [.settle 0 0 0, .push 0, .poll]

/-- A read of more than one chunk, and a write of a sector with its flush. -/
def readThenWrite : List (Event Nat) :=
  [.call 0 false 5 33 fun _ => 0] ++ answered 32 ++ [.advance] ++ answered 1 ++ [.advance, .ret] ++
    [.call 0 true 6 1 fun _ => 99] ++ answered 1 ++ [.advance] ++ answered 0 ++ [.ret]

theorem readThenWrite_taken :
    (executeGuarded (fun bus event => Event.inTime bus event) Bus.step idleBus readThenWrite).map
        (fun bus => (bus.taken, bus.answers.length, (bus.devices 0).medium 6)) =
      some ([(0, 0), (1, 1), (2, 2), (3, 3)], 34, 99) := by decide +kernel

/-- A frame that the device sends. -/
def sent (frame : List Nat) : List NetEvent :=
  [.send frame, .fill, .post, .take, .load 0] ++
    (List.range (vnetHdrSize + frame.length)).map (NetEvent.fetch 0) ++ [.push, .poll]

theorem sent_taken :
    (executeGuarded (fun net event => NetEvent.inTime net event) Net.step idleNet
        (sent [1, 2] ++ sent [3])).map (fun net => (net.taken, net.wire.length)) =
      some ([(0, 0), (1, 1)], 2) := by decide +kernel

theorem virtio_matched_answered : ∃ (bus : Bus Nat) (net : Net),
    bus.taken.length = 4 ∧ net.taken.length = 2 ∧ bus.Matched ∧ net.Kept := by
  obtain ⟨bus, ran, is⟩ := Option.map_eq_some_iff.mp readThenWrite_taken
  obtain ⟨net, went, holds⟩ := Option.map_eq_some_iff.mp sent_taken
  rw [Prod.mk.injEq] at is holds
  refine ⟨bus, net, by rw [is.1]; rfl, by rw [holds.1]; rfl, ?_⟩
  exact virtio_matched (reachable_executeGuarded (.init idleBus_fresh) ran)
    (reachable_executeGuarded (.init idleNet_fresh) went)

/-- A read of sector 5 is given up; its completion comes while a read of sector 9 polls. -/
def lateAnswer : List (Event Nat) :=
  [.call 0 false 5 1 fun _ => 0, .prepare, .post, .giveUp, .ret, .take 0, .load 0 0,
    .call 0 false 9 1 fun _ => 0, .prepare, .post, .move 0 0 0, .settle 0 0 0, .push 0, .poll,
    .advance, .ret]

theorem lateAnswer_wrong :
    (execute Bus.step idleBus lateAnswer).map
        (fun bus => (bus.taken, bus.answers.map fun answer => (answer.data, answer.medium))) =
      some ([(1, 0)], [(some 5, 9)]) := by decide +kernel

/-- A frame is given up, and the next one goes into the buffer before the device has read it. -/
def overwritten : List NetEvent :=
  [.send [1], .fill, .post, .giveUp, .send [2], .fill]

theorem overwritten_buffer :
    (execute Net.step idleNet overwritten).map
        (fun net => (net.unfinished, net.frames, net.len, net.buf vnetHdrSize)) =
      some ([0], [[1]], 11, 2) := by decide +kernel

/-- A late completion is taken for another read, which returns the wrong sector, and a transmit
buffer is rewritten while its frame is outstanding. -/
theorem lateAnswer_mismatched :
    (¬ ∀ bus : Bus Nat, (blkSystem : System (Bus Nat) (Event Nat)).Reachable anyStep bus → bus.Matched) ∧
      ¬ ∀ net : Net, netSystem.Reachable anyStep net → net.Kept := by
  refine ⟨fun matched => ?_, fun kept => ?_⟩
  · obtain ⟨bus, ran, is⟩ := Option.map_eq_some_iff.mp lateAnswer_wrong
    rw [Prod.mk.injEq] at is
    have same := (matched bus (reachable_execute (.init idleBus_fresh) ran)).1 (1, 0)
      (is.1 ▸ List.mem_singleton.mpr rfl)
    exact absurd same (by decide)
  · obtain ⟨net, ran, is⟩ := Option.map_eq_some_iff.mp overwritten_buffer
    rw [Prod.mk.injEq, Prod.mk.injEq, Prod.mk.injEq] at is
    obtain ⟨unfinished, frames, len, byte⟩ := is
    obtain ⟨frame, found, holds⟩ := (kept net (reachable_execute (.init idleNet_fresh) ran)).buffer 0
      (unfinished ▸ List.mem_singleton.mpr rfl)
    rw [frames] at found
    obtain rfl := Option.some.inj found
    have same := holds.2 vnetHdrSize (by rw [len]; decide)
    rw [byte] at same
    exact absurd same (by decide)

end MectovOS.Virtio
