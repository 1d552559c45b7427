/-
This file models the clocks of src/drivers/timer.c and the monotonic clock of syscall.c,
and proves when they tell the time. The PIT clock does while its interrupt is not late and
its microseconds fit a word; the HPET clock does until the low half of its counter wraps,
from where on it hands out the other clock.
-/

import Mathlib

namespace MectovOS.Timer

/-! ### The PIT clock -/

/-- `pit_divisor` at 1000 ticks a second. -/
def pitDivisor : Nat := 1193180 / 1000

/-- `timer_get_us`, from `timer_ticks` and the latched count. -/
def timerGetUs (ticks count : Nat) : Nat :=
  let count := if pitDivisor < count then pitDivisor else count
  let elapsedUs := (pitDivisor - count) * 1000 / 1193
  (ticks * 1000 + elapsedUs) % 2 ^ 32

/-- The seconds and nanoseconds of `SYS_CLOCK_GETTIME`. -/
def sysClockGettime (us : Nat) : Nat × Nat := (us / 1000000, us % 1000000 * 1000)

/-! ### The HPET clock -/

/-- One turn of the loop of `hpet_counter_read`: the counter at the three reads. -/
structure Reading where
  first : Nat
  low : Nat
  again : Nat
  ordered : first ≤ low ∧ low ≤ again ∧ again < first + 2 ^ 63

/-- The two reads of the high half agree. -/
def Reading.whole (reading : Reading) : Bool :=
  reading.first / 2 ^ 32 % 2 ^ 32 == reading.again / 2 ^ 32 % 2 ^ 32

/-- `hpet_counter_read`: the low and the high half, of the first turn that is not torn. -/
def hpetCounterRead : List Reading → Option (Nat × Nat)
  | [] => none
  | reading :: later =>
    if reading.whole then some (reading.low % 2 ^ 32, reading.again / 2 ^ 32 % 2 ^ 32)
    else hpetCounterRead later

/-- The unit as `hpet_init` leaves it: the snapshot of the counter, and a period that it takes. -/
structure Hpet where
  base : Nat
  fsPerClk : Nat
  usable : 0 < fsPerClk ∧ fsPerClk ≤ 1000000000

/-- `div64_32`: the instruction faults when the quotient does not fit. -/
def div6432 (hi lo d : Nat) : Option Nat := if hi < d then some ((hi * 2 ^ 32 + lo) / d) else none

/-- `hpet_get_us`, from the halves of the counter and the PIT clock. -/
def hpetGetUs (hpet : Hpet) (lo hi us : Nat) : Option Nat :=
  let loBase := hpet.base % 2 ^ 32
  let hiBase := hpet.base / 2 ^ 32 % 2 ^ 32
  let dlo := (lo + 2 ^ 32 - loBase) % 2 ^ 32
  let dhi := (hi + 2 ^ 32 - hiBase) % 2 ^ 32
  let dhi := if lo < loBase then (dhi + 2 ^ 32 - 1) % 2 ^ 32 else dhi
  if dhi ≠ 0 then some us
  else
    let prod := dlo * hpet.fsPerClk
    div6432 (prod / 2 ^ 32) (prod % 2 ^ 32) 1000000000

/-! ### Calls -/

/-- A call: the input clocks of the PIT since it was started, and whether the interrupt of the last
period is still to be handled. -/
structure Call where
  clocks : Nat
  late : Bool
  started : late = true → pitDivisor ≤ clocks
  uptime : clocks / pitDivisor < 2 ^ 32

/-- `timer_ticks` at a call, and the clocks left in the period. -/
def Call.ticks (call : Call) : Nat := call.clocks / pitDivisor - if call.late then 1 else 0

def Call.count (call : Call) : Nat := pitDivisor - call.clocks % pitDivisor

/-- The PIT clock at a call. -/
def Call.us (call : Call) : Nat := timerGetUs call.ticks call.count

/-- A time is less than a tick away from the elapsed time, which is given as a fraction. -/
def Near (tick time numerator denominator : Nat) : Prop :=
  time * denominator < numerator + tick * denominator ∧
    numerator < time * denominator + tick * denominator

/-- The nanoseconds that `SYS_CLOCK_GETTIME` returns. -/
def Call.ns (call : Call) : Nat :=
  (sysClockGettime call.us).1 * 1000000000 + (sysClockGettime call.us).2

/-- The PIT clock tells the time: no interrupt is late, and the microseconds fit a word. -/
def Call.Settled (call : Call) : Prop :=
  call.late = false ∧ call.clocks * 1000 / pitDivisor < 2 ^ 32

theorem ns_us (call : Call) : call.ns = call.us * 1000 := by
  unfold Call.ns sysClockGettime
  dsimp only
  omega

/-- The time of a call in order is the elapsed microseconds, and another is a tick behind or more. -/
theorem us_settled (call : Call) :
    (call.Settled → call.us = call.clocks * 1000 / pitDivisor) ∧
      (¬ call.Settled → call.us * pitDivisor + 1000 * pitDivisor ≤ call.clocks * 1000) := by
  have started := call.started
  have uptime := call.uptime
  unfold Call.Settled Call.us Call.ticks Call.count timerGetUs
  rw [show pitDivisor = 1193 from rfl] at started uptime ⊢
  have below := Nat.mod_lt call.clocks (show 0 < 1193 by decide)
  have floor : call.clocks * 1000 / 1193 =
      call.clocks / 1193 * 1000 + call.clocks % 1193 * 1000 / 1193 := by
    have cut := Nat.div_add_mod call.clocks 1193
    omega
  have low := Nat.div_mul_le_self (call.clocks * 1000) 1193
  have one : 1193 ≤ call.clocks → 1 ≤ call.clocks / 1193 := fun some =>
    (Nat.le_div_iff_mul_le (by decide)).mpr some
  dsimp only
  rw [if_neg (show ¬ 1193 < 1193 - call.clocks % 1193 by omega),
    show 1193 - (1193 - call.clocks % 1193) = call.clocks % 1193 by omega]
  rw [floor] at low ⊢
  generalize call.clocks / 1193 = periods at uptime low one ⊢
  generalize call.clocks % 1193 * 1000 / 1193 = passed at low ⊢
  cases late : call.late with
  | false =>
    rw [if_neg Bool.false_ne_true, Nat.sub_zero]
    refine ⟨fun ⟨_, fits⟩ => Nat.mod_eq_of_lt fits, fun unsettled => ?_⟩
    have wraps : 2 ^ 32 ≤ periods * 1000 + passed :=
      Nat.le_of_not_lt fun fits => unsettled ⟨rfl, fits⟩
    have lost : (periods * 1000 + passed) % 2 ^ 32 + 2 ^ 32 ≤ periods * 1000 + passed := by
      have cut := Nat.mod_add_div (periods * 1000 + passed) (2 ^ 32)
      omega
    rw [← Nat.add_mul]
    exact Nat.le_trans (Nat.mul_le_mul_right _ (by omega)) low
  | true =>
    refine ⟨fun ⟨no, _⟩ => (by cases no), fun _ => ?_⟩
    have whole := one (started late)
    have small := Nat.mod_le ((periods - 1) * 1000 + passed) (2 ^ 32)
    rw [if_pos rfl, ← Nat.add_mul]
    exact Nat.le_trans (Nat.mul_le_mul_right _ (by omega)) low

/-- Two calls in one period, the second with the interrupt still late. -/
def callInTime : Call := ⟨1193, false, nofun, by decide⟩

def callTooLate : Call := ⟨1193, true, fun _ => Nat.le_refl _, by decide⟩

/-- The counter at the low read of the first turn that is not torn. -/
def counterAt (readings : List Reading) : Option Nat :=
  (readings.find? Reading.whole).map Reading.low

/-- The two halves are of one value of the counter. -/
theorem hpetCounterRead_halves (readings : List Reading) :
    hpetCounterRead readings =
      (counterAt readings).map fun counter => (counter % 2 ^ 32, counter / 2 ^ 32 % 2 ^ 32) := by
  induction readings with
  | nil => rfl
  | cons reading later induction =>
    unfold hpetCounterRead counterAt
    by_cases whole : reading.whole = true
    · have agree := beq_iff_eq.mp (show (_ == _) = true from whole)
      obtain ⟨low, high, short⟩ := reading.ordered
      have same : reading.again / 2 ^ 32 % 2 ^ 32 = reading.low / 2 ^ 32 % 2 ^ 32 := by omega
      rw [if_pos whole, List.find?_cons_of_pos whole, same]
      rfl
    · rw [if_neg whole, List.find?_cons_of_neg whole]
      exact induction

/-- The HPET clock is exact below one turn of the low half since the snapshot, whatever the torn
reads and the carry between the halves, and is the PIT clock from there on. The division never
faults. -/
theorem hpetGetUs_exact (hpet : Hpet) {readings : List Reading} {counter : Nat}
    (read : counterAt readings = some counter) (since : hpet.base ≤ counter)
    (room : counter - hpet.base < 2 ^ 64) :
    ∃ lo hi, hpetCounterRead readings = some (lo, hi) ∧ ∀ us, hpetGetUs hpet lo hi us =
      some (if counter - hpet.base < 2 ^ 32 then
        (counter - hpet.base) * hpet.fsPerClk / 1000000000 else us) := by
  refine ⟨counter % 2 ^ 32, counter / 2 ^ 32 % 2 ^ 32, by rw [hpetCounterRead_halves, read]; rfl,
    fun us => ?_⟩
  have borrow : (if counter % 2 ^ 32 < hpet.base % 2 ^ 32 then
      ((counter / 2 ^ 32 % 2 ^ 32 + 2 ^ 32 - hpet.base / 2 ^ 32 % 2 ^ 32) % 2 ^ 32 + 2 ^ 32 - 1) %
        2 ^ 32 else (counter / 2 ^ 32 % 2 ^ 32 + 2 ^ 32 - hpet.base / 2 ^ 32 % 2 ^ 32) % 2 ^ 32) =
      (counter - hpet.base) / 2 ^ 32 := by
    split <;> omega
  have low : (counter % 2 ^ 32 + 2 ^ 32 - hpet.base % 2 ^ 32) % 2 ^ 32 =
      (counter - hpet.base) % 2 ^ 32 := by omega
  unfold hpetGetUs
  dsimp only
  rw [borrow, low]
  by_cases fast : counter - hpet.base < 2 ^ 32
  · rw [if_neg (by omega), if_pos fast, Nat.mod_eq_of_lt fast]
    have fits : (counter - hpet.base) * hpet.fsPerClk < 2 ^ 32 * 1000000000 :=
      Nat.mul_lt_mul_of_lt_of_le fast hpet.usable.2 (by decide)
    unfold div6432
    rw [if_pos (by omega), Nat.mul_comm _ (2 ^ 32), Nat.div_add_mod]
  · rw [if_pos (by omega), if_neg fast]

/-- A torn turn, and a whole one behind the wrap of the low half. -/
def wrappedReadings : List Reading :=
  [⟨2 ^ 32 - 1, 2 ^ 32 - 1, 2 ^ 32, by omega⟩, ⟨2 ^ 32, 2 ^ 32 + 1, 2 ^ 32 + 1, by omega⟩]

theorem hpetGetUs_exact_wrapped : ∃ lo hi, hpetCounterRead wrappedReadings = some (lo, hi) ∧
    ∀ us, hpetGetUs ⟨2 ^ 32 - 24, 40000000, by omega⟩ lo hi us = some 1 := by
  obtain ⟨lo, hi, read, tells⟩ := @hpetGetUs_exact ⟨2 ^ 32 - 24, 40000000, by omega⟩
    wrappedReadings (2 ^ 32 + 1) (by decide +kernel) (by decide +kernel) (by decide +kernel)
  exact ⟨lo, hi, read, fun us => (tells us).trans (congrArg some (if_pos (by decide +kernel)))⟩

end MectovOS.Timer
