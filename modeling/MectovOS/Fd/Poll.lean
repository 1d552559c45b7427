/-
This file models `do_sys_poll` and `do_sys_select` of src/sys/fd.c: each pass of
their loops reads the events of the descriptors and then the tick counter, and
sleeps until the next interrupt when neither ends the wait. The deadline is an
absolute tick value in a signed integer, which doubles as the mark of a wait
without end when it is negative.
-/

import MectovOS.Fd.Table
import MectovOS.Net.Tcp

namespace MectovOS.Fd

open Net (TcpState)

/-! ### Events -/

/-- `POLLIN`, `POLLOUT`, `POLLHUP` and `POLLNVAL`. -/
def pollIn : BitVec 32 := 0x001
def pollOut : BitVec 32 := 0x004
def pollHup : BitVec 32 := 0x010
def pollNval : BitVec 32 := 0x020

/-- What the network layer reports about a connection: `net_tcp_state`, `net_tcp_accept_pending`,
`net_tcp_tx_ready`, `net_tcp_rx_pending` and `net_tcp_eof`. -/
structure ConnView where
  state : TcpState
  acceptPending : Bool
  txReady : Bool
  rxPending : Bool
  eof : Bool

/-- An event that is reported when a condition holds. -/
def eventIf (condition : Bool) (event : BitVec 32) : BitVec 32 := if condition then event else 0

/-- `pty_poll_events`. -/
def ptyPollEvents (tables : Tables) (pty : Nat) (isMaster : Bool) : BitVec 32 :=
  let terminal := tables.ptys pty
  if maxPtys ≤ pty ∨ terminal.inUse = false then 0
  else if isMaster then
    eventIf (terminal.s2mR != terminal.s2mW) pollIn |||
      eventIf ((terminal.m2sW + 1) % ptyBufSize != terminal.m2sR) pollOut
  else
    eventIf (terminal.m2sR != terminal.m2sW) pollIn |||
      eventIf ((terminal.s2mW + 1) % ptyBufSize != terminal.s2mR) pollOut

/-- The events of a stream socket with a connection. -/
def connPollEvents (conn : ConnView) : BitVec 32 :=
  match conn.state with
  | .listen => eventIf conn.acceptPending pollIn
  | .established =>
    eventIf conn.txReady pollOut ||| eventIf conn.rxPending pollIn |||
      eventIf conn.eof (pollIn ||| pollHup)
  | .closed => pollHup
  | _ => 0

/-- `fd_poll_events`. -/
def fdPollEvents (tables : Tables) (conns : Nat → ConnView) (tid : Nat) (fd : Int) : BitVec 32 :=
  match taskGetFd tables tid fd with
  | none => pollNval
  | some gfd =>
    let descriptor := tables.globalFds gfd
    let pipe := tables.pipes descriptor.pipeId
    if descriptor.inUse = false then pollNval
    else
      match descriptor.type with
      | .file | .dev => pollIn ||| pollOut
      | .pipeRead =>
        if pipe.readPos ≠ pipe.writePos then pollIn
        else eventIf pipe.closedWrite (pollIn ||| pollHup)
      | .pipeWrite => eventIf ((pipe.writePos + 1) % pipeBufSize != pipe.readPos) pollOut
      | .pty => ptyPollEvents tables descriptor.pipeId (descriptor.flags % 2 == 1)
      | .socket =>
        if descriptor.flags = 2 then pollIn ||| pollOut
        else if 0 ≤ descriptor.sockConn then connPollEvents (conns descriptor.sockConn.toNat)
        else 0
      | .none => 0

/-! ### Deadlines -/

/-- `ms_to_ticks`, for a calibrated number of ticks in a second. -/
def msToTicks (ticksPerSec ms : BitVec 32) : BitVec 32 :=
  if ticksPerSec = 0 then 0
  else
    let sec := ms / 1000
    let rem := ms % 1000
    let part := if sec > 0xFFFFFFFF / ticksPerSec then 0xFFFFFFFF else sec * ticksPerSec
    let tail := rem * ticksPerSec / 1000
    if part > 0xFFFFFFFF - tail then 0xFFFFFFFF else part + tail

/-- The deadline of a wait that starts at a tick; -1 for a wait without end. -/
def pollDeadline (start ticksPerSec : BitVec 32) (timeoutMs : Int) : Int :=
  if timeoutMs < 0 then -1
  else (start + msToTicks ticksPerSec (BitVec.ofInt 32 timeoutMs)).toInt

/-- `deadline >= 0 && (int)get_ticks() >= deadline`. -/
def pastDeadline (deadline : Int) (now : BitVec 32) : Bool :=
  decide (0 ≤ deadline) && decide (deadline ≤ now.toInt)

/-! ### Passes -/

/-- One pass through the loop: the tables and connections its scan reads under the lock, and how
many ticks have gone by since the call when it reads the counter after that. -/
structure Pass where
  tables : Tables
  conns : Nat → ConnView
  elapsed : Nat

/-- What a call is made with: the calling task, `get_ticks` on entry, the calibrated
`ticks_per_sec`, the number of descriptors and the timeout. -/
structure WaitCall where
  tid : Nat
  start : BitVec 32
  ticksPerSec : BitVec 32
  nfds : Int
  timeoutMs : Int

def WaitCall.deadline (call : WaitCall) : Int :=
  pollDeadline call.start call.ticksPerSec call.timeoutMs

/-- `get_ticks` in a pass. -/
def WaitCall.now (call : WaitCall) (pass : Pass) : BitVec 32 :=
  call.start + BitVec.ofNat 32 pass.elapsed

/-- `nfds < 0 || nfds > MAX_FDS_PER_TASK`. -/
def WaitCall.badCount (call : WaitCall) : Bool :=
  decide (call.nfds < 0) || decide ((maxFdsPerTask : Int) < call.nfds)

/-- `pollfd_t`. -/
structure PollFd where
  fd : Int
  events : BitVec 32
  revents : BitVec 32

/-- The events of one entry of `poll`. -/
def pollRevents (reported events : BitVec 32) : BitVec 32 :=
  if reported = pollNval then pollNval else (reported &&& events) ||| (reported &&& pollHup)

/-- The scan of `do_sys_poll`: the entries it leaves, and how many of them are ready. -/
def pollScan (call : WaitCall) (fds : Nat → PollFd) (pass : Pass) : (Nat → PollFd) × Nat :=
  let revents := fun index =>
    pollRevents (fdPollEvents pass.tables pass.conns call.tid (fds index).fd) (fds index).events
  (fun index =>
    if (index : Int) < call.nfds then { fds index with revents := revents index } else fds index,
    (List.range call.nfds.toNat).countP fun index => revents index != 0)

/-- One pass of `do_sys_poll`; `none` when it goes to sleep. -/
def pollPass (call : WaitCall) (fds : Nat → PollFd) (pass : Pass) :
    Option (Int × (Nat → PollFd)) :=
  let scan := pollScan call fds pass
  if 0 < scan.2 then some (scan.2, scan.1)
  else if call.timeoutMs = 0 then some (0, scan.1)
  else if pastDeadline call.deadline (call.now pass) then some (0, scan.1)
  else none

/-- `do_sys_poll` after a number of passes: its result, or `none` while it still waits. A pass
rewrites only `revents`, which no pass reads. -/
def doSysPoll (call : WaitCall) (fds : Nat → PollFd) (passes : List Pass) :
    Option (Int × (Nat → PollFd)) :=
  if call.badCount then some (-1, fds) else passes.findSome? (pollPass call fds)

/-- The bitmaps of `do_sys_select`, and how many descriptors are ready. -/
structure Selection where
  readfds : BitVec 32
  writefds : BitVec 32
  ready : Nat

/-- What the scan of `do_sys_select` does about one descriptor: a wanted bit is counted when its
event is reported, and cleared when it is not. -/
def selectBit (wanted reported event : BitVec 32) (fd : Nat) (ready : Nat) : BitVec 32 × Nat :=
  let bit : BitVec 32 := 1 <<< fd
  if wanted &&& bit = 0 then (wanted, ready)
  else if reported &&& event = 0 then (wanted &&& ~~~bit, ready)
  else (wanted, ready + 1)

/-- The scan of `do_sys_select`. -/
def selectScan (call : WaitCall) (wanted : Selection) (pass : Pass) : Selection :=
  (List.range call.nfds.toNat).foldl
    (fun selection (fd : Nat) =>
      let reported := fdPollEvents pass.tables pass.conns call.tid fd
      let read := selectBit selection.readfds reported pollIn fd selection.ready
      let write := selectBit selection.writefds reported pollOut fd read.2
      ⟨read.1, write.1, write.2⟩)
    { wanted with ready := 0 }

/-- One pass of `do_sys_select`; `none` when it goes to sleep. -/
def selectPass (call : WaitCall) (wanted : Selection) (pass : Pass) : Option (Int × Selection) :=
  let scan := selectScan call wanted pass
  if 0 < scan.ready ∨ call.timeoutMs = 0 ∨
      pastDeadline call.deadline (call.now pass) = true then some (scan.ready, scan)
  else none

/-- `do_sys_select` after a number of passes; a set the caller leaves out is empty. -/
def doSysSelect (call : WaitCall) (wanted : Selection) (passes : List Pass) :
    Option (Int × Selection) :=
  if call.badCount then some (-1, wanted) else passes.findSome? (selectPass call wanted)

/-! ### When a wait ends -/

/-- How the deadline compares with the counter, both without their signs. -/
theorem pastDeadline_iff (deadline now : BitVec 32) :
    pastDeadline deadline.toInt now = true ↔
      deadline.toNat ≤ now.toNat ∧ now.toNat < 2 ^ 31 := by
  have first := deadline.isLt
  have second := now.isLt
  unfold pastDeadline
  rw [Bool.and_eq_true, decide_eq_true_iff, decide_eq_true_iff, BitVec.toInt_eq_toNat_cond,
    BitVec.toInt_eq_toNat_cond]
  split <;> split <;> omega

/-- The counter of a pass is the deadline and what has gone by since. -/
theorem now_toNat (start ticks : BitVec 32) {elapsed : Nat} (late : ticks.toNat ≤ elapsed) :
    (start + BitVec.ofNat 32 elapsed).toNat =
      ((start + ticks).toNat + (elapsed - ticks.toNat) % 2 ^ 32) % 2 ^ 32 := by
  rw [BitVec.toNat_add, BitVec.toNat_add, BitVec.toNat_ofNat]
  omega

/-- No deadline is found past before its time. -/
theorem pastDeadline_early (start : BitVec 32) {ticks : BitVec 32} {elapsed : Nat}
    (short : ticks.toNat < 2 ^ 31) (early : elapsed < ticks.toNat) :
    pastDeadline (start + ticks).toInt (start + BitVec.ofNat 32 elapsed) = false := by
  rw [← Bool.not_eq_true, pastDeadline_iff, BitVec.toNat_add, BitVec.toNat_add,
    BitVec.toNat_ofNat]
  have bound := start.isLt
  omega

/-- A deadline is found past in time when its sign is clear and the counter has not reached the
sign bit either. -/
theorem pastDeadline_late (start ticks : BitVec 32) {elapsed : Nat}
    (late : ticks.toNat ≤ elapsed) :
    pastDeadline (start + ticks).toInt (start + BitVec.ofNat 32 elapsed) = true ↔
      (start + ticks).toNat < 2 ^ 31 ∧
        (elapsed - ticks.toNat) % 2 ^ 32 < 2 ^ 31 - (start + ticks).toNat := by
  rw [pastDeadline_iff, now_toNat start ticks late]
  have bound := (start + ticks).isLt
  have bound' := Nat.mod_lt (elapsed - ticks.toNat) (show 0 < 2 ^ 32 by decide)
  omega

/-- The number of ticks of a wait. -/
def WaitCall.ticks (call : WaitCall) : BitVec 32 :=
  msToTicks call.ticksPerSec (BitVec.ofInt 32 call.timeoutMs)

theorem deadline_of_timeout {call : WaitCall} (positive : 0 < call.timeoutMs) :
    call.deadline = (call.start + call.ticks).toInt := if_neg (by omega)

/-- A pass of `do_sys_poll` with nothing ready ends the wait when it finds the deadline past. -/
theorem pollPass_quiet {call : WaitCall} {fds : Nat → PollFd} {pass : Pass}
    (positive : 0 < call.timeoutMs) (quiet : (pollScan call fds pass).2 = 0) :
    pollPass call fds pass =
      if pastDeadline call.deadline (call.now pass) then some (0, (pollScan call fds pass).1)
      else none := by
  unfold pollPass
  dsimp only
  rw [quiet, if_neg (Nat.lt_irrefl 0), if_neg (by omega)]

/-- A pass of `do_sys_select` with nothing ready ends the wait when it finds the deadline past. -/
theorem selectPass_quiet {call : WaitCall} {wanted : Selection} {pass : Pass}
    (positive : 0 < call.timeoutMs) (quiet : (selectScan call wanted pass).ready = 0) :
    selectPass call wanted pass =
      if pastDeadline call.deadline (call.now pass) then some (0, selectScan call wanted pass)
      else none := by
  have waits : ¬ call.timeoutMs = 0 := by omega
  unfold selectPass
  simp only [quiet, Nat.lt_irrefl, waits, false_or, Nat.cast_zero]

/-- The call returns 0 at the last pass and does not return before it. -/
def OnTime {Result : Type} (wait : List Pass → Option (Int × Result)) (passes : List Pass)
    (last : Pass) : Prop :=
  wait passes = none ∧ ∃ result, wait (passes ++ [last]) = some (0, result)

/-- The tick value of the deadline is below 2^31, and the counter has not come to 2^31 by the given
pass, whatever number of times it has wrapped. -/
def WaitCall.Unsigned (call : WaitCall) (last : Pass) : Prop :=
  (call.start + call.ticks).toNat < 2 ^ 31 ∧ (last.elapsed - call.ticks.toNat) % 2 ^ 32 <
    2 ^ 31 - (call.start + call.ticks).toNat

/-- A loop whose passes end it only when they find the deadline past returns at none that comes
before its time, and at the first that comes after it unless signs or the wrap of the counter get
in between. -/
theorem findSome?_onTime {Result : Type} {call : WaitCall}
    {attempt : Pass → Option (Int × Result)} {result : Pass → Result} {passes : List Pass}
    {last : Pass} (positive : 0 < call.timeoutMs) (short : call.ticks.toNat < 2 ^ 31)
    (ends : ∀ pass ∈ passes ++ [last], attempt pass =
      if pastDeadline call.deadline (call.now pass) then some (0, result pass) else none)
    (early : ∀ pass ∈ passes, pass.elapsed < call.ticks.toNat)
    (late : call.ticks.toNat ≤ last.elapsed) :
    passes.findSome? attempt = none ∧
      (OnTime (List.findSome? attempt) passes last ↔ call.Unsigned last) := by
  have sleeps : passes.findSome? attempt = none := by
    refine List.findSome?_eq_none_iff.mpr fun pass member => ?_
    rw [ends pass (List.mem_append_left _ member), deadline_of_timeout positive]
    unfold WaitCall.now
    rw [pastDeadline_early call.start short (early pass member)]
    rfl
  refine ⟨sleeps, ?_⟩
  unfold WaitCall.Unsigned
  rw [← pastDeadline_late call.start call.ticks late, ← deadline_of_timeout positive]
  unfold OnTime
  rw [List.findSome?_append, sleeps, Option.none_or, List.findSome?_singleton,
    ends last (List.mem_append_right _ (List.mem_singleton_self last))]
  unfold WaitCall.now
  cases pastDeadline call.deadline (call.start + BitVec.ofNat 32 last.elapsed) with
  | false => simp
  | true => simp

/-- With nothing ready, `do_sys_poll` and `do_sys_select` never return before their time, and they
return 0 at the first wake-up after it exactly when the tick value of the deadline is below 2^31
and the wake-up comes before the counter gets there. -/
theorem poll_select_onTime_iff (call : WaitCall) (fds : Nat → PollFd) (wanted : Selection)
    (passes : List Pass) (last : Pass) (counted : call.badCount = false)
    (positive : 0 < call.timeoutMs) (short : call.ticks.toNat < 2 ^ 31)
    (early : ∀ pass ∈ passes, pass.elapsed < call.ticks.toNat)
    (late : call.ticks.toNat ≤ last.elapsed) :
    ((∀ pass ∈ passes ++ [last], (pollScan call fds pass).2 = 0) →
      doSysPoll call fds passes = none ∧
        (OnTime (doSysPoll call fds) passes last ↔ call.Unsigned last)) ∧
    ((∀ pass ∈ passes ++ [last], (selectScan call wanted pass).ready = 0) →
      doSysSelect call wanted passes = none ∧
        (OnTime (doSysSelect call wanted) passes last ↔ call.Unsigned last)) := by
  have polls : doSysPoll call fds = List.findSome? (pollPass call fds) := by
    funext history
    unfold doSysPoll
    rw [counted, if_neg Bool.false_ne_true]
  have selects : doSysSelect call wanted = List.findSome? (selectPass call wanted) := by
    funext history
    unfold doSysSelect
    rw [counted, if_neg Bool.false_ne_true]
  rw [polls, selects]
  refine ⟨fun quiet => ?_, fun quiet => ?_⟩
  · exact findSome?_onTime positive short
      (fun pass member => pollPass_quiet positive (quiet pass member)) early late
  · exact findSome?_onTime positive short
      (fun pass member => selectPass_quiet positive (quiet pass member)) early late

/-- No descriptor of any task is open, and no connection. -/
def idlePass (elapsed : Nat) : Pass where
  tables := ⟨fun _ => ⟨false, .none, 0, 0, 0, 0, 0, 0⟩, fun _ => ⟨false, fun _ => 0, 0, 0, false⟩,
    fun _ => ⟨false, fun _ => 0, 0, 0, fun _ => 0, 0, 0, 0, 0⟩, fun _ => none⟩
  conns _ := ⟨.closed, false, false, false, false⟩
  elapsed := elapsed

/-- A call about no descriptors, for ten milliseconds. -/
def shortCall (start : BitVec 32) : WaitCall := ⟨1, start, 1000, 0, 10⟩

/-- A wait that starts early returns on time. -/
theorem poll_select_onTime_soon :
    OnTime (doSysPoll (shortCall 5) fun _ => ⟨0, 0, 0⟩) [idlePass 0, idlePass 9] (idlePass 12) ∧
      OnTime (doSysSelect (shortCall 5) ⟨0, 0, 0⟩) [idlePass 0, idlePass 9] (idlePass 12) := by
  have unsigned : (shortCall 5).Unsigned (idlePass 12) := by
    unfold WaitCall.Unsigned
    decide
  have onTime := poll_select_onTime_iff (shortCall 5) (fun _ => ⟨0, 0, 0⟩) ⟨0, 0, 0⟩
    [idlePass 0, idlePass 9] (idlePass 12) rfl (by decide) (by decide)
    (fun pass member => by
      rcases List.mem_cons.mp member with rfl | member
      · decide
      · obtain rfl := List.mem_singleton.mp member
        decide)
    (by decide)
  exact ⟨(onTime.1 fun _ _ => rfl).2.mpr unsigned, (onTime.2 fun _ _ => rfl).2.mpr unsigned⟩

/-- A wait whose deadline is 2^31 never ends: the deadline is negative. -/
theorem poll_select_onTime_sign : ¬ ∀ (call : WaitCall) (fds : Nat → PollFd) (wanted : Selection)
    (passes : List Pass) (last : Pass), call.badCount = false → 0 < call.timeoutMs →
    call.ticks.toNat < 2 ^ 31 →
    (∀ pass ∈ passes, pass.elapsed < call.ticks.toNat) → call.ticks.toNat ≤ last.elapsed →
    ((∀ pass ∈ passes ++ [last], (pollScan call fds pass).2 = 0) →
      OnTime (doSysPoll call fds) passes last) ∧
    ((∀ pass ∈ passes ++ [last], (selectScan call wanted pass).ready = 0) →
      OnTime (doSysSelect call wanted) passes last) := by
  intro always
  have onTime := (always (shortCall 0x7FFFFFF6) (fun _ => ⟨0, 0, 0⟩) ⟨0, 0, 0⟩ [] (idlePass 10) rfl
    (by decide) (by decide) (fun _ member => absurd member List.not_mem_nil) (by decide)).1
    fun _ _ => rfl
  obtain ⟨_, result, returns⟩ := onTime
  have waits : (doSysPoll (shortCall 0x7FFFFFF6) (fun _ => ⟨0, 0, 0⟩) ([] ++ [idlePass 10])).isSome =
      false := by decide
  rw [returns] at waits
  exact absurd waits (by simp)

end MectovOS.Fd
