/-
This file models the frame through which a signal handler returns. The scan of
`task_deliver_signals` in src/sys/task.c is modelled with everything it writes:
the saved registers, the `sigframe_t` on the user stack, and the call of the
handler below it. SYS_SIGRETURN of src/sys/syscall_proc.c reads the frame back
from memory that the program may have rewritten, so its result is stated for
every content of that memory.

The comment in the source lists NT (14), IOPL (12..13) and VM (17) as cleared;
the mask it clears has the bits 13, 16, 17 and 18.
-/

import MectovOS.Lib.ByteMemory
import MectovOS.Task.Delivery
import MectovOS.Task.UserPointer

namespace MectovOS.Sched

open ByteMemory MectovOS.Vmm

/-! ### Registers and flags -/

abbrev Word := BitVec 32

/-- `registers_t`: what an interrupt saves on the kernel stack. -/
structure Registers where
  gs : Word
  fs : Word
  ds : Word
  edi : Word
  esi : Word
  ebp : Word
  esp : Word
  ebx : Word
  edx : Word
  ecx : Word
  eax : Word
  intNo : Word
  errCode : Word
  eip : Word
  cs : Word
  eflags : Word
  useresp : Word
  ss : Word

/-- The selectors of user code and user data. -/
def userCs : Word := 0x1B
def userSs : Word := 0x23

def eflagsIf : Word := 0x200
def eflagsIopl : Word := 0x3000
def eflagsNt : Word := 0x4000
def eflagsVm : Word := 0x20000
def eflagsAc : Word := 0x40000

/-- The flags a program sets for itself and keeps: CF, PF, AF, ZF, SF, TF, DF, OF, AC and ID. -/
def eflagsUser : Word := 0x240DD5

/-- The mask that SYS_SIGRETURN clears. -/
def clearedFlags : Word := 0x72000

/-! ### sigframe_t -/

/-- `sigframe_t`, in the order of its words. -/
structure Sigframe where
  sig : Word
  savedEax : Word
  savedEcx : Word
  savedEdx : Word
  savedEbx : Word
  savedEsi : Word
  savedEdi : Word
  savedEbp : Word
  savedEip : Word
  savedCs : Word
  savedEflags : Word
  savedEsp : Word
  savedSs : Word
  savedBlocked : Word
  restart : Word
  restartArg : Word

/-- `sizeof(sigframe_t)`. -/
def sizeofSigframe : Nat := 64

def Sigframe.words (frame : Sigframe) : List Word :=
  [frame.sig, frame.savedEax, frame.savedEcx, frame.savedEdx, frame.savedEbx, frame.savedEsi,
    frame.savedEdi, frame.savedEbp, frame.savedEip, frame.savedCs, frame.savedEflags,
    frame.savedEsp, frame.savedSs, frame.savedBlocked, frame.restart, frame.restartArg]

/-- Store words one behind the other. -/
def storeWords (memory : Bytes) (address : Nat) : List Word → Bytes
  | [] => memory
  | word :: rest => storeWords (write32 memory address word.toNat) (address + 4) rest

def loadWord (memory : Bytes) (address : Nat) : Word := BitVec.ofNat 32 (read32 memory address)

def Sigframe.load (memory : Bytes) (address : Nat) : Sigframe where
  sig := loadWord memory address
  savedEax := loadWord memory (address + 4)
  savedEcx := loadWord memory (address + 8)
  savedEdx := loadWord memory (address + 12)
  savedEbx := loadWord memory (address + 16)
  savedEsi := loadWord memory (address + 20)
  savedEdi := loadWord memory (address + 24)
  savedEbp := loadWord memory (address + 28)
  savedEip := loadWord memory (address + 32)
  savedCs := loadWord memory (address + 36)
  savedEflags := loadWord memory (address + 40)
  savedEsp := loadWord memory (address + 44)
  savedSs := loadWord memory (address + 48)
  savedBlocked := loadWord memory (address + 52)
  restart := loadWord memory (address + 56)
  restartArg := loadWord memory (address + 60)

theorem loadWord_congr {first second : Bytes} {address : Nat}
    (agree : ∀ index, address ≤ index → index < address + 4 → first index = second index) :
    loadWord first address = loadWord second address :=
  congrArg (BitVec.ofNat 32) (read32_congr agree)

theorem loadWord_write32 (memory : Bytes) (address : Nat) (word : Word) :
    loadWord (write32 memory address word.toNat) address = word := by
  unfold loadWord
  rw [read32_write32_of_lt _ _ _ word.isLt, BitVec.ofNat_toNat, BitVec.setWidth_eq]

/-- Words stored from an address on leave the bytes before it and behind them. -/
theorem storeWords_other (memory : Bytes) (address : Nat) (words : List Word) {index : Nat}
    (apart : index < address ∨ address + 4 * words.length ≤ index) :
    storeWords memory address words index = memory index := by
  induction words generalizing memory address with
  | nil => rfl
  | cons word rest inductionHypothesis =>
    rw [List.length_cons] at apart
    rw [storeWords, inductionHypothesis _ _ (by omega)]
    exact write32_other _ _ _ _ (by omega)

theorem loadWord_storeWords (memory : Bytes) (address : Nat) (words : List Word) {index : Nat}
    (inside : index < words.length) :
    loadWord (storeWords memory address words) (address + 4 * index) = words[index] := by
  induction words generalizing memory address index with
  | nil => exact absurd inside (Nat.not_lt_zero _)
  | cons word rest inductionHypothesis =>
    cases index with
    | zero =>
      have first : loadWord (storeWords (write32 memory address word.toNat) (address + 4) rest)
          address = loadWord (write32 memory address word.toNat) address :=
        loadWord_congr fun other _ high => storeWords_other _ _ _ (Or.inl (by omega))
      exact first.trans (loadWord_write32 memory address word)
    | succ index =>
      have later := inductionHypothesis (write32 memory address word.toNat) (address + 4)
        (Nat.lt_of_succ_lt_succ inside)
      rw [show address + 4 * (index + 1) = address + 4 + 4 * index by omega]
      exact later

/-- A frame read back is the frame that was pushed. -/
theorem Sigframe.load_store (memory : Bytes) (address : Nat) (frame : Sigframe) :
    Sigframe.load (storeWords memory address frame.words) address = frame := by
  have word : ∀ index (inside : index < 16),
      loadWord (storeWords memory address frame.words) (address + 4 * index) =
        frame.words.get ⟨index, inside⟩ := fun _ inside => loadWord_storeWords _ _ _ inside
  unfold Sigframe.load
  rw [show loadWord (storeWords memory address frame.words) address = frame.sig from
      word 0 (by decide), show loadWord _ (address + 4) = frame.savedEax from word 1 (by decide),
    show loadWord _ (address + 8) = frame.savedEcx from word 2 (by decide),
    show loadWord _ (address + 12) = frame.savedEdx from word 3 (by decide),
    show loadWord _ (address + 16) = frame.savedEbx from word 4 (by decide),
    show loadWord _ (address + 20) = frame.savedEsi from word 5 (by decide),
    show loadWord _ (address + 24) = frame.savedEdi from word 6 (by decide),
    show loadWord _ (address + 28) = frame.savedEbp from word 7 (by decide),
    show loadWord _ (address + 32) = frame.savedEip from word 8 (by decide),
    show loadWord _ (address + 36) = frame.savedCs from word 9 (by decide),
    show loadWord _ (address + 40) = frame.savedEflags from word 10 (by decide),
    show loadWord _ (address + 44) = frame.savedEsp from word 11 (by decide),
    show loadWord _ (address + 48) = frame.savedSs from word 12 (by decide),
    show loadWord _ (address + 52) = frame.savedBlocked from word 13 (by decide),
    show loadWord _ (address + 56) = frame.restart from word 14 (by decide),
    show loadWord _ (address + 60) = frame.restartArg from word 15 (by decide)]

theorem Sigframe.load_congr {first second : Bytes} {address : Nat}
    (agree : ∀ index, address ≤ index → index < address + sizeofSigframe →
      first index = second index) :
    Sigframe.load first address = Sigframe.load second address := by
  have word : ∀ offset, offset + 4 ≤ sizeofSigframe →
      loadWord first (address + offset) = loadWord second (address + offset) := by
    intro offset inside
    exact loadWord_congr fun index low high => agree index (by omega) (by omega)
  unfold Sigframe.load
  rw [show loadWord first address = loadWord second address from word 0 (by decide),
    word 4 (by decide), word 8 (by decide), word 12 (by decide), word 16 (by decide),
    word 20 (by decide), word 24 (by decide), word 28 (by decide), word 32 (by decide),
    word 36 (by decide), word 40 (by decide), word 44 (by decide), word 48 (by decide),
    word 52 (by decide), word 56 (by decide), word 60 (by decide)]

/-! ### The stack of the program -/

/-- The part of `validate_user_ptr` before it walks the pages. -/
def userRange (ptr size : Nat) : Bool :=
  ptr ≠ 0 && size ≤ userPtrMaxSize && ptr ≤ add32 ptr size

/-- A stack with room for the frame lies above its red zone. -/
theorem useresp_of_userRange {useresp : Word}
    (valid : userRange (useresp - 128).toNat 128 = true) : 128 < useresp.toNat := by
  rw [userRange, add32, Bool.and_eq_true, Bool.and_eq_true, decide_eq_true_eq,
    decide_eq_true_eq, decide_eq_true_eq] at valid
  obtain ⟨⟨nonzero, -⟩, straight⟩ := valid
  have bound := useresp.isLt
  have pointer : (useresp - 128).toNat = (2 ^ 32 - 128 + useresp.toNat) % 2 ^ 32 :=
    BitVec.toNat_sub useresp 128
  omega

theorem sub_toNat_of_lt {useresp : Word} {size : Nat} (small : size < 128)
    (high : 128 < useresp.toNat) : (useresp - BitVec.ofNat 32 size).toNat = useresp.toNat - size := by
  rw [BitVec.toNat_sub, BitVec.toNat_ofNat]
  have bound := useresp.isLt
  omega

/-! ### task_deliver_signals with the saved frame -/

/-- A task about to return to user mode: the kernel, the saved registers and the user memory.
Beside them the statements keep the sigframes that were pushed and not returned through. -/
structure UserContext where
  kernel : Kernel
  regs : Registers
  memory : Bytes
  frames : List Nat

/-- What `task_deliver_signals` looks at in the saved registers, with what the walk over the
pages of the stack answers. -/
def savedFrame (regs : Registers) (pagesOk : Bool) : UserFrame where
  ring3 := regs.cs &&& 3 = 3
  stackValid := userRange (regs.useresp - 128).toNat 128 && pagesOk
  useresp := regs.useresp.toNat

/-- A dead task is parked in the kernel, at `task_dead_park`. -/
def parkRegs (taskDeadPark : Word) (regs : Registers) : Registers :=
  { regs with eip := taskDeadPark, cs := 0x08, ds := 0x10, fs := 0x10, gs := 0x10 }

/-- `SIG_TRAMPOLINE_VA`. -/
def sigTrampolineVa : Word := 0x08F7F000

def buildSigframe (task : Task) (sig : Nat) (regs : Registers) : Sigframe where
  sig := BitVec.ofNat 32 sig
  savedEax := regs.eax
  savedEcx := regs.ecx
  savedEdx := regs.edx
  savedEbx := regs.ebx
  savedEsi := regs.esi
  savedEdi := regs.edi
  savedEbp := regs.ebp
  savedEip := regs.eip
  savedCs := regs.cs
  savedEflags := regs.eflags
  savedEsp := regs.useresp
  savedSs := regs.ss
  savedBlocked := task.blockedSignals
  restart := if flagsOf task sig &&& saRestart ≠ 0 ∧ 0 < task.sigRestartTicks then 1 else 0
  restartArg := BitVec.ofInt 32 task.sigRestartTicks

/-- The user stack when a handler starts: the frame, and below it the return address into the
trampoline and the argument. -/
def pushFrame (memory : Bytes) (task : Task) (sig : Nat) (regs : Registers) : Bytes :=
  storeWords
    (storeWords memory (regs.useresp - BitVec.ofNat 32 sizeofSigframe).toNat
      (buildSigframe task sig regs).words)
    (regs.useresp - BitVec.ofNat 32 (sizeofSigframe + 8)).toNat
    [sigTrampolineVa, BitVec.ofNat 32 sig]

/-- The registers when a handler starts. -/
def handlerRegs (task : Task) (sig : Nat) (regs : Registers) : Registers :=
  { regs with
    eip := BitVec.ofNat 32 (handlerOf task sig)
    useresp := regs.useresp - BitVec.ofNat 32 (sizeofSigframe + 8) }

def runHandler (context : UserContext) (tid sig : Nat) (frame : UserFrame) : UserContext where
  kernel := enterHandler context.kernel tid sig frame
  regs := handlerRegs (context.kernel.tasks tid) sig context.regs
  memory := pushFrame context.memory (context.kernel.tasks tid) sig context.regs
  frames := (context.regs.useresp - BitVec.ofNat 32 sizeofSigframe).toNat :: context.frames

def killContext (context : UserContext) (cid tid sig : Nat) (taskDeadPark : Word) : UserContext :=
  { context with
    kernel := terminateTask context.kernel cid tid (128 + sig)
    regs := parkRegs taskDeadPark context.regs }

/-- The loop of `task_deliver_signals` over the signals from `sig` on. -/
def deliverContextScan (cid tid : Nat) (taskDeadPark : Word) (pagesOk : Bool) :
    Nat → Nat → UserContext → UserContext × Bool
  | 0, _, context => (context, false)
  | fuel + 1, sig, context =>
    let task := context.kernel.tasks tid
    let frame := savedFrame context.regs pagesOk
    if task.pendingSignals &&& signalBit sig = 0 then
      deliverContextScan cid tid taskDeadPark pagesOk fuel (sig + 1) context
    else if task.blockedSignals &&& signalBit sig ≠ 0 ∧
        sig ≠ sigkill ∧ sig ≠ sigstop ∧ sig ≠ sigcont then
      deliverContextScan cid tid taskDeadPark pagesOk fuel (sig + 1) context
    else
      let context := { context with kernel := cleared context.kernel tid sig }
      if handlerOf task sig = sigIgnSentinel then
        deliverContextScan cid tid taskDeadPark pagesOk fuel (sig + 1) context
      else if handlerOf task sig = 0 then
        if sig = sigchld then
          deliverContextScan cid tid taskDeadPark pagesOk fuel (sig + 1) context
        else (killContext context cid tid sig taskDeadPark, true)
      else if frame.stackValid then (runHandler context tid sig frame, true)
      else (killContext context cid tid sig taskDeadPark, true)

/-- `task_deliver_signals` on the current task of core `cid`. -/
def deliverContext (cid : Nat) (taskDeadPark : Word) (pagesOk : Bool) (context : UserContext) :
    UserContext × Bool :=
  match context.kernel.currentTask cid with
  | none => (context, false)
  | some tid =>
    let task := context.kernel.tasks tid
    if (savedFrame context.regs pagesOk).ring3 = false ∨ tid = 0 ∨ maxTasks ≤ tid ∨
        task.state.dead ∨ task.pendingSignals = 0 ∨ task.sigFrameEsp ≠ 0 then
      (context, false)
    else deliverContextScan cid tid taskDeadPark pagesOk (sigMax - 1) 1 context

theorem deliverContextScan_kernel (cid tid : Nat) (taskDeadPark : Word) (pagesOk : Bool)
    (fuel sig : Nat) (context : UserContext) :
    ((deliverContextScan cid tid taskDeadPark pagesOk fuel sig context).1.kernel,
        (deliverContextScan cid tid taskDeadPark pagesOk fuel sig context).2) =
      deliverScan cid tid (savedFrame context.regs pagesOk) fuel sig context.kernel := by
  induction fuel generalizing sig context with
  | zero => rfl
  | succ fuel inductionHypothesis =>
    have skipped := inductionHypothesis (sig + 1)
      { context with kernel := cleared context.kernel tid sig }
    unfold deliverContextScan deliverScan
    dsimp only
    split_ifs
    · exact inductionHypothesis (sig + 1) context
    · exact inductionHypothesis (sig + 1) context
    · exact skipped
    · exact skipped
    · rfl
    · rfl
    · rfl

/-- With the frame left out, the delivery is the step of the task system. -/
theorem deliverContext_kernel (cid : Nat) (taskDeadPark : Word) (pagesOk : Bool)
    (context : UserContext) :
    ((deliverContext cid taskDeadPark pagesOk context).1.kernel,
        (deliverContext cid taskDeadPark pagesOk context).2) =
      taskDeliverSignals context.kernel cid (savedFrame context.regs pagesOk) := by
  unfold deliverContext taskDeliverSignals
  cases context.kernel.currentTask cid with
  | none => rfl
  | some tid =>
    dsimp only
    split_ifs
    · rfl
    · exact deliverContextScan_kernel cid tid taskDeadPark pagesOk (sigMax - 1) 1 context

/-! ### SYS_SIGRETURN -/

/-- `task_get_sig_frame_esp` of the current task of a core. -/
def sigFrameOf (kernel : Kernel) (cid : Nat) : Nat :=
  match kernel.currentTask cid with
  | none => 0
  | some tid => if maxTasks ≤ tid then 0 else (kernel.tasks tid).sigFrameEsp

/-- The frame that SYS_SIGRETURN restores from; `none` when it refuses to. -/
def acceptedFrame (cid : Nat) (pagesOk : Bool) (context : UserContext) : Option Sigframe :=
  let esp := sigFrameOf context.kernel cid
  if esp = 0 ∨ ¬(userRange esp sizeofSigframe && pagesOk) then none
  else
    let frame := Sigframe.load context.memory esp
    if frame.savedCs ≠ userCs ∨ frame.savedSs ≠ userSs then none else some frame

/-- A setter of the task table, on the current task of a core. -/
def setCurrent (kernel : Kernel) (cid : Nat) (value : Attribute) : Kernel :=
  match kernel.currentTask cid with
  | none => kernel
  | some tid => setAttribute kernel tid value

def safeEflags (frame : Sigframe) : Word := frame.savedEflags &&& ~~~clearedFlags ||| eflagsIf

/-- An interrupted sleep goes on. -/
def Sigframe.resumesSleep (frame : Sigframe) : Bool := frame.restart ≠ 0 && frame.restartArg ≠ 0

/-- The registers that SYS_SIGRETURN leaves. When the sleep goes on they are seen once it is
over. -/
def restoreRegs (regs : Registers) (frame : Sigframe) : Registers :=
  { regs with
    eax := if frame.resumesSleep then 0 else frame.savedEax
    ecx := frame.savedEcx
    edx := frame.savedEdx
    ebx := frame.savedEbx
    esi := frame.savedEsi
    edi := frame.savedEdi
    ebp := frame.savedEbp
    eip := frame.savedEip
    cs := frame.savedCs
    eflags := safeEflags frame
    useresp := frame.savedEsp
    ss := frame.savedSs }

/-- SYS_SIGRETURN on core `cid`; `pagesOk` is what the walk over the pages of the frame
answers. -/
def sysSigreturn (cid : Nat) (pagesOk : Bool) (context : UserContext) : UserContext :=
  match acceptedFrame cid pagesOk context with
  | none =>
    { context with
      kernel := setCurrent context.kernel cid (.sigFrameEsp 0)
      regs := { context.regs with eax := -1 }
      frames := context.frames.tail }
  | some frame =>
    let kernel := setCurrent (setCurrent context.kernel cid (.blocked frame.savedBlocked)) cid
      (.sigFrameEsp 0)
    { context with
      kernel := if frame.resumesSleep then taskSleep kernel cid frame.restartArg.toInt else kernel
      regs := restoreRegs context.regs frame
      frames := context.frames.tail }

/-! ### The flags that survive -/

theorem and_or_distrib (flags cleared set mask : Word) :
    (flags &&& ~~~cleared ||| set) &&& mask = flags &&& (~~~cleared &&& mask) ||| set &&& mask := by
  rw [BitVec.and_or_distrib_right, BitVec.and_assoc]

theorem and_or_eq_zero (flags first second : Word) :
    flags &&& (first ||| second) = 0 ↔ flags &&& first = 0 ∧ flags &&& second = 0 := by
  rw [BitVec.and_or_distrib_left]
  exact BitVec.or_eq_zero_iff

/-- The return frame is one of user mode without privileges, with the flags of the program. -/
structure UserReturn (regs : Registers) (frame : Sigframe) : Prop where
  cs : regs.cs = userCs
  ss : regs.ss = userSs
  privileges : regs.eflags &&& (eflagsNt ||| eflagsIopl ||| eflagsVm) = 0
  interrupts : regs.eflags &&& eflagsIf = eflagsIf
  flags : regs.eflags &&& eflagsUser = frame.savedEflags &&& eflagsUser

/-- The outcome of SYS_SIGRETURN: refused, with the place to return to unchanged, or a return
to user mode. -/
def ReturnsSafely (before after : Registers) : Option Sigframe → Prop
  | none => after.cs = before.cs ∧ after.ss = before.ss ∧ after.eip = before.eip
  | some frame => UserReturn after frame

/-- The low bit of IOPL, NT and AC. -/
def mishandledFlags : Word := 0x1000 ||| eflagsNt ||| eflagsAc

theorem acceptedFrame_selectors {cid : Nat} {pagesOk : Bool} {context : UserContext}
    {frame : Sigframe} (accepted : acceptedFrame cid pagesOk context = some frame) :
    frame.savedCs = userCs ∧ frame.savedSs = userSs := by
  unfold acceptedFrame at accepted
  dsimp only at accepted
  split_ifs at accepted with refused selectors
  obtain rfl := Option.some.inj accepted
  rw [not_or, not_not, not_not] at selectors
  exact selectors

/-- SYS_SIGRETURN is safe exactly when it refuses, or the saved flags have the low bit of IOPL,
NT and AC clear: the first two survive, and the third is lost. -/
theorem sigreturn_safe_iff (cid : Nat) (pagesOk : Bool) (context : UserContext) :
    ReturnsSafely context.regs (sysSigreturn cid pagesOk context).regs
        (acceptedFrame cid pagesOk context) ↔
      ∀ frame, acceptedFrame cid pagesOk context = some frame →
        frame.savedEflags &&& mishandledFlags = 0 := by
  unfold sysSigreturn
  cases accepted : acceptedFrame cid pagesOk context with
  | none => exact iff_of_true ⟨rfl, rfl, rfl⟩ nofun
  | some frame =>
    obtain ⟨cs, ss⟩ := acceptedFrame_selectors accepted
    have privileges : safeEflags frame &&& (eflagsNt ||| eflagsIopl ||| eflagsVm) =
        frame.savedEflags &&& (0x1000 ||| eflagsNt) := by
      rw [safeEflags, and_or_distrib]
      exact BitVec.or_zero
    have flags : safeEflags frame &&& eflagsUser = frame.savedEflags &&& 0x200DD5 := by
      rw [safeEflags, and_or_distrib]
      exact BitVec.or_zero
    have user : frame.savedEflags &&& eflagsUser =
        frame.savedEflags &&& 0x200DD5 ||| frame.savedEflags &&& eflagsAc := by
      rw [← BitVec.and_or_distrib_left]
      rfl
    have interrupts : safeEflags frame &&& eflagsIf = eflagsIf := by
      rw [safeEflags, BitVec.and_or_distrib_right, BitVec.and_self, BitVec.and_assoc,
        show ~~~clearedFlags &&& eflagsIf = eflagsIf by decide]
      ext index
      simp
    have apart : frame.savedEflags &&& 0x200DD5 &&& eflagsAc = 0 := by
      rw [BitVec.and_assoc]
      exact BitVec.and_zero
    have acKept : frame.savedEflags &&& 0x200DD5 = frame.savedEflags &&& eflagsUser ↔
        frame.savedEflags &&& eflagsAc = 0 := by
      constructor
      · intro same
        have masked := congrArg (· &&& eflagsAc) (same.trans user)
        rw [BitVec.and_or_distrib_right, apart, BitVec.and_assoc, BitVec.and_self] at masked
        exact (masked.trans BitVec.zero_or).symm
      · intro clear
        rw [user, clear]
        exact BitVec.or_zero.symm
    unfold mishandledFlags
    constructor
    · intro safe other same
      obtain rfl := Option.some.inj same
      rw [and_or_eq_zero]
      exact ⟨privileges.symm.trans safe.privileges, acKept.mp (flags.symm.trans safe.flags)⟩
    · intro clear
      have both := (and_or_eq_zero _ _ _).mp (clear frame rfl)
      exact ⟨cs, ss, privileges.trans both.1, interrupts, flags.trans (acKept.mpr both.2)⟩

/-! ### A handler that rewrites its frame -/

/-- An app with a handler for signal 10 is interrupted and runs its handler. -/
def handlerHistory : List Label :=
  [.spawn 0 (threadArgs 0x300000), .set 0 1 (.sigaction 10 0x08048000 0 0),
    .tick 0 0x208000 false fun _ => ⟨false, true, 0x1EFE8000⟩,
    .tick 0 0x208000 false fun _ => ⟨false, true, 0x1EFE8000⟩,
    .signal 0 1 10, .deliver 0 ⟨true, true, 0x1EFE8000⟩]

def handlerKernel : Kernel := bootRun oneCore handlerHistory

theorem handlerKernel_reachable : taskSystem.Reachable Transition.anyStep handlerKernel :=
  bootRun_reachable (by decide +kernel)

/-- The registers of user code at its entry. -/
def userRegs : Registers :=
  ⟨0x23, 0x23, 0x23, 0, 0, 0, 0, 0, 0, 0, 0, 128, 0, 0x08048010, userCs, 0x202, 0x1EFE7FB8, userSs⟩

/-- A frame with the NT flag set. -/
def nestedFrame : Sigframe :=
  ⟨10, 0, 0, 0, 0, 0, 0, 0, 0x08048020, userCs, 0x4202, 0x1EFE8000, userSs, 0, 0, 0⟩

def nestedContext (kernel : Kernel) : UserContext where
  kernel := kernel
  regs := userRegs
  memory := storeWords (fun _ => 0) 0x1EFE7FC0 nestedFrame.words
  frames := [0x1EFE7FC0]

theorem nestedContext_kernel (kernel : Kernel) : (nestedContext kernel).kernel = kernel := rfl

theorem nestedContext_accepts :
    acceptedFrame 0 true (nestedContext handlerKernel) = some nestedFrame := by
  have esp : sigFrameOf handlerKernel 0 = 0x1EFE7FC0 := by decide +kernel
  have loaded : Sigframe.load (nestedContext handlerKernel).memory 0x1EFE7FC0 = nestedFrame :=
    Sigframe.load_store _ _ _
  unfold acceptedFrame
  rw [nestedContext_kernel, esp]
  dsimp only
  rw [loaded, if_neg (by decide), if_neg (by decide)]

theorem nestedContext_returns : ∃ context : UserContext,
    taskSystem.Reachable Transition.anyStep context.kernel ∧
      acceptedFrame 0 true context = some nestedFrame ∧
      (sysSigreturn 0 true context).regs = restoreRegs userRegs nestedFrame := by
  refine ⟨nestedContext handlerKernel, ?_, nestedContext_accepts, ?_⟩
  · rw [nestedContext_kernel]
    exact handlerKernel_reachable
  · unfold sysSigreturn
    rw [nestedContext_accepts]
    rfl

/-- NT survives, and a program returns with it. -/
theorem sigreturn_keeps_nt :
    ¬∀ (cid : Nat) (pagesOk : Bool) (context : UserContext),
      taskSystem.Reachable Transition.anyStep context.kernel →
      ReturnsSafely context.regs (sysSigreturn cid pagesOk context).regs
        (acceptedFrame cid pagesOk context) := by
  intro claimed
  obtain ⟨context, reachable, accepted, regs⟩ := nestedContext_returns
  have safe := claimed 0 true context reachable
  rw [accepted, regs] at safe
  have privileges := safe.privileges
  rw [show (restoreRegs userRegs nestedFrame).eflags = 0x4202 by decide] at privileges
  exact absurd privileges (by decide)

end MectovOS.Sched
