/-
This file settles what a new task takes over from the previous occupant of its
slot. Two kernels that differ only in the dead record of the slot are given the
same creation; the new tasks agree in what the rest of the system observes of
them exactly when the two dead records agree in the fields that creation path
does not write.
-/

import MectovOS.Task.System

namespace MectovOS.Sched

/-! ### Creations and what they show -/

/-- The three ways user code makes a task. -/
inductive Creation where
  | thread (args : ThreadArgs)
  | fork (args : ForkArgs)
  | forkExec (args : ForkExecArgs)

/-- Run a creation for the current task of a core. -/
def Creation.run (creation : Creation) (kernel : Kernel) (cid : Nat) : Kernel × Option Nat :=
  match creation with
  | .thread args => threadCreateEx kernel cid args
  | .fork args => forkCommon kernel cid args
  | .forkExec args => taskForkExec kernel cid args

/-- The identity, privileges and resource usage of a task. -/
structure Observed where
  uid : Int
  gid : Int
  trustedShell : Bool
  nice : Int
  tlsBase : Nat
  sigMasks : List (BitVec 32)
  sigFlags : List (BitVec 32)
  blockedSignals : BitVec 32
  asUsed : Nat
  deriving DecidableEq

def observe (task : Task) : Observed where
  uid := task.uid
  gid := task.gid
  trustedShell := task.trustedShell
  nice := task.nice
  tlsBase := task.tlsBase
  sigMasks := task.sigMasks
  sigFlags := task.sigFlags
  blockedSignals := task.blockedSignals
  asUsed := rlimitAsUsed task

/-- Two dead records agree in what `thread_create_ex` does not write. -/
def SameThreadRemains (former latter : Task) : Prop :=
  former.trustedShell = latter.trustedShell ∧ former.sigMasks = latter.sigMasks ∧
    former.sigFlags = latter.sigFlags ∧
    reservedBytes former.mmapRegions % 2 ^ 32 = reservedBytes latter.mmapRegions % 2 ^ 32

/-- Two dead records agree in what a creation does not write: `fork_common` writes every
observed field, and `task_fork_exec` leaves more than `thread_create_ex`. -/
def Creation.SameRemains (former latter : Task) : Creation → Prop
  | .thread _ => SameThreadRemains former latter
  | .fork _ => True
  | .forkExec _ =>
    (former.uid = latter.uid ∧ former.gid = latter.gid ∧ former.nice = latter.nice ∧
      former.tlsBase = latter.tlsBase) ∧ SameThreadRemains former latter

/-- Two kernels, as a creation on core `cid` finds them, that differ only in who used the
FREE slot `tid` before. -/
structure SameElsewhere (former latter : Kernel) (cid tid : Nat) : Prop where
  core : cid < maxCpus
  cores : ∀ other < maxCpus, former.currentTask other = latter.currentTask other
  slots : ∀ other < maxTasks, other ≠ tid → former.tasks other = latter.tasks other
  creator : ∀ creator ∈ former.currentTask cid, creator ≠ tid →
    former.tasks creator = latter.tasks creator
  formerFree : (former.tasks tid).state = .free
  latterFree : (latter.tasks tid).state = .free

/-! ### The slot both kernels claim -/

section
variable {former latter : Kernel} {cid tid : Nat}

theorem SameElsewhere.slotStillCurrent (same : SameElsewhere former latter cid tid)
    (other : Nat) : slotStillCurrent former other = slotStillCurrent latter other := by
  rw [Bool.eq_iff_iff, slotStillCurrent_iff, slotStillCurrent_iff]
  refine exists_congr fun core => and_congr_right fun bound => ?_
  rw [same.cores core bound]

theorem SameElsewhere.state (same : SameElsewhere former latter cid tid) {other : Nat}
    (bound : other < maxTasks) : (former.tasks other).state = (latter.tasks other).state := by
  by_cases apart : other = tid
  · rw [apart, same.formerFree, same.latterFree]
  · rw [same.slots other bound apart]

theorem SameElsewhere.claimSlot (same : SameElsewhere former latter cid tid) (first : Nat) :
    claimSlot former first = claimSlot latter first := by
  refine List.find?_congr fun other member => ?_
  rw [same.state (List.mem_range.mp member), same.slotStillCurrent]

theorem SameElsewhere.rlimitNprocAllows (same : SameElsewhere former latter cid tid)
    {creator : Nat} (record : former.tasks creator = latter.tasks creator) :
    rlimitNprocAllows former creator = rlimitNprocAllows latter creator := by
  have owned : ∀ uid : Int, (List.range maxTasks).countP (fun other =>
        0 < other && (former.tasks other).state ≠ .free && (former.tasks other).uid = uid) =
      (List.range maxTasks).countP (fun other =>
        0 < other && (latter.tasks other).state ≠ .free && (latter.tasks other).uid = uid) := by
    intro uid
    refine List.countP_congr fun other member => ?_
    by_cases apart : other = tid
    · rw [apart, same.formerFree, same.latterFree]
      simp
    · rw [same.slots other (List.mem_range.mp member) apart]
  unfold Sched.rlimitNprocAllows
  rw [record]
  simp only [owned]

/-- A slot handed out by a checked search is not the creator's. -/
theorem SameElsewhere.record (same : SameElsewhere former latter cid tid)
    (unclaimed : Sched.slotStillCurrent former tid = false) {creator : Nat}
    (current : former.currentTask cid = some creator) :
    former.tasks creator = latter.tasks creator := by
  refine same.creator creator current fun equal => ?_
  have named : Sched.slotStillCurrent former tid = true :=
    slotStillCurrent_iff.mpr ⟨cid, same.core, equal ▸ current⟩
  rw [unclaimed] at named
  exact Bool.false_ne_true named

end

/-! ### What the new task shows -/

theorem rqEnqueue_observe (kernel : Kernel) (cpu tid other : Nat) :
    observe ((rqEnqueue kernel cpu tid).tasks other) = observe (kernel.tasks other) := by
  unfold rqEnqueue
  split_ifs
  all_goals try rfl
  all_goals
    by_cases apart : other = tid
    · subst apart
      rw [setTask_same]
      rfl
    · rw [setTask_other _ _ apart]

theorem publish_observe (kernel : Kernel) (cpu tid : Nat) (task : Task) :
    observe ((publish kernel cpu tid task).tasks tid) = observe task := by
  unfold publish occupy
  rw [rqEnqueue_observe, setTask_same]
  rfl

theorem reservedBytes_clearBases (regions : List MmapRegion) :
    reservedBytes (clearBases (mmapFreeDirtyBitmaps regions)) = reservedBytes regions := by
  simp only [reservedBytes, clearBases, mmapFreeDirtyBitmaps, List.map_map]
  rfl

theorem observe_eq_iff {former latter : Task} :
    observe former = observe latter ↔
      former.uid = latter.uid ∧ former.gid = latter.gid ∧
        former.trustedShell = latter.trustedShell ∧ former.nice = latter.nice ∧
        former.tlsBase = latter.tlsBase ∧ former.sigMasks = latter.sigMasks ∧
        former.sigFlags = latter.sigFlags ∧ former.blockedSignals = latter.blockedSignals ∧
        rlimitAsUsed former = rlimitAsUsed latter := by
  simp only [observe, Observed.mk.injEq]

theorem rlimitAsUsed_congr {former latter : Task} (heap : former.heapPtr = latter.heapPtr) :
    rlimitAsUsed former = rlimitAsUsed latter ↔
      reservedBytes former.mmapRegions % 2 ^ 32 = reservedBytes latter.mmapRegions % 2 ^ 32 := by
  unfold rlimitAsUsed
  rw [heap]
  exact ⟨fun equal => Nat.ModEq.add_left_cancel' _ equal, fun equal => Nat.ModEq.add_left _ equal⟩

section
variable {former latter : Kernel} {cid tid : Nat}

theorem observe_threadFill {creator : Option Nat} {args : ThreadArgs}
    (record : ∀ tid ∈ creator, former.tasks tid = latter.tasks tid) (formerSlot latterSlot : Task) :
    observe (threadFill former creator args tid formerSlot) =
        observe (threadFill latter creator args tid latterSlot) ↔
      SameThreadRemains formerSlot latterSlot := by
  have inherited : ∀ {α : Type} (field : Task → α), creator.map (fun tid => field (former.tasks tid)) =
      creator.map fun tid => field (latter.tasks tid) := by
    intro α field
    refine Option.map_congr fun tid member => ?_
    rw [record tid member]
  rw [observe_eq_iff, rlimitAsUsed_congr]
  · simp only [threadFill, reservedBytes_clearBases, inherited, true_and, SameThreadRemains]
  · rfl

theorem observe_forkFill {parent : Nat} {args : ForkArgs}
    (record : former.tasks parent = latter.tasks parent) (formerSlot latterSlot : Task) :
    observe (forkFill former parent args tid formerSlot) =
      observe (forkFill latter parent args tid latterSlot) := by
  rw [observe_eq_iff, rlimitAsUsed_congr]
  · simp only [forkFill, record, and_self]
  · simp only [forkFill, record]

theorem observe_forkExecFill {creator : Nat} {args : ForkExecArgs} (formerSlot latterSlot : Task) :
    observe (forkExecFill former creator args tid formerSlot) =
        observe (forkExecFill latter creator args tid latterSlot) ↔
      (Creation.forkExec args).SameRemains formerSlot latterSlot := by
  rw [observe_eq_iff, rlimitAsUsed_congr]
  · simp only [forkExecFill, reservedBytes_clearBases, true_and, Creation.SameRemains,
      SameThreadRemains]
    tauto
  · rfl

end

/-! ### When a creation takes a slot -/

/-- What a creation requires of the kernel to take slot `tid` for the caller of core `cid`. -/
def Creation.Takes (kernel : Kernel) (cid tid : Nat) : Creation → Prop
  | .thread args =>
    (∀ creator ∈ kernel.currentTask cid, 0 < creator → rlimitNprocAllows kernel creator = true) ∧
      claimSlot kernel 0 = some tid ∧ ¬(args.childStack = 0 ∧ args.userStack tid = 0)
  | .fork args =>
    ∃ parent ∈ kernel.currentTask cid, parent ≠ 0 ∧ rlimitNprocAllows kernel parent = true ∧
      args.clone ≠ 0 ∧ claimSlot kernel 1 = some tid
  | .forkExec args =>
    ∃ creator ∈ kernel.currentTask cid, creator ≠ 0 ∧ args.image ≠ 0 ∧
      rlimitNprocAllows kernel creator = true ∧ claimSlot kernel 1 = some tid ∧
      args.userStack tid ≠ 0

/-- The record a creation puts into the slot, up to its state and its queue. -/
def Creation.fill (kernel : Kernel) (cid tid : Nat) : Creation → Task
  | .thread args => threadFill kernel (kernel.currentTask cid) args tid (kernel.tasks tid)
  | .fork args => forkFill kernel ((kernel.currentTask cid).getD 0) args tid (kernel.tasks tid)
  | .forkExec args =>
    forkExecFill kernel ((kernel.currentTask cid).getD 0) args tid (kernel.tasks tid)

section
variable {kernel : Kernel} {cid tid : Nat}

theorem threadCreateEx_takes {args : ThreadArgs}
    (created : (threadCreateEx kernel cid args).2 = some tid) :
    (Creation.thread args).Takes kernel cid tid := by
  unfold threadCreateEx at created
  dsimp only at created
  split at created
  · cases created
  · rename_i allowed
    split at created
    · cases created
    · rename_i slot claimed
      split at created
      · cases created
      · rename_i mapped
        obtain rfl : slot = tid := Option.some.inj created
        refine ⟨fun creator current positive => ?_, claimed, mapped⟩
        rw [Option.mem_def.mp current] at allowed
        simpa [positive] using allowed

theorem threadCreateEx_fills {args : ThreadArgs}
    (takes : (Creation.thread args).Takes kernel cid tid) :
    (threadCreateEx kernel cid args).2 = some tid ∧
      observe ((threadCreateEx kernel cid args).1.tasks tid) =
        observe ((Creation.thread args).fill kernel cid tid) := by
  obtain ⟨allowed, claimed, mapped⟩ := takes
  have unlimited : ¬(kernel.currentTask cid).map
      (fun tid => decide (0 < tid) && !rlimitNprocAllows kernel tid) = some true := by
    intro limited
    obtain ⟨creator, current, refused⟩ := Option.map_eq_some_iff.mp limited
    simp only [Bool.and_eq_true, decide_eq_true_eq, Bool.not_eq_true'] at refused
    rw [allowed creator current refused.1] at refused
    exact Bool.false_ne_true refused.2.symm
  unfold threadCreateEx
  rw [if_neg unlimited, claimed]
  simp only [if_neg mapped]
  exact ⟨trivial, publish_observe _ _ _ _⟩

theorem forkCommon_takes {args : ForkArgs}
    (created : (forkCommon kernel cid args).2 = some tid) :
    (Creation.fork args).Takes kernel cid tid := by
  unfold forkCommon at created
  dsimp only at created
  split at created
  · cases created
  · rename_i parent current
    split at created
    · cases created
    · rename_i refused
      simp only [not_or, Bool.not_eq_false] at refused
      split at created
      · cases created
      · rename_i slot claimed
        obtain rfl : slot = tid := Option.some.inj created
        exact ⟨parent, current, refused.1, refused.2.1, refused.2.2, claimed⟩

theorem forkCommon_fills {args : ForkArgs} (takes : (Creation.fork args).Takes kernel cid tid) :
    (forkCommon kernel cid args).2 = some tid ∧
      observe ((forkCommon kernel cid args).1.tasks tid) =
        observe ((Creation.fork args).fill kernel cid tid) := by
  obtain ⟨parent, current, user, allowed, cloned, claimed⟩ := takes
  have claimedAgain : claimSlot (allocPageDir kernel args.clone) 1 = some tid := claimed
  have accepted : ¬(parent = 0 ∨ rlimitNprocAllows kernel parent = false ∨ args.clone = 0) := by
    simp [user, allowed, cloned]
  unfold forkCommon Creation.fill
  rw [Option.mem_def.mp current]
  simp only [if_neg accepted, claimedAgain]
  exact ⟨trivial, publish_observe _ _ _ _⟩

theorem taskForkExec_takes {args : ForkExecArgs}
    (created : (taskForkExec kernel cid args).2 = some tid) :
    (Creation.forkExec args).Takes kernel cid tid := by
  unfold taskForkExec at created
  dsimp only at created
  split at created
  · cases created
  · rename_i creator current
    split at created
    · cases created
    · rename_i refused
      simp only [not_or] at refused
      split at created
      · cases created
      · rename_i allowed
        split at created
        · cases created
        · rename_i slot claimed
          split at created
          · cases created
          · rename_i mapped
            obtain rfl : slot = tid := Option.some.inj created
            exact ⟨creator, current, refused.1, refused.2, Bool.not_eq_false _ ▸ allowed, claimed,
              mapped⟩

theorem taskForkExec_fills {args : ForkExecArgs}
    (takes : (Creation.forkExec args).Takes kernel cid tid) :
    (taskForkExec kernel cid args).2 = some tid ∧
      observe ((taskForkExec kernel cid args).1.tasks tid) =
        observe ((Creation.forkExec args).fill kernel cid tid) := by
  obtain ⟨creator, current, user, built, allowed, claimed, mapped⟩ := takes
  have claimedAgain : claimSlot (allocPageDir kernel args.image) 1 = some tid := claimed
  have allowedAgain : rlimitNprocAllows (allocPageDir kernel args.image) creator = true := allowed
  have accepted : ¬(creator = 0 ∨ args.image = 0) := by simp [user, built]
  unfold taskForkExec Creation.fill
  rw [Option.mem_def.mp current]
  simp only [if_neg accepted, allowedAgain, Bool.true_eq_false, if_false, claimedAgain,
    if_neg mapped]
  exact ⟨trivial, publish_observe _ _ _ _⟩

/-- A creation that returns a slot met every condition of its path. -/
theorem Creation.takes_of_run {creation : Creation}
    (created : (creation.run kernel cid).2 = some tid) : creation.Takes kernel cid tid := by
  cases creation with
  | thread args => exact threadCreateEx_takes created
  | fork args => exact forkCommon_takes created
  | forkExec args => exact taskForkExec_takes created

/-- Under these conditions the slot is taken, and the new task shows what the path filled. -/
theorem Creation.run_of_takes {creation : Creation} (takes : creation.Takes kernel cid tid) :
    (creation.run kernel cid).2 = some tid ∧
      observe ((creation.run kernel cid).1.tasks tid) = observe (creation.fill kernel cid tid) := by
  cases creation with
  | thread args => exact threadCreateEx_fills takes
  | fork args => exact forkCommon_fills takes
  | forkExec args => exact taskForkExec_fills takes

theorem Creation.unclaimed {creation : Creation} (takes : creation.Takes kernel cid tid) :
    slotStillCurrent kernel tid = false := by
  cases creation with
  | thread args => exact (claimSlot_spec takes.2.1).2.2.2
  | fork args =>
    obtain ⟨_, _, _, _, _, claimed⟩ := takes
    exact (claimSlot_spec claimed).2.2.2
  | forkExec args =>
    obtain ⟨_, _, _, _, _, claimed, _⟩ := takes
    exact (claimSlot_spec claimed).2.2.2

end

/-! ### Inheritance from the previous occupant -/

section
variable {former latter : Kernel} {cid tid : Nat}

/-- Whether a creation takes the slot does not depend on who used it before. -/
theorem SameElsewhere.takes (same : SameElsewhere former latter cid tid) {creation : Creation}
    (takes : creation.Takes former cid tid) : creation.Takes latter cid tid := by
  have unclaimed := Creation.unclaimed takes
  have current : former.currentTask cid = latter.currentTask cid := same.cores cid same.core
  have allowed : ∀ creator ∈ former.currentTask cid,
      Sched.rlimitNprocAllows latter creator = Sched.rlimitNprocAllows former creator :=
    fun creator member => (same.rlimitNprocAllows (same.record unclaimed member)).symm
  cases creation with
  | thread args =>
    obtain ⟨unlimited, claimed, mapped⟩ := takes
    refine ⟨fun creator member positive => ?_, same.claimSlot 0 ▸ claimed, mapped⟩
    rw [← current] at member
    rw [allowed creator member]
    exact unlimited creator member positive
  | fork args =>
    obtain ⟨parent, member, user, unlimited, cloned, claimed⟩ := takes
    exact ⟨parent, current ▸ member, user, (allowed parent member).trans unlimited, cloned,
      same.claimSlot 1 ▸ claimed⟩
  | forkExec args =>
    obtain ⟨creator, member, user, built, unlimited, claimed, mapped⟩ := takes
    exact ⟨creator, current ▸ member, user, built, (allowed creator member).trans unlimited,
      same.claimSlot 1 ▸ claimed, mapped⟩

/-- The filled records show the same exactly when the dead records agree in what the path
leaves. -/
theorem SameElsewhere.fill (same : SameElsewhere former latter cid tid) {creation : Creation}
    (takes : creation.Takes former cid tid) :
    observe (creation.fill former cid tid) = observe (creation.fill latter cid tid) ↔
      creation.SameRemains (former.tasks tid) (latter.tasks tid) := by
  have record : ∀ creator ∈ former.currentTask cid,
      former.tasks creator = latter.tasks creator :=
    fun creator member => same.record (Creation.unclaimed takes) member
  unfold Creation.fill
  rw [← same.cores cid same.core]
  cases creation with
  | thread args => exact observe_threadFill record _ _
  | fork args =>
    obtain ⟨parent, member, _⟩ := takes
    simp only [Option.mem_def.mp member, Option.getD_some]
    exact iff_of_true (observe_forkFill (record parent member) _ _) trivial
  | forkExec args => exact observe_forkExecFill _ _

/-- Two histories that differ only in who used the slot before give new tasks of the same
identity, privileges and resource usage exactly when the two previous occupants left the same
values in the fields the creation path does not write. -/
theorem new_task_inherits_iff {creation : Creation} (same : SameElsewhere former latter cid tid)
    (created : (creation.run former cid).2 = some tid) :
    (creation.run latter cid).2 = some tid ∧
      (observe ((creation.run former cid).1.tasks tid) =
          observe ((creation.run latter cid).1.tasks tid) ↔
        creation.SameRemains (former.tasks tid) (latter.tasks tid)) := by
  have takes := Creation.takes_of_run created
  have formerRun := Creation.run_of_takes takes
  have latterRun := Creation.run_of_takes (same.takes takes)
  refine ⟨latterRun.1, ?_⟩
  rw [formerRun.2, latterRun.2]
  exact same.fill takes

end

/-! ### Two histories of one slot -/

/-- The first app returns to Ring 3, to a mapped stack. -/
def mappedFrames : Nat → UserFrame := fun tid => ⟨tid = 1, true, 0xBFFFE000⟩

/-- Two apps are started as the logged-in user, the second from the image of a shell host or
of another program; the second is killed, and the first is scheduled in and asks for a
thread. -/
def occupantHistory (shellHost : Bool) : List Label :=
  [.spawn 0 (threadArgs 0x300000), .set 0 1 (.uid 1000), .spawn 0 (threadArgs 0x400000),
    .set 0 2 (.uid 1000), .set 0 2 (.trustedShell shellHost), .signal 0 2 sigkill,
    .tick 0 0x250000 false mappedFrames, .tick 0 0x250000 false mappedFrames, .threadBegin 0]

/-- The kernel after that history. -/
def occupantKernel (shellHost : Bool) : Kernel :=
  (Transition.execute step (initTasking oneCore) (occupantHistory shellHost)).getD
    (initTasking oneCore)

theorem occupantKernel_reachable (shellHost : Bool) :
    taskSystem.Reachable Transition.anyStep (occupantKernel shellHost) := by
  have completes : (Transition.execute step (initTasking oneCore)
      (occupantHistory shellHost)).isSome = true := by
    cases shellHost <;> decide +kernel
  obtain ⟨final, run⟩ := Option.isSome_iff_exists.mp completes
  unfold occupantKernel
  rw [run]
  exact Transition.reachable_execute (.init ⟨oneCore, rfl⟩) run

theorem occupantKernel_cores : ∀ other < maxCpus,
    (occupantKernel true).currentTask other = (occupantKernel false).currentTask other := by
  decide +kernel

attribute [ext] Task

theorem occupantKernel_idle : (occupantKernel true).tasks 0 = (occupantKernel false).tasks 0 := by
  ext1 <;> decide +kernel

theorem occupantKernel_slots : ∀ other < maxTasks, other ≠ 2 →
    (occupantKernel true).tasks other = (occupantKernel false).tasks other := by
  have others : ∀ other ∈ List.range' 1 63, other ≠ 2 →
      (occupantKernel true).tasks other = (occupantKernel false).tasks other := by
    decide +kernel
  intro other below apart
  rcases Nat.eq_zero_or_pos other with rfl | positive
  · exact occupantKernel_idle
  · exact others other (List.mem_range'_1.mpr ⟨positive, below⟩) apart

theorem occupantKernel_current (shellHost : Bool) :
    (occupantKernel shellHost).currentTask 0 = some 1 := by
  cases shellHost <;> decide +kernel

theorem occupantKernel_free (shellHost : Bool) :
    ((occupantKernel shellHost).tasks 2).state = .free := by
  cases shellHost <;> decide +kernel

theorem occupantKernel_same : SameElsewhere (occupantKernel true) (occupantKernel false) 0 2 where
  core := by decide
  cores := occupantKernel_cores
  slots := occupantKernel_slots
  creator creator member apart := by
    rw [occupantKernel_current] at member
    obtain rfl : creator = 1 := (Option.some.inj member).symm
    exact occupantKernel_slots 1 (by decide) apart
  formerFree := occupantKernel_free true
  latterFree := occupantKernel_free false

theorem new_task_inherits_iff_thread :
    ((Creation.thread (threadArgs 0x300000)).run (occupantKernel false) 0).2 = some 2 ∧
      (observe (((Creation.thread (threadArgs 0x300000)).run (occupantKernel true) 0).1.tasks 2) =
          observe (((Creation.thread (threadArgs 0x300000)).run (occupantKernel false) 0).1.tasks
            2) ↔
        (Creation.thread (threadArgs 0x300000)).SameRemains ((occupantKernel true).tasks 2)
          ((occupantKernel false).tasks 2)) :=
  new_task_inherits_iff occupantKernel_same (by decide +kernel)

/-- A thread of the first app is a trusted shell when the killed app was one. -/
theorem new_task_inherits_trust :
    ¬∀ (former latter : Kernel) (cid tid : Nat) (creation : Creation),
      taskSystem.Reachable Transition.anyStep former →
      taskSystem.Reachable Transition.anyStep latter →
      SameElsewhere former latter cid tid → (creation.run former cid).2 = some tid →
      observe ((creation.run former cid).1.tasks tid) =
        observe ((creation.run latter cid).1.tasks tid) := by
  intro claimed
  have equal := claimed (occupantKernel true) (occupantKernel false) 0 2
    (.thread (threadArgs 0x300000)) (occupantKernel_reachable true) (occupantKernel_reachable false)
    occupantKernel_same (by decide +kernel)
  exact absurd (congrArg Observed.trustedShell equal) (by decide +kernel)

end MectovOS.Sched
