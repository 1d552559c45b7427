/-
This file models how tasks end in src/sys/task.c: `task_cleanup` with the
decision to free, defer or keep the page directory, `terminate_task` with the
reparenting of children and the wake of a waiting parent, exit, kill, and the
reaper with its queue of deferred directories.
-/

import MectovOS.Task.Runqueue

namespace MectovOS.Sched

/-! ### Page directories -/

/-- `vmm_free_address_space` as the task layer sees it. -/
def vmmFreeAddressSpace (kernel : Kernel) (pageDir : Nat) : Kernel :=
  { kernel with
    pdLive := Function.update kernel.pdLive pageDir false
    frees := ⟨pageDir, kernel.pdLive pageDir,
      (List.range maxCpus).any fun cid => kernel.cr3 cid = pageDir⟩ :: kernel.frees }

/-- `vmm_switch_page_dir`: directory 0 leaves CR3 alone. -/
def vmmSwitchPageDir (kernel : Kernel) (cid pageDir : Nat) : Kernel :=
  if pageDir ≠ 0 then { kernel with cr3 := Function.update kernel.cr3 cid pageDir } else kernel

/-- `deferred_pd_push`: a full queue leaks the directory. -/
def deferredPdPush (kernel : Kernel) (pageDir slot : Nat) : Kernel :=
  if kernel.deferredPdQ.length < deferredPdMax then
    { kernel with deferredPdQ := kernel.deferredPdQ ++ [(pageDir, slot)] }
  else kernel

/-- The tasks other than `tid` that use a page directory. -/
def sharers (kernel : Kernel) (tid pageDir : Nat) : Nat :=
  (List.range maxTasks).countP fun other => 0 < other && other ≠ tid &&
    (kernel.tasks other).state ≠ .free && (kernel.tasks other).pageDir = pageDir

/-- The page-directory part of `task_cleanup`, run on core `cid`. -/
def cleanupPageDir (kernel : Kernel) (cid tid : Nat) : Kernel :=
  let pageDir := (kernel.tasks tid).pageDir
  if pageDir ≠ 0 ∧ pageDir ≠ (kernel.tasks 0).pageDir then
    let kernel :=
      if sharers kernel tid pageDir = 0 then
        if slotStillCurrent kernel tid then deferredPdPush kernel pageDir tid
        else
          let kernel :=
            if kernel.cr3 cid / 4096 = pageDir / 4096 then
              vmmSwitchPageDir kernel cid (kernel.tasks 0).pageDir
            else kernel
          vmmFreeAddressSpace kernel pageDir
      else kernel
    kernel.setTask tid fun task => { task with pageDir := 0 }
  else kernel

/-- `task_cleanup`. -/
def taskCleanup (kernel : Kernel) (cid tid : Nat) : Kernel :=
  if tid = 0 ∨ maxTasks ≤ tid then kernel
  else
    cleanupPageDir (kernel.setTask tid fun task =>
      { task with mmapRegions := mmapFreeDirtyBitmaps task.mmapRegions }) cid tid

/-! ### Termination -/

/-- Give a slot back. -/
def freeSlot (kernel : Kernel) (tid : Nat) : Kernel :=
  { kernel with numTasks := kernel.numTasks - 1 }.setTask tid fun task =>
    { task with state := .free }

/-- One child of a dying task goes to the kernel task; a zombie child is reaped. -/
def reparentChild (kernel : Kernel) (tid child : Nat) : Kernel :=
  if child ≠ tid ∧ (kernel.tasks child).state ≠ .free ∧ (kernel.tasks child).parent = tid then
    if (kernel.tasks child).state = .zombie then freeSlot kernel child
    else kernel.setTask child fun task => { task with parent := 0 }
  else kernel

def reparentChildren (kernel : Kernel) (tid : Nat) : Kernel :=
  ((List.range maxTasks).filter (0 < ·)).foldl (fun kernel child =>
    reparentChild kernel tid child) kernel

/-- Wake a parent that waits for its children, and tell it that one died. -/
def notifyParent (kernel : Kernel) (parent : Nat) : Kernel :=
  let kernel :=
    if (kernel.tasks parent).waiting ≠ 0 then
      rqEnqueueWake (kernel.setTask parent fun task =>
        { task with waiting := 0, state := .ready }) parent
    else kernel
  kernel.setTask parent fun task =>
    { task with pendingSignals := task.pendingSignals ||| (1#32 <<< sigchld) }

/-- The end of `terminate_task`: a live parent keeps the task as a zombie. -/
def buryTask (kernel : Kernel) (tid code : Nat) : Kernel :=
  let parent := (kernel.tasks tid).parent
  if 1 ≤ parent ∧ parent < maxTasks ∧ parent ≠ tid ∧
      (kernel.tasks parent).state ≠ .free ∧ (kernel.tasks parent).state ≠ .zombie then
    notifyParent (kernel.setTask tid fun task =>
      { task with state := .zombie, exitCode := code % 256, zombieSince := kernel.ticks }) parent
  else freeSlot kernel tid

/-- `terminate_task`, run on core `cid`. -/
def terminateTask (kernel : Kernel) (cid tid code : Nat) : Kernel :=
  if tid = 0 ∨ maxTasks ≤ tid then kernel
  else if (kernel.tasks tid).state = .free ∨ (kernel.tasks tid).state = .zombie then kernel
  else
    let kernel := kernel.setTask tid fun task => { task with name := [] }
    buryTask (reparentChildren (taskCleanup (rqRemove kernel tid) cid tid) tid) tid code

/-- `task_exit_with_code` up to its park loop. -/
def taskExitWithCode (kernel : Kernel) (cid code : Nat) : Kernel :=
  match kernel.currentTask cid with
  | none => kernel
  | some tid => if tid = 0 then kernel else terminateTask kernel cid tid code

/-! ### The reaper -/

/-- The pass of `task_reap_zombies` over the deferred directories: an entry whose slot is
FREE and current nowhere is freed, and the last entry takes its place. -/
def reapDeferred : Nat → Kernel → Nat → Kernel
  | 0, kernel, _ => kernel
  | fuel + 1, kernel, index =>
    if index < kernel.deferredPdQ.length then
      let (pageDir, slot) := kernel.deferredPdQ.getD index (0, 0)
      if (kernel.tasks slot).state ≠ .free ∨ slotStillCurrent kernel slot then
        reapDeferred fuel kernel (index + 1)
      else
        let queue := (kernel.deferredPdQ.set index (kernel.deferredPdQ.getLastD (0, 0))).dropLast
        reapDeferred fuel (vmmFreeAddressSpace { kernel with deferredPdQ := queue } pageDir) index
    else kernel

/-- One zombie of the reaper: freed when its parent is gone or it has waited too long. -/
def reapZombie (now : BitVec 32) (kernel : Kernel) (tid : Nat) : Kernel :=
  if (kernel.tasks tid).state ≠ .zombie then kernel
  else
    let parent := (kernel.tasks tid).parent
    let parentGone := parent = 0 ∨ maxTasks ≤ parent ∨ (kernel.tasks parent).state = .free ∨
      (kernel.tasks parent).state = .zombie
    if parentGone ∨ kernel.zombieReapMs < (now - (kernel.tasks tid).zombieSince).toNat then
      freeSlot kernel tid
    else kernel

/-- `task_reap_zombies`, with the time it read before it took the lock. -/
def taskReapZombies (kernel : Kernel) (now : BitVec 32) : Kernel :=
  ((List.range maxTasks).filter (0 < ·)).foldl (reapZombie now)
    (reapDeferred kernel.deferredPdQ.length kernel 0)

end MectovOS.Sched
