/-
This file proves what the permission checks of src/sys/syscall_vfs.c keep, and
shows a call that adds an entry to a directory its caller may not write.
-/

import MectovOS.Vfs.Permission

namespace MectovOS.Vfs

open Transition Function

/-! ### Calls are lookups and an action -/

theorem deletePath_eq (setting : Setting) (nodes : Nodes) (path : Name) (actingUid : Nat) :
    ((deletePath setting.caller setting.busy nodes path actingUid).result,
      (deletePath setting.caller setting.busy nodes path actingUid).nodes) =
      finish setting actingUid (deleteLookup setting.caller nodes path) := by
  unfold deletePath deleteLookup
  rcases walkPath setting.caller nodes path true with ⟨code | node, after⟩
  · rfl
  · rfl

theorem createAt_eq (setting : Setting) (nodes : Nodes) (path : Name) (type : FsType)
    (actingUid : Nat) :
    (resultCode (createAt setting.caller nodes path type).1,
      (createAt setting.caller nodes path type).2) =
      finish setting actingUid (createLookup setting.caller nodes path type) := by
  unfold createAt createLookup getParentNode
  cases getParent setting.caller nodes path maxPath with
  | none => rfl
  | some parentPath =>
    simp only
    rcases walkPath setting.caller nodes parentPath false with ⟨code | parent, after⟩
    · rfl
    · rfl

theorem renamePath_eq (setting : Setting) (nodes : Nodes) (oldPath newPath : Name)
    (actingUid : Nat) :
    ((renamePath setting.caller setting.busy setting.renamed nodes oldPath newPath
        actingUid).result,
      (renamePath setting.caller setting.busy setting.renamed nodes oldPath newPath
        actingUid).nodes) =
      finish setting actingUid (renameLookup setting.caller nodes oldPath newPath actingUid) := by
  unfold renamePath renameLookup getParentNode
  rcases walkPath setting.caller nodes oldPath true with ⟨code | node, after⟩
  · rfl
  simp only
  split
  · rfl
  split
  · rfl
  cases getParent setting.caller after newPath maxPath with
  | none => rfl
  | some parentPath =>
    simp only
    rcases walkPath setting.caller after parentPath false with ⟨code | newParent, found⟩
    · rfl
    simp only
    split
    · rfl
    · rfl

theorem symlink_eq (setting : Setting) (nodes : Nodes) (target path : Name) (actingUid : Nat) :
    (resultCode (symlink setting.caller nodes target path).1,
      (symlink setting.caller nodes target path).2) =
      finish setting actingUid (symlinkLookup setting.caller nodes target path) := by
  unfold symlink symlinkLookup
  split
  · rfl
  rcases linkPlace setting.caller nodes path with code | ⟨dir, name⟩
  · rfl
  · rfl

theorem hardlink_eq (setting : Setting) (nodes : Nodes) (existing path : Name)
    (actingUid : Nat) :
    hardlink setting.caller nodes existing path actingUid =
      finish setting actingUid (hardlinkLookup setting.caller nodes existing path actingUid) := by
  unfold hardlink hardlinkLookup
  rcases walkPath setting.caller nodes existing false with ⟨code | source, after⟩
  · rfl
  simp only
  split
  · rfl
  split
  · rfl
  split
  · rfl
  split
  · rfl
  rcases linkPlace setting.caller after path with code | ⟨dir, name⟩
  · rfl
  · rfl

/-- A call behind its checks resolves its paths, and then it acts. -/
theorem behind_eq (setting : Setting) (checked : Checked) {call : Nodes → Int × Nodes}
    {lookup : Nodes → Except Int Action × Nodes}
    (same : ∀ nodes, call nodes = finish setting setting.caller.uid (lookup nodes)) :
    behind setting.caller checked call =
      finish setting setting.caller.uid (if checked.refuses setting.caller.uid then
        (.error (-1), checked.nodes) else lookup checked.nodes) := by
  unfold behind
  split
  · rfl
  · exact same checked.nodes

/-- A call resolves its paths, and then it acts. -/
theorem FileCall.serve_eq (setting : Setting) (nodes : Nodes) (call : FileCall) :
    call.serve setting nodes =
      finish setting setting.caller.uid (call.resolve setting.caller nodes) := by
  have short : ∀ {long : Bool} {reached : Int × Nodes} {resolved : Except Int Action × Nodes},
      reached = finish setting setting.caller.uid resolved →
      (if long = true then (-1, nodes) else reached) =
        finish setting setting.caller.uid
          (if long = true then (.error (-1), nodes) else resolved) := by
    intro long reached resolved same
    cases long
    · exact same
    · rfl
  cases call with
  | deleteFile path =>
    refine Eq.trans ?_ (@short (FileCall.deleteFile path).overlong _ _
      (behind_eq setting (deleteChecked setting.caller nodes path)
        fun nodes => deletePath_eq setting nodes path _))
    simp only [FileCall.serve, sysDeleteFile, FileCall.overlong, decide_eq_true_eq]
  | renameFile oldPath newPath =>
    refine Eq.trans ?_ (@short (FileCall.renameFile oldPath newPath).overlong _ _
      (behind_eq setting (renameChecked setting.caller nodes oldPath newPath)
        fun nodes => renamePath_eq setting nodes oldPath newPath _))
    simp only [FileCall.serve, sysRenameFile, FileCall.overlong, Bool.or_eq_true,
      decide_eq_true_eq]
  | createFile path =>
    refine Eq.trans ?_ (@short (FileCall.createFile path).overlong _ _
      (behind_eq setting (createChecked setting.caller nodes path)
        fun nodes => createAt_eq setting nodes path .file _))
    simp only [FileCall.serve, sysCreateFile, Vfs.createFile, FileCall.overlong, decide_eq_true_eq]
  | mkdir path =>
    refine Eq.trans ?_ (@short (FileCall.mkdir path).overlong _ _
      (behind_eq setting (createChecked setting.caller nodes path)
        fun nodes => createAt_eq setting nodes path .dir _))
    simp only [FileCall.serve, sysMkdir, Vfs.mkdir, FileCall.overlong, decide_eq_true_eq]
  | symlink target linkPath =>
    refine Eq.trans ?_ (@short (FileCall.symlink target linkPath).overlong _ _
      (symlink_eq setting nodes target linkPath _))
    simp only [FileCall.serve, sysSymlink, FileCall.overlong, Bool.or_eq_true, decide_eq_true_eq]
  | hardlink existing newPath =>
    refine Eq.trans ?_ (@short (FileCall.hardlink existing newPath).overlong _ _
      (hardlink_eq setting nodes existing newPath _))
    simp only [FileCall.serve, sysHardlink, FileCall.overlong, Bool.or_eq_true,
      decide_eq_true_eq]

/-! ### What lookups change -/

variable {caller : Caller} {nodes next : Nodes}

theorem FsNode.place_of_free {node : FsNode} (free : node.inUse = false) : node.place = none :=
  if_neg (by rw [free]; simp)

theorem FsNode.place_congr {node other : FsNode} (used : other.inUse = node.inUse)
    (parent : other.parent = node.parent) (name : other.name = node.name) :
    other.place = node.place := by
  rw [FsNode.place, FsNode.place, used, parent, name]

theorem FsNode.place_some {node : FsNode} {parent : Option Nat} {name : Name}
    (is : node.place = some (parent, name)) :
    node.inUse = true ∧ node.parent = parent ∧ node.name = name := by
  obtain ⟨used, same⟩ := Option.ite_none_right_eq_some.mp is
  obtain ⟨rfl, rfl⟩ := Prod.mk.inj (Option.some.inj same)
  exact ⟨used, rfl, rfl⟩

/-- A node that keeps its place stays in use below its directory. -/
theorem FsNode.place_kept {node other : FsNode} (used : node.inUse = true)
    (same : other.place = node.place) :
    other.inUse = true ∧ other.parent = node.parent ∧ other.name = node.name :=
  FsNode.place_some (same.trans (if_pos used))

theorem LookedUp.refl (nodes : Nodes) : LookedUp nodes nodes := by
  refine ⟨fun _ found => found, fun _ _ => rfl, fun index free used => ?_⟩
  rw [free] at used
  exact absurd used (by simp)

theorem LookedUp.processDir (lookedUp : LookedUp nodes next) {dir : Nat}
    (process : ProcessDir nodes dir) : ProcessDir next dir := by
  obtain ⟨proc, found, rfl | below⟩ := process
  · exact ⟨dir, lookedUp.proc dir found, Or.inl rfl⟩
  · obtain ⟨used, parent, _⟩ := FsNode.place_kept below.1 (lookedUp.kept dir below.1)
    exact ⟨proc, lookedUp.proc proc found, Or.inr ⟨used, parent.trans below.2⟩⟩

theorem LookedUp.trans {middle : Nodes} (first : LookedUp nodes middle)
    (second : LookedUp middle next) : LookedUp nodes next := by
  refine ⟨fun proc found => second.proc proc (first.proc proc found), fun index used => ?_,
    fun index free used => ?_⟩
  · have still := (FsNode.place_kept used (first.kept index used)).1
    exact (second.kept index still).trans (first.kept index used)
  · cases between : (middle index).inUse with
    | true =>
      obtain ⟨dir, parent, process⟩ := first.added index free between
      have same := (FsNode.place_kept between (second.kept index between)).2.1
      exact ⟨dir, same.trans parent, second.processDir process⟩
    | false => exact second.added index between used

theorem findInDir_congr {name : Name} {dir : Nat} (used : (next dir).inUse = (nodes dir).inUse)
    (type : isDirType (next dir).type = isDirType (nodes dir).type)
    (named : ∀ node, isChildNamed next dir name node = isChildNamed nodes dir name node) :
    findInDir next name dir = findInDir nodes name dir := by
  unfold findInDir
  rw [used, type, funext named]

/-- A new node does not take the place of one that is found by its name. -/
theorem Added.stillFound {index uid parent dir found : Nat} {name other : Name}
    (added : Added nodes next index uid name parent)
    (is : findInDir nodes other dir = some found) : findInDir next other dir = some found := by
  have used : (nodes dir).inUse = true := by
    unfold findInDir at is
    split at is
    · exact absurd is (by simp)
    split at is
    · exact absurd is (by simp)
    · rename_i both
      rw [not_or, Bool.not_eq_false] at both
      exact both.1
  have apart : dir ≠ index := by
    rintro rfl
    rw [added.free] at used
    exact absurd used (by simp)
  rw [← is]
  refine findInDir_congr (by rw [added.others dir apart]) (by rw [added.others dir apart])
    fun node => ?_
  unfold isChildNamed
  rcases eq_or_ne node index with rfl | different
  · rw [added.free, added.used, added.name, added.parent]
    by_cases same : parent = dir ∧ strToLower name = strToLower other
    · obtain ⟨rfl, alike⟩ := same
      have alone := added.alone
      unfold findInDir at is alone
      rw [funext fun node => show isChildNamed nodes parent name node =
        isChildNamed nodes parent other node by rw [isChildNamed, isChildNamed, alike]] at alone
      exact absurd (is.symm.trans alone) (by simp)
    · simpa using same
  · rw [added.others node different]

theorem Added.lookedUp {index uid parent : Nat} {name : Name}
    (added : Added nodes next index uid name parent) (process : ProcessDir nodes parent) :
    LookedUp nodes next := by
  have proc : ∀ proc, findInDir nodes procName 0 = some proc →
      findInDir next procName 0 = some proc := fun proc found => added.stillFound found
  have kept : ∀ other, (nodes other).inUse = true → (next other).place = (nodes other).place := by
    intro other used
    rw [added.others other]
    rintro rfl
    rw [added.free] at used
    exact absurd used (by simp)
  refine ⟨proc, kept, fun other free used => ?_⟩
  rcases eq_or_ne other index with rfl | different
  · obtain ⟨dir, found, which⟩ := process
    refine ⟨parent, added.parent, dir, proc dir found, which.imp id fun below => ?_⟩
    obtain ⟨still, same, _⟩ := FsNode.place_kept below.1 (kept parent below.1)
    exact ⟨still, same.trans below.2⟩
  · rw [added.others other different, free] at used
    exact absurd used (by simp)

theorem Idle.inUse (idle : Idle nodes next) (index : Nat) :
    (next index).inUse = (nodes index).inUse := by
  rcases idle index with same | free
  · rw [same]
  · rw [free.1, free.2]

theorem Idle.place (idle : Idle nodes next) (index : Nat) :
    (next index).place = (nodes index).place := by
  rcases idle index with same | free
  · rw [same]
  · rw [FsNode.place_of_free free.1, FsNode.place_of_free free.2]

theorem Idle.lookedUp (idle : Idle nodes next) : LookedUp nodes next := by
  refine ⟨fun proc found => ?_, fun index _ => idle.place index, fun index free used => ?_⟩
  · rw [← found]
    refine findInDir_congr (idle.inUse 0) ?_ fun node => ?_
    · rcases idle 0 with same | free
      · rw [same]
      · unfold findInDir at found
        rw [free.1] at found
        exact absurd found (by simp)
    · unfold isChildNamed
      rcases idle node with same | free
      · rw [same]
      · simp only [free.1, free.2, Bool.false_and]
  · rw [idle.inUse, free] at used
    exact absurd used (by simp)

theorem createNode_lookedUp (nodes : Nodes) (answer : Answer) (uid : Nat) (name : Name)
    (type : FsType) {parent : Nat} (process : ProcessDir nodes parent) :
    LookedUp nodes (createNode nodes answer uid name type parent).2 := by
  rcases createNode_cases nodes answer uid name type parent with
    ⟨index, settled, done, _, added⟩ | ⟨code, next, done, _, idle⟩
  · rw [done]
    exact added.lookedUp process
  · rw [done]
    exact idle.lookedUp

/-- A change within a slot that keeps its place and whether it is a directory. -/
theorem LookedUp.update {index : Nat} {changed : FsNode}
    (used : changed.inUse = (nodes index).inUse) (parent : changed.parent = (nodes index).parent)
    (name : changed.name = (nodes index).name)
    (type : isDirType (nodes index).type = true → isDirType changed.type = true) :
    LookedUp nodes (Function.update nodes index changed) := by
  have keeps : ∀ other, (Function.update nodes index changed other).inUse = (nodes other).inUse ∧
      (Function.update nodes index changed other).parent = (nodes other).parent ∧
      (Function.update nodes index changed other).name = (nodes other).name := by
    intro other
    rcases eq_or_ne other index with rfl | different
    · rw [Function.update_self]
      exact ⟨used, parent, name⟩
    · rw [Function.update_of_ne different]
      exact ⟨rfl, rfl, rfl⟩
  refine ⟨fun proc found => ?_, fun other _ => FsNode.place_congr (keeps other).1 (keeps other).2.1
    (keeps other).2.2, fun other free used => ?_⟩
  · rw [← found]
    refine findInDir_congr (keeps 0).1 ?_ fun node => ?_
    · rcases eq_or_ne 0 index with rfl | different
      · rw [Function.update_self]
        unfold findInDir at found
        split at found
        · exact absurd found (by simp)
        split at found
        · exact absurd found (by simp)
        · rename_i both
          rw [not_or, Bool.not_eq_false, Bool.not_eq_false] at both
          rw [both.2, type both.2]
      · rw [Function.update_of_ne different]
    · unfold isChildNamed
      rw [(keeps node).1, (keeps node).2.1, (keeps node).2.2]
  · rw [(keeps other).1, free] at used
    exact absurd used (by simp)

/-- The lookup of a process adds nothing outside of `/proc`. -/
theorem procLookupPid_lookedUp (nodes : Nodes) {cur : Nat} (comp : Name) (probe : Bool)
    (here : findInDir nodes procName 0 = some cur) :
    LookedUp nodes (procLookupPid caller nodes cur comp probe).2 := by
  have files : ∀ {table : Nodes} {dir : Nat}, LookedUp nodes table → ProcessDir table dir →
      LookedUp nodes (addProcFile caller (addProcFile caller table dir statusName) dir
        cmdlineName) := by
    intro table dir before process
    have status : LookedUp table (addProcFile caller table dir statusName) :=
      createNode_lookedUp _ _ _ _ _ process
    exact (before.trans status).trans
      (createNode_lookedUp _ _ _ _ _ (status.processDir process))
  unfold procLookupPid
  split
  · exact .refl nodes
  rename_i pid _
  split
  · rename_i existing found
    split
    · rename_i kind
      split
      · exact .refl nodes
      · obtain ⟨used, parent, _⟩ := findInDir_some found
        have taken : LookedUp nodes
            (update nodes existing (adopted pid (nodes existing))) :=
          LookedUp.update rfl rfl rfl fun _ => rfl
        exact files taken (taken.processDir ⟨cur, here, Or.inr ⟨used, parent⟩⟩)
    · exact .refl nodes
  · split
    · exact .refl nodes
    split
    · exact .refl nodes
    have created := createNode_lookedUp nodes (caller.entry cur comp) caller.uid comp .dir
      ⟨cur, here, Or.inl rfl⟩
    split
    · rename_i done
      rw [done] at created
      exact created
    · rename_i dir next done
      rw [done] at created
      rcases createNode_cases nodes (caller.entry cur comp) caller.uid comp .dir cur with
        ⟨index, settled, made, _, added⟩ | ⟨code, other, failed, _⟩
      · obtain ⟨same, rfl⟩ := Prod.mk.inj (done.symm.trans made)
        obtain rfl := Except.ok.inj same
        have filled : LookedUp (update nodes dir settled)
            (update (update nodes dir settled) dir
              (synthesized pid comp (update nodes dir settled dir))) :=
          LookedUp.update rfl rfl rfl id
        exact files (created.trans filled) (filled.processDir
          ⟨cur, created.proc cur here, Or.inr ⟨added.used, added.parent⟩⟩)
      · rw [failed] at done
        exact absurd (Prod.mk.inj done).1 (by simp)

theorem procLazyLookup_lookedUp (nodes : Nodes) (cur : Nat) (comp : Name) (probe : Bool) :
    LookedUp nodes (procLazyLookup caller nodes cur comp probe).2 := by
  unfold procLazyLookup
  split
  · exact .refl nodes
  rename_i here
  rw [not_not] at here
  split
  · exact procLookupPid_lookedUp nodes _ probe here
  · exact procLookupPid_lookedUp nodes _ probe here

theorem lookedUp_respected : Respected caller LookedUp :=
  ⟨.refl, fun _ _ _ => .trans, procLazyLookup_lookedUp⟩

variable {respects : Nodes → Nodes → Prop}

theorem Respected.getParentNode (respected : Respected caller respects) (nodes : Nodes)
    (path : Name) : respects nodes (getParentNode caller nodes path).2 := by
  unfold Vfs.getParentNode
  split
  · exact respected.refl nodes
  · exact respected.walkPath nodes _ false

theorem Respected.checked (respected : Respected caller respects) (nodes : Nodes)
    (call : FileCall) : respects nodes (call.checked caller nodes).nodes := by
  cases call with
  | deleteFile path => exact respected.walkPath nodes path false
  | renameFile oldPath newPath =>
    exact respected.trans _ _ _ (respected.walkPath nodes oldPath false)
      (respected.getParentNode _ newPath)
  | createFile path => exact respected.getParentNode nodes path
  | mkdir path => exact respected.getParentNode nodes path
  | symlink _ _ => exact respected.refl nodes
  | hardlink _ _ => exact respected.refl nodes

theorem Respected.probed (respected : Respected caller respects) (nodes : Nodes) (dir : Nat)
    (name : Name) : respects nodes (probed caller nodes dir name) := by
  unfold Vfs.probed
  split
  · exact respected.refl nodes
  · exact respected.looked nodes dir name true

theorem Respected.renameTarget (respected : Respected caller respects) (nodes : Nodes)
    (newParent : Nat) (newPath : Name) :
    respects nodes (renameTarget caller nodes newParent newPath).2 := by
  have walked := respected.walkPath nodes newPath true
  unfold Vfs.renameTarget
  split
  · generalize Vfs.walkPath caller nodes newPath true = reached at walked ⊢
    rcases reached with ⟨code | node, after⟩
    · exact walked
    · exact walked
  · exact respected.refl nodes

theorem Respected.deleteLookup (respected : Respected caller respects) (nodes : Nodes)
    (path : Name) : respects nodes (deleteLookup caller nodes path).2 := by
  have walked := respected.walkPath nodes path true
  unfold Vfs.deleteLookup
  generalize Vfs.walkPath caller nodes path true = reached at walked ⊢
  rcases reached with ⟨code | node, after⟩
  · exact walked
  · exact walked

theorem Respected.renameLookup (respected : Respected caller respects) (nodes : Nodes)
    (oldPath newPath : Name) (actingUid : Nat) :
    respects nodes (renameLookup caller nodes oldPath newPath actingUid).2 := by
  have walked := respected.walkPath nodes oldPath true
  unfold Vfs.renameLookup
  generalize Vfs.walkPath caller nodes oldPath true = reached at walked ⊢
  rcases reached with ⟨code | node, after⟩
  · exact walked
  simp only at walked ⊢
  split
  · exact walked
  split
  · exact walked
  have parent := respected.trans _ _ _ walked (respected.getParentNode after newPath)
  generalize Vfs.getParentNode caller after newPath = reached at parent ⊢
  rcases reached with ⟨code | newParent, found⟩
  · exact parent
  simp only at parent ⊢
  split
  · exact parent
  · exact respected.trans _ _ _ parent (respected.renameTarget found newParent newPath)

theorem Respected.createLookup (respected : Respected caller respects) (nodes : Nodes)
    (path : Name) (type : FsType) : respects nodes (createLookup caller nodes path type).2 := by
  have parent := respected.getParentNode nodes path
  unfold Vfs.createLookup
  generalize Vfs.getParentNode caller nodes path = reached at parent ⊢
  rcases reached with ⟨code | node, after⟩
  · exact parent
  · exact parent

theorem Respected.symlinkLookup (respected : Respected caller respects) (nodes : Nodes)
    (target path : Name) : respects nodes (symlinkLookup caller nodes target path).2 := by
  unfold Vfs.symlinkLookup
  split
  · exact respected.refl nodes
  rcases linkPlace caller nodes path with code | ⟨dir, name⟩
  · exact respected.refl nodes
  · exact respected.probed nodes dir name

theorem Respected.hardlinkLookup (respected : Respected caller respects) (nodes : Nodes)
    (existing path : Name) (actingUid : Nat) :
    respects nodes (hardlinkLookup caller nodes existing path actingUid).2 := by
  have walked := respected.walkPath nodes existing false
  unfold Vfs.hardlinkLookup
  generalize Vfs.walkPath caller nodes existing false = reached at walked ⊢
  rcases reached with ⟨code | source, after⟩
  · exact walked
  simp only at walked ⊢
  split
  · exact walked
  split
  · exact walked
  split
  · exact walked
  split
  · exact walked
  rcases linkPlace caller after path with code | ⟨dir, name⟩
  · exact walked
  · exact respected.trans _ _ _ walked (respected.probed after dir name)

theorem Respected.lookup (respected : Respected caller respects) (nodes : Nodes)
    (call : FileCall) : respects nodes (call.lookup caller nodes).2 := by
  cases call with
  | deleteFile path => exact respected.deleteLookup nodes path
  | renameFile oldPath newPath => exact respected.renameLookup nodes oldPath newPath _
  | createFile path => exact respected.createLookup nodes path .file
  | mkdir path => exact respected.createLookup nodes path .dir
  | symlink target linkPath => exact respected.symlinkLookup nodes target linkPath
  | hardlink existing newPath => exact respected.hardlinkLookup nodes existing newPath _

/-- What the lookups of processes keep to, the lookups of a call keep to. -/
theorem Respected.resolve (respected : Respected caller respects) (nodes : Nodes)
    (call : FileCall) : respects nodes (call.resolve caller nodes).2 := by
  unfold FileCall.resolve
  split
  · exact respected.refl nodes
  split
  · exact respected.checked nodes call
  · exact respected.trans _ _ _ (respected.checked nodes call) (respected.lookup _ call)

/-! ### What an action changes -/

variable {setting : Setting}

theorem mayWrite_used {uid node : Nat} (may : mayWrite nodes uid node = true) :
    node < maxNodes ∧ (nodes node).inUse = true := by
  unfold mayWrite checkPerm at may
  split at may
  · exact absurd may (by simp)
  split at may
  · exact absurd may (by simp)
  · rename_i inside used
    rw [Bool.not_eq_false] at used
    exact ⟨Nat.lt_of_not_le inside, used⟩

/-- The check depends on the type, the owner and the mode only. -/
theorem checkPerm_congr {uid node want : Nat} (used : (next node).inUse = (nodes node).inUse)
    (type : (next node).type = (nodes node).type) (owner : (next node).uid = (nodes node).uid)
    (mode : (next node).mode = (nodes node).mode) :
    checkPerm next uid node want = checkPerm nodes uid node want := by
  unfold checkPerm
  rw [used, type, owner, mode]

theorem Permitted.of_place {uid : Nat}
    (place : ∀ index, (next index).place = (nodes index).place) : Permitted uid nodes next :=
  ⟨fun index _ changed => absurd (place index) changed,
    fun index _ _ _ changed => absurd (place index) changed⟩

/-- What goes was in use and may be written. -/
theorem Permitted.of_gone {uid : Nat}
    (gone : ∀ index, (next index).place = (nodes index).place ∨ ((next index).place = none ∧
      ((nodes index).inUse = true → mayWrite nodes uid index = true))) :
    Permitted uid nodes next := by
  refine ⟨fun index used changed => ((gone index).resolve_left changed).2 used,
    fun index dir name is changed => ?_⟩
  rw [((gone index).resolve_left changed).1] at is
  exact absurd is (by simp)

theorem deleteNode_place {busy : Nat → Bool} {uid node : Nat}
    (may : isDeletable nodes busy node = true →
      ((nodes node).inUse = true → mayWrite nodes uid node = true) ∧ MayClear nodes uid node)
    (index : Nat) :
    ((deleteNode nodes busy uid node).2.nodes index).place = (nodes index).place ∨
      (((deleteNode nodes busy uid node).2.nodes index).place = none ∧
        ((nodes index).inUse = true → mayWrite nodes uid index = true)) := by
  rcases deleteNode_eq nodes busy uid node with ⟨deletable, done⟩ | ⟨_, code, _, done⟩
  · obtain ⟨itself, under⟩ := may deletable
    have freed := deleteSweep_freed nodes uid node
    rw [done]
    show (release (deleteSweep nodes uid node).nodes node index).place = _ ∨
      ((release (deleteSweep nodes uid node).nodes node index).place = none ∧ _)
    unfold release
    rcases eq_or_ne index node with rfl | different
    · rw [update_self]
      exact Or.inr ⟨FsNode.place_of_free rfl, itself⟩
    · rw [update_of_ne different, freed.slot]
      split
      · rename_i member
        exact Or.inr ⟨FsNode.place_of_free rfl, fun _ => under index (freed.may index member)⟩
      · exact Or.inl rfl
  · rw [done]
    exact Or.inl rfl

theorem clearTarget_place {busy : Nat → Bool} {uid newParent : Nat} {name : Name}
    {target : Option Nat}
    (may : ∀ old, target = some old → isDeletable nodes busy old = true →
      mayWrite nodes uid old = true ∧ MayClear nodes uid old) (index : Nat) :
    ((clearTarget nodes busy uid newParent name target).nodes index).place =
        (nodes index).place ∨
      (((clearTarget nodes busy uid newParent name target).nodes index).place = none ∧
        ((nodes index).inUse = true → mayWrite nodes uid index = true)) := by
  unfold clearTarget
  split
  · rename_i old _
    exact deleteNode_place (fun deletable =>
      ⟨fun _ => (may old rfl deletable).1, (may old rfl deletable).2⟩) index
  · exact Or.inl rfl

/-- A rename removes its target and moves the node. -/
theorem renameInto_permitted {busy : Nat → Bool} {renamed : Bool} {uid node newParent : Nat}
    {name : Name} {target : Option Nat} (itself : mayWrite nodes uid node = true)
    (parent : mayWrite nodes uid newParent = true)
    (may : ∀ old, target = some old → isDeletable nodes busy old = true →
      mayWrite nodes uid old = true ∧ MayClear nodes uid old) :
    Permitted uid nodes (renameInto nodes busy renamed uid node newParent name target).nodes := by
  have cleared := @clearTarget_place nodes busy uid newParent name target may
  unfold renameInto
  generalize (clearTarget nodes busy uid newParent name target) = sweep at cleared ⊢
  simp only
  split
  · exact Permitted.of_gone cleared
  have gone := Permitted.of_gone cleared
  refine ⟨fun index used changed => ?_, fun index dir given is changed => ?_⟩
  · rcases eq_or_ne index node with rfl | different
    · exact itself
    · simp only [update_of_ne different] at changed
      exact gone.moved index used changed
  · rcases eq_or_ne index node with rfl | different
    · simp only [update_self] at is
      obtain rfl := Option.some.inj (FsNode.place_some is).2.1
      exact parent
    · simp only [update_of_ne different] at is changed
      exact gone.entered index dir given is changed

/-- A new node enters its directory. -/
theorem Added.permitted {index uid by' parent : Nat} {name : Name}
    (added : Added nodes next index by' name parent) (may : mayWrite nodes uid parent = true) :
    Permitted uid nodes next := by
  refine ⟨fun other used changed => ?_, fun other dir given is changed => ?_⟩
  · rcases eq_or_ne other index with rfl | different
    · rw [added.free] at used
      exact absurd used (by simp)
    · rw [added.others other different] at changed
      exact absurd rfl changed
  · rcases eq_or_ne other index with rfl | different
    · obtain rfl := Option.some.inj (added.parent.symm.trans (FsNode.place_some is).2.1)
      exact may
    · rw [added.others other different] at changed
      exact absurd rfl changed

theorem Permitted.congr {uid : Nat} {other : Nodes} (permitted : Permitted uid nodes next)
    (place : ∀ index, (other index).place = (next index).place) : Permitted uid nodes other :=
  ⟨fun index used changed => permitted.moved index used (by rwa [← place index]),
    fun index dir name is changed => permitted.entered index dir name (by rwa [← place index])
      (by rwa [← place index])⟩

theorem createNode_permitted {uid parent : Nat} (answer : Answer) (by' : Nat) (name : Name)
    (type : FsType) (may : mayWrite nodes uid parent = true) :
    Permitted uid nodes (createNode nodes answer by' name type parent).2 := by
  rcases createNode_cases nodes answer by' name type parent with
    ⟨index, settled, done, _, added⟩ | ⟨code, next, done, _, idle⟩
  · rw [done]
    exact added.permitted may
  · rw [done]
    exact Permitted.of_place idle.place

theorem update_place {index : Nat} {changed : FsNode}
    (same : changed.place = (nodes index).place) (other : Nat) :
    (update nodes index changed other).place = (nodes other).place := by
  rcases eq_or_ne other index with rfl | different
  · rw [update_self, same]
  · rw [update_of_ne different]

theorem symlinkNode_permitted {uid dir : Nat} (by' : Nat) (target name : Name)
    (may : mayWrite nodes uid dir = true) :
    Permitted uid nodes (symlinkNode nodes by' target name dir).2 := by
  have created := createNode_permitted none by' name .symlink may
  unfold symlinkNode
  generalize createNode nodes none by' name .symlink dir = made at created ⊢
  rcases made with ⟨code | link, next⟩
  · exact created
  · exact created.congr (update_place rfl)

theorem hardlinkNode_permitted {uid dir : Nat} (answer : Answer) (by' source : Nat) (name : Name)
    (may : mayWrite nodes uid dir = true) :
    Permitted uid nodes (hardlinkNode nodes answer by' source name dir).2 := by
  have created := createNode_permitted answer by' name .file may
  unfold hardlinkNode
  generalize createNode nodes answer by' name .file dir = made at created ⊢
  rcases made with ⟨code | link, next⟩
  · exact created
  · exact created.congr (update_place rfl)

/-! ### What the checks cover -/

/-- A walk does not take a permission away, unless it makes a directory of a virtual file. -/
theorem Walked.mayWrite {uid node : Nat} (walked : Walked caller nodes next)
    (may : Vfs.mayWrite nodes uid node = true) (type : (nodes node).type ≠ .proc) :
    Vfs.mayWrite next uid node = true := by
  suffices both : Vfs.mayWrite next uid node = true ∧ (next node).type ≠ .proc from both.1
  induction walked with
  | refl => exact ⟨may, type⟩
  | @tail before after _ step inductionHypothesis =>
    obtain ⟨may, type⟩ := inductionHypothesis
    cases step with
    | create answer name kind parent _ =>
      have same := createNode_extends before answer caller.uid name kind parent node
        (mayWrite_used may).2
      exact ⟨(checkPerm_congr (by rw [same]) (by rw [same]) (by rw [same]) (by rw [same])).trans may,
        by rw [same]; exact type⟩
    | @relabel index changed relabelled used _ =>
      rcases eq_or_ne node index with rfl | different
      · have kept := relabelled.type.resolve_right fun virtual => type virtual.1
        refine ⟨(checkPerm_congr ?_ ?_ ?_ ?_).trans may, ?_⟩
        · rw [update_self, relabelled.inUse]
        · rw [update_self, kept]
        · rw [update_self, relabelled.owner.1]
        · rw [update_self, relabelled.owner.2.2]
        · rw [update_self, kept]
          exact type
      · have same : update before index changed node = before node :=
          update_of_ne different _ _
        exact ⟨(checkPerm_congr (by rw [same]) (by rw [same]) (by rw [same])
          (by rw [same])).trans may, by rw [same]; exact type⟩

/-- What passed a check is still writable when the call acts. -/
theorem Covered.mayWrite {checked : Checked} {uid node : Nat}
    (covered : Covered checked nodes uid node) (passed : checked.refuses uid = false)
    (walked : Walked caller checked.nodes nodes) : mayWrite nodes uid node = true := by
  rcases covered with ⟨found, type⟩ | may
  · refine walked.mayWrite ?_ type
    have passes := List.any_eq_false.mp passed (.ok node) found
    simpa using passes
  · exact may

/-- An action that is allowed keeps to the permissions. -/
theorem Action.permitted {checked : Checked} {setting : Setting} {action : Action}
    (allowed : action.Allowed checked nodes setting.busy setting.caller.uid)
    (passed : checked.refuses setting.caller.uid = false)
    (walked : Walked setting.caller checked.nodes nodes) :
    Permitted setting.caller.uid nodes (action.run setting setting.caller.uid nodes).2 := by
  cases action with
  | delete node =>
    refine Permitted.of_gone (deleteNode_place fun deletable => ?_)
    exact ⟨fun _ => (allowed deletable).1.mayWrite passed walked, (allowed deletable).2⟩
  | rename node newParent name target =>
    obtain ⟨itself, parent, may⟩ := allowed
    exact renameInto_permitted (itself.mayWrite passed walked) (parent.mayWrite passed walked) may
  | create type name parent =>
    exact createNode_permitted _ _ name type (Covered.mayWrite allowed passed walked)
  | symlink target name dir => exact symlinkNode_permitted _ target name allowed
  | hardlink source name dir => exact hardlinkNode_permitted _ _ source name allowed

/-- A call that acts has passed its checks, and the lookups behind them are walks. -/
theorem FileCall.resolve_ok {call : FileCall} {action : Action}
    (is : (call.resolve caller nodes).1 = .ok action) :
    (call.checked caller nodes).refuses caller.uid = false ∧
      Walked caller (call.checked caller nodes).nodes (call.resolve caller nodes).2 := by
  unfold FileCall.resolve at is ⊢
  split
  · rename_i long
    rw [if_pos long] at is
    exact absurd is (by simp)
  rename_i long
  rw [if_neg long] at is
  split
  · rename_i refused
    rw [if_pos refused] at is
    exact absurd is (by simp)
  · rename_i passed
    rw [Bool.not_eq_true] at passed
    exact ⟨passed, Respected.lookup ⟨fun _ => .refl, fun _ _ _ => .trans, procLazyLookup_walked⟩ _
      call⟩

/-- In every run of calls whose actions are allowed, the permissions are kept. -/
theorem permissions_kept {uid : Nat} {state : CallState}
    (reachable : (callSystem uid).Reachable Allowed state) : PermissionsKept uid state := by
  refine reachable.invariant (PermissionsKept uid) ?_ ?_
  · rintro state ⟨looked, same⟩
    unfold PermissionsKept
    rw [looked, same]
    exact ⟨.refl _, Permitted.of_place fun _ => rfl⟩
  · rintro state ⟨setting, call⟩ next _ allowed ⟨rfl, rfl⟩
    refine ⟨lookedUp_respected.resolve state.nodes call, ?_⟩
    show Permitted setting.caller.uid (call.resolve setting.caller state.nodes).2
      (call.serve setting state.nodes).2
    rw [FileCall.serve_eq]
    have resolved := @FileCall.resolve_ok setting.caller state.nodes call
    have allowed' : ∀ action, (call.resolve setting.caller state.nodes).1 = .ok action →
      action.Allowed (call.checked setting.caller state.nodes)
        (call.resolve setting.caller state.nodes).2 setting.busy setting.caller.uid := allowed
    generalize call.resolve setting.caller state.nodes = reached at resolved allowed' ⊢
    rcases reached with ⟨code | action, looked⟩
    · exact Permitted.of_place fun _ => rfl
    · obtain ⟨passed, walked⟩ := resolved rfl
      exact Action.permitted (allowed' action rfl) passed walked

/-! ### Two runs -/

/-- The root, and the home of user 1000 that only its owner may write. -/
def homeTable : Nodes
  | 0 => ⟨['/'], .dir, none, 0, 0, true, 0, 0, 0, 0x1FF, []⟩
  | 1 => ⟨['h'], .dir, some 0, 0, 0, true, 0, 1000, 0, 0x1ED, []⟩
  | _ => ⟨[], .file, none, 0, 0, false, 0, 0, 0, 0, []⟩

/-- A user at the root, without open files. -/
def userSetting (uid : Nat) : Setting :=
  ⟨⟨1, uid, 0, fun _ => false, fun _ _ => none⟩, fun _ => false, true⟩

/-- The state before the first call. -/
def homeState : CallState := ⟨homeTable, homeTable, homeTable⟩

theorem create_resolve : ((FileCall.createFile ['/', 'h', '/', 'f']).resolve
      (userSetting 1000).caller homeState.nodes).1 = .ok (.create .file ['f'] 1) ∧
    .ok 1 ∈ ((FileCall.createFile ['/', 'h', '/', 'f']).checked
      (userSetting 1000).caller homeState.nodes).found ∧
    (((FileCall.createFile ['/', 'h', '/', 'f']).checked
      (userSetting 1000).caller homeState.nodes).nodes 1).type ≠ .proc := by
  decide +kernel

/-- The home with a new file of its owner. -/
def fileCreated : CallState :=
  homeState.after (userSetting 1000) (.createFile ['/', 'h', '/', 'f'])

theorem fileCreated_place : (fileCreated.nodes 2).place = some (some 1, ['f']) := by
  decide +kernel

/-- The owner creates a file in its home. -/
theorem permissions_kept_create : ∃ state : CallState,
    (state.nodes 2).place = some (some 1, ['f']) ∧ PermissionsKept 1000 state := by
  have initial : (callSystem 1000).Reachable Allowed homeState := .init ⟨rfl, rfl⟩
  have allowed : Allowed homeState (userSetting 1000, .createFile ['/', 'h', '/', 'f']) := by
    intro action is
    obtain rfl := Except.ok.inj (create_resolve.1.symm.trans is)
    simp only [Action.Allowed, Covered]
    refine Or.inl ?_
    exact create_resolve.2
  have created : (callSystem 1000).Reachable Allowed fileCreated := initial.step allowed ⟨rfl, rfl⟩
  exact ⟨fileCreated, fileCreated_place, permissions_kept created⟩

/-- The home with a link of another user. -/
def linkMade : CallState :=
  homeState.after (userSetting 1001) (.symlink ['x'] ['/', 'h', '/', 'l'])

theorem linkMade_entered : (linkMade.nodes 2).place = some (some 1, ['l']) ∧
    (linkMade.looked 2).place = none ∧ mayWrite linkMade.looked 1001 1 = false := by
  decide +kernel

/-- Another user makes a link in a directory that it may not write. -/
theorem symlink_unchecked : ¬ ∀ uid ≠ rootUid, ∀ state,
    (callSystem uid).Reachable anyStep state → PermissionsKept uid state := by
  intro kept
  have initial : (callSystem 1001).Reachable anyStep homeState := .init ⟨rfl, rfl⟩
  have linked : (callSystem 1001).Reachable anyStep linkMade := initial.step
    (show anyStep homeState (userSetting 1001, .symlink ['x'] ['/', 'h', '/', 'l']) from trivial)
    ⟨rfl, rfl⟩
  obtain ⟨entry, before, denied⟩ := linkMade_entered
  have may := (kept 1001 (by decide) _ linked).2.entered 2 1 ['l'] entry
    (by rw [entry, before]; simp)
  exact absurd (denied.symm.trans may) (by simp)

end MectovOS.Vfs
