/-
This file models the permission checks of src/sys/syscall_vfs.c: the six calls of
a task in Ring 3 that change the tree. Four of them look up nodes, check them,
and then call into src/sys/vfs.c, which looks its paths up again; the calls that
make links check nothing. `busy` tells which nodes a descriptor of a file is open
on, `renamed` is the answer of a volume, and the paths lie in memory of the
caller.
-/

import MectovOS.Lib.Transition
import MectovOS.Vfs.Calls

namespace MectovOS.Vfs

open Transition

/-! ### Checks -/

/-- `S_IWUSR`. -/
def sIwusr : Nat := 0x080

/-- `vfs_check_perm`. -/
def checkPerm (nodes : Nodes) (uid node want : Nat) : Bool :=
  if maxNodes ≤ node then false
  else if (nodes node).inUse = false then false
  else if (nodes node).type = .fat32File ∨ (nodes node).type = .fat32Dir ∨
      (nodes node).type = .proc ∨ (nodes node).type = .dev then
    true
  else if uid = rootUid then true
  else
    let bits := if uid = (nodes node).uid then (nodes node).mode >>> 6 &&& 7
      else (nodes node).mode &&& 7
    decide (bits &&& (want >>> 6 &&& 7) ≠ 0)

/-- The write permission that the calls ask for. -/
abbrev mayWrite (nodes : Nodes) (uid node : Nat) : Bool := checkPerm nodes uid node sIwusr

/-- What the lookups in front of a call found, and the table behind them. -/
structure Checked where
  found : List (Except Int Nat)
  nodes : Nodes

/-- A check refuses a node that was found and may not be written; a lookup that found none passes. -/
def Checked.refuses (checked : Checked) (uid : Nat) : Bool :=
  checked.found.any fun result =>
    match result with
    | .ok node => !mayWrite checked.nodes uid node
    | .error _ => false

/-- The lookup of the directory that a path lies in. -/
def getParentNode (caller : Caller) (nodes : Nodes) (path : Name) : Except Int Nat × Nodes :=
  match getParent caller nodes path maxPath with
  | none => (.error (-1), nodes)
  | some parentPath => walkPath caller nodes parentPath false

/-- A call behind its checks. -/
def behind (caller : Caller) (checked : Checked) (call : Nodes → Int × Nodes) : Int × Nodes :=
  if checked.refuses caller.uid then (-1, checked.nodes) else call checked.nodes

/-! ### The calls -/

/-- The check of `SYS_DELETE_FILE`, which follows a link that the delete does not follow. -/
def deleteChecked (caller : Caller) (nodes : Nodes) (path : Name) : Checked :=
  let found := walkPath caller nodes path false
  ⟨[found.1], found.2⟩

/-- `SYS_DELETE_FILE`. -/
def sysDeleteFile (caller : Caller) (busy : Nat → Bool) (nodes : Nodes) (path : Name) :
    Int × Nodes :=
  if maxPath ≤ path.length then (-1, nodes)
  else behind caller (deleteChecked caller nodes path) fun nodes =>
    let done := deletePath caller busy nodes path caller.uid
    (done.result, done.nodes)

/-- The check of `SYS_RENAME_FILE`: the source and the directory it goes to. -/
def renameChecked (caller : Caller) (nodes : Nodes) (oldPath newPath : Name) : Checked :=
  let found := walkPath caller nodes oldPath false
  let parent := getParentNode caller found.2 newPath
  ⟨[found.1, parent.1], parent.2⟩

/-- `SYS_RENAME_FILE`. -/
def sysRenameFile (caller : Caller) (busy : Nat → Bool) (renamed : Bool) (nodes : Nodes)
    (oldPath newPath : Name) : Int × Nodes :=
  if maxPath ≤ oldPath.length ∨ maxPath ≤ newPath.length then (-1, nodes)
  else behind caller (renameChecked caller nodes oldPath newPath) fun nodes =>
    let done := renamePath caller busy renamed nodes oldPath newPath caller.uid
    (done.result, done.nodes)

/-- The check that `SYS_CREATE_FILE` and `SYS_MKDIR` share. -/
def createChecked (caller : Caller) (nodes : Nodes) (path : Name) : Checked :=
  let parent := getParentNode caller nodes path
  ⟨[parent.1], parent.2⟩

/-- `SYS_CREATE_FILE`. -/
def sysCreateFile (caller : Caller) (nodes : Nodes) (path : Name) : Int × Nodes :=
  if maxPath ≤ path.length then (-1, nodes)
  else behind caller (createChecked caller nodes path) fun nodes =>
    let done := createFile caller nodes path
    (resultCode done.1, done.2)

/-- `SYS_MKDIR`. -/
def sysMkdir (caller : Caller) (nodes : Nodes) (path : Name) : Int × Nodes :=
  if maxPath ≤ path.length then (-1, nodes)
  else behind caller (createChecked caller nodes path) fun nodes =>
    let done := mkdir caller nodes path
    (resultCode done.1, done.2)

/-- `SYS_SYMLINK`. -/
def sysSymlink (caller : Caller) (nodes : Nodes) (target linkPath : Name) : Int × Nodes :=
  if maxPath ≤ target.length ∨ maxPath ≤ linkPath.length then (-1, nodes)
  else
    let done := symlink caller nodes target linkPath
    (resultCode done.1, done.2)

/-- `SYS_HARDLINK`. -/
def sysHardlink (caller : Caller) (nodes : Nodes) (existing newPath : Name) : Int × Nodes :=
  if maxPath ≤ existing.length ∨ maxPath ≤ newPath.length then (-1, nodes)
  else hardlink caller nodes existing newPath caller.uid

/-- One of the six calls. -/
inductive FileCall where
  | deleteFile (path : Name)
  | renameFile (oldPath newPath : Name)
  | createFile (path : Name)
  | mkdir (path : Name)
  | symlink (target linkPath : Name)
  | hardlink (existing newPath : Name)

/-- What surrounds a call: the caller, the descriptors, and the answer of the volume. -/
structure Setting where
  caller : Caller
  busy : Nat → Bool
  renamed : Bool

def FileCall.serve (setting : Setting) (nodes : Nodes) : FileCall → Int × Nodes
  | .deleteFile path => sysDeleteFile setting.caller setting.busy nodes path
  | .renameFile oldPath newPath =>
    sysRenameFile setting.caller setting.busy setting.renamed nodes oldPath newPath
  | .createFile path => sysCreateFile setting.caller nodes path
  | .mkdir path => sysMkdir setting.caller nodes path
  | .symlink target linkPath => sysSymlink setting.caller nodes target linkPath
  | .hardlink existing newPath => sysHardlink setting.caller nodes existing newPath

/-! ### Lookups and what follows them -/

/-- What is left of a call once its paths are resolved. -/
inductive Action where
  | delete (node : Nat)
  | rename (node newParent : Nat) (name : Name) (target : Option Nat)
  | create (type : FsType) (name : Name) (parent : Nat)
  | symlink (target name : Name) (dir : Nat)
  | hardlink (source : Nat) (name : Name) (dir : Nat)
  deriving DecidableEq

def Action.run (setting : Setting) (actingUid : Nat) (nodes : Nodes) : Action → Int × Nodes
  | .delete node =>
    let done := deleteNode nodes setting.busy actingUid node
    (done.1, done.2.nodes)
  | .rename node newParent name target =>
    let done := renameInto nodes setting.busy setting.renamed actingUid node newParent name target
    (done.result, done.nodes)
  | .create type name parent =>
    let done := createNode nodes (setting.caller.entry parent name) setting.caller.uid name type
      parent
    (resultCode done.1, done.2)
  | .symlink target name dir =>
    let done := symlinkNode nodes setting.caller.uid target name dir
    (resultCode done.1, done.2)
  | .hardlink source name dir =>
    hardlinkNode nodes (setting.caller.entry dir name) setting.caller.uid source name dir

/-- The end of a call: the lookups failed, or what they found is acted on. -/
def finish (setting : Setting) (actingUid : Nat) : Except Int Action × Nodes → Int × Nodes
  | (.error code, looked) => (code, looked)
  | (.ok action, looked) => action.run setting actingUid looked

/-- The lookups of `vfs_delete_node`. -/
def deleteLookup (caller : Caller) (nodes : Nodes) (path : Name) : Except Int Action × Nodes :=
  match walkPath caller nodes path true with
  | (.error _, after) => (.error (-1), after)
  | (.ok node, after) => (.ok (.delete node), after)

/-- The lookups of `vfs_rename`. -/
def renameLookup (caller : Caller) (nodes : Nodes) (oldPath newPath : Name) (actingUid : Nat) :
    Except Int Action × Nodes :=
  match walkPath caller nodes oldPath true with
  | (.error _, after) => (.error (-1), after)
  | (.ok node, after) =>
    if node = 0 then (.error (-3), after)
    else if isProtected after actingUid node then (.error (-8), after)
    else
      match getParentNode caller after newPath with
      | (.error _, found) => (.error (-1), found)
      | (.ok newParent, found) =>
        if newParent = node ∨ leadsThrough found node (maxNodes + 1) (some newParent) then
          (.error (-4), found)
        else
          let target := renameTarget caller found newParent newPath
          (.ok (.rename node newParent (lastName newPath) target.1), target.2)

/-- The lookups of `vfs_mkdir` and `vfs_create_file`. -/
def createLookup (caller : Caller) (nodes : Nodes) (path : Name) (type : FsType) :
    Except Int Action × Nodes :=
  match getParentNode caller nodes path with
  | (.error _, after) => (.error (-1), after)
  | (.ok parent, after) => (.ok (.create type (lastName path) parent), after)

/-- The lookups of `vfs_symlink`. -/
def symlinkLookup (caller : Caller) (nodes : Nodes) (target path : Name) :
    Except Int Action × Nodes :=
  if target = [] ∨ symlinkMax ≤ target.length then (.error (-1), nodes)
  else
    match linkPlace caller nodes path with
    | .error code => (.error code, nodes)
    | .ok (dir, name) => (.ok (.symlink target name dir), probed caller nodes dir name)

/-- The lookups of `vfs_hardlink`. -/
def hardlinkLookup (caller : Caller) (nodes : Nodes) (existing path : Name) (actingUid : Nat) :
    Except Int Action × Nodes :=
  match walkPath caller nodes existing false with
  | (.error _, after) => (.error (-1), after)
  | (.ok source, after) =>
    if (after source).type ≠ .file then (.error (-3), after)
    else if (after source).dataSector = 0 then (.error (-4), after)
    else if actingUid ≠ rootUid ∧ (after source).uid ≠ actingUid then (.error (-8), after)
    else if isProtected after actingUid source then (.error (-8), after)
    else
      match linkPlace caller after path with
      | .error code => (.error code, after)
      | .ok (dir, name) => (.ok (.hardlink source name dir), probed caller after dir name)

/-- Is a path of the call too long? -/
def FileCall.overlong : FileCall → Bool
  | .deleteFile path => decide (maxPath ≤ path.length)
  | .renameFile oldPath newPath =>
    decide (maxPath ≤ oldPath.length) || decide (maxPath ≤ newPath.length)
  | .createFile path => decide (maxPath ≤ path.length)
  | .mkdir path => decide (maxPath ≤ path.length)
  | .symlink target linkPath =>
    decide (maxPath ≤ target.length) || decide (maxPath ≤ linkPath.length)
  | .hardlink existing newPath =>
    decide (maxPath ≤ existing.length) || decide (maxPath ≤ newPath.length)

/-- The checks of a call: the calls that make links have none. -/
def FileCall.checked (caller : Caller) (nodes : Nodes) : FileCall → Checked
  | .deleteFile path => deleteChecked caller nodes path
  | .renameFile oldPath newPath => renameChecked caller nodes oldPath newPath
  | .createFile path => createChecked caller nodes path
  | .mkdir path => createChecked caller nodes path
  | .symlink _ _ => ⟨[], nodes⟩
  | .hardlink _ _ => ⟨[], nodes⟩

/-- The lookups of a call behind its checks. -/
def FileCall.lookup (caller : Caller) (nodes : Nodes) : FileCall → Except Int Action × Nodes
  | .deleteFile path => deleteLookup caller nodes path
  | .renameFile oldPath newPath => renameLookup caller nodes oldPath newPath caller.uid
  | .createFile path => createLookup caller nodes path .file
  | .mkdir path => createLookup caller nodes path .dir
  | .symlink target linkPath => symlinkLookup caller nodes target linkPath
  | .hardlink existing newPath => hardlinkLookup caller nodes existing newPath caller.uid

/-- What a call comes to: nothing, or an action and the table it acts on. -/
def FileCall.resolve (caller : Caller) (nodes : Nodes) (call : FileCall) :
    Except Int Action × Nodes :=
  if call.overlong then (.error (-1), nodes)
  else if (call.checked caller nodes).refuses caller.uid then
    (.error (-1), (call.checked caller nodes).nodes)
  else call.lookup caller (call.checked caller nodes).nodes

/-! ### The law -/

/-- Where a node is to be found: its directory and its name. -/
def FsNode.place (node : FsNode) : Option (Option Nat × Name) :=
  if node.inUse then some (node.parent, node.name) else none

/-- The directory `/proc`, or a directory in it. -/
def ProcessDir (nodes : Nodes) (dir : Nat) : Prop :=
  ∃ proc, findInDir nodes procName 0 = some proc ∧ (dir = proc ∨ ParentOf nodes dir proc)

/-- Lookups remove and rename nothing, and what they add is a process or a file of one. -/
structure LookedUp (nodes next : Nodes) : Prop where
  proc : ∀ proc, findInDir nodes procName 0 = some proc → findInDir next procName 0 = some proc
  kept : ∀ index, (nodes index).inUse = true → (next index).place = (nodes index).place
  added : ∀ index, (nodes index).inUse = false → (next index).inUse = true →
    ∃ dir, (next index).parent = some dir ∧ ProcessDir next dir

/-- The caller may write each node that goes or gets another place, and each directory that gets
an entry. -/
structure Permitted (uid : Nat) (nodes next : Nodes) : Prop where
  moved : ∀ index, (nodes index).inUse = true → (next index).place ≠ (nodes index).place →
    mayWrite nodes uid index = true
  entered : ∀ index dir name, (next index).place = some (some dir, name) →
    (next index).place ≠ (nodes index).place → mayWrite nodes uid dir = true

/-- The tables before a call, behind its lookups, and behind the call. -/
structure CallState where
  before : Nodes
  looked : Nodes
  nodes : Nodes

/-- Each call keeps to the permissions of its caller. -/
def PermissionsKept (uid : Nat) (state : CallState) : Prop :=
  LookedUp state.before state.looked ∧ Permitted uid state.looked state.nodes

/-- The tables of the next call. -/
def CallState.after (state : CallState) (setting : Setting) (call : FileCall) : CallState :=
  ⟨state.nodes, (call.resolve setting.caller state.nodes).2, (call.serve setting state.nodes).2⟩

/-- The calls of one user, in any order. -/
def callSystem (uid : Nat) : System CallState (Setting × FileCall) where
  init state := state.looked = state.before ∧ state.nodes = state.before
  step state label next := label.1.caller.uid = uid ∧ next = state.after label.1 label.2

/-! ### When the checks are enough -/

/-- The node is one that was checked, or one that the caller may write. -/
def Covered (checked : Checked) (nodes : Nodes) (uid node : Nat) : Prop :=
  (.ok node ∈ checked.found ∧ (checked.nodes node).type ≠ .proc) ∨ mayWrite nodes uid node = true

/-- The caller may write what a removal of the node takes with it. -/
def MayClear (nodes : Nodes) (uid node : Nat) : Prop :=
  ∀ index, Below nodes node index → mayWrite nodes uid index = true

/-- What an action touches is covered by the checks or may be written: the node and its subtree
for a delete; the node, the directory, and the target that goes with its subtree for a rename;
the directory for what is new. -/
def Action.Allowed (checked : Checked) (nodes : Nodes) (busy : Nat → Bool) (uid : Nat) :
    Action → Prop
  | .delete node =>
    isDeletable nodes busy node = true → Covered checked nodes uid node ∧ MayClear nodes uid node
  | .rename node newParent _ target =>
    Covered checked nodes uid node ∧ Covered checked nodes uid newParent ∧
      ∀ old, target = some old → isDeletable nodes busy old = true →
        mayWrite nodes uid old = true ∧ MayClear nodes uid old
  | .create _ _ parent => Covered checked nodes uid parent
  | .symlink _ _ dir => mayWrite nodes uid dir = true
  | .hardlink _ _ dir => mayWrite nodes uid dir = true

/-- What a call comes to is allowed. -/
def Allowed (state : CallState) (label : Setting × FileCall) : Prop :=
  ∀ action, (label.2.resolve label.1.caller state.nodes).1 = .ok action →
    action.Allowed (label.2.checked label.1.caller state.nodes)
      (label.2.resolve label.1.caller state.nodes).2 label.1.busy label.1.caller.uid

end MectovOS.Vfs
