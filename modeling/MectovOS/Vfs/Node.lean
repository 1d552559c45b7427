/-
This file models the node table of src/sys/vfs.c: the nodes, the lookup of a
name in a directory, and the absolute path that is read back from the parent
links. Names are strings without their terminating zero, and a negative parent
index is `none`.
-/

import Mathlib.Data.List.Basic
import Mathlib.Logic.Function.Basic

namespace MectovOS.Vfs

/-! ### Nodes -/

/-- `MAX_NODES`, `MAX_FILENAME`, `MAX_PATH` and `ROOT_UID`. -/
def maxNodes : Nat := 2048
def maxFilename : Nat := 32
def maxPath : Nat := 256
def rootUid : Nat := 0

/-- `fs_type_t`. -/
inductive FsType where
  | file
  | dir
  | dev
  | ext2File
  | ext2Dir
  | fat32File
  | fat32Dir
  | proc
  | symlink
  | ramDir
  | ramFile
  deriving DecidableEq

/-- A name or a path. -/
abbrev Name := List Char

/-- `fs_node_t`; `pad` holds the target of a symbolic link. -/
structure FsNode where
  name : Name
  type : FsType
  parent : Option Nat
  size : Nat
  dataSector : Nat
  inUse : Bool
  ext2Inode : Nat
  uid : Nat
  gid : Nat
  mode : Nat
  pad : Name
  deriving DecidableEq

/-- `fs_nodes`. -/
abbrev Nodes := Nat → FsNode

/-- `vfs_is_dir_type`, and the test that guards creation and lookup. -/
def isDirType (type : FsType) : Bool :=
  decide (type = .dir) || decide (type = .ext2Dir) || decide (type = .fat32Dir) ||
    decide (type = .ramDir)

/-- `vfs_is_ram_type`. -/
def isRamType (type : FsType) : Bool := decide (type = .ramDir) || decide (type = .ramFile)

/-- `vfs_is_dir`, which leaves out RAM directories. -/
def isDir (nodes : Nodes) (node : Nat) : Bool :=
  decide (node < maxNodes) && (nodes node).inUse &&
    (decide ((nodes node).type = .dir) || decide ((nodes node).type = .ext2Dir) ||
      decide ((nodes node).type = .fat32Dir))

/-! ### Names -/

/-- One step of `strtolower`. -/
def lowerChar (char : Char) : Char :=
  if 'A' ≤ char ∧ char ≤ 'Z' then Char.ofNat (char.toNat + 32) else char

def strToLower (name : Name) : Name := name.map lowerChar

/-- `copy_node_name`; on a failure it leaves a part of the name in the free slot, where nobody
reads it. -/
def copyNodeName (name : Name) : Option Name :=
  if name = [] then none
  else if '/' ∈ name ∨ maxFilename ≤ name.length then none
  else some name

/-! ### Lookup -/

/-- Is the node a child of the directory with that name, up to case? -/
def isChildNamed (nodes : Nodes) (dir : Nat) (name : Name) (node : Nat) : Bool :=
  (nodes node).inUse && decide ((nodes node).parent = some dir) &&
    decide (strToLower (nodes node).name = strToLower name)

/-- `vfs_walk_child`. -/
def walkChild (nodes : Nodes) (cur : Nat) (name : Name) : Option Nat :=
  if maxNodes ≤ cur ∨ (nodes cur).inUse = false then none
  else (List.range maxNodes).find? (isChildNamed nodes cur name)

/-- `vfs_find_in_dir`. -/
def findInDir (nodes : Nodes) (name : Name) (dir : Nat) : Option Nat :=
  if maxNodes ≤ dir then none
  else if (nodes dir).inUse = false ∨ isDirType (nodes dir).type = false then none
  else (List.range maxNodes).find? (isChildNamed nodes dir name)

/-- What a lookup finds is a child of that name. -/
theorem findInDir_some {nodes : Nodes} {name : Name} {dir node : Nat}
    (found : findInDir nodes name dir = some node) :
    (nodes node).inUse = true ∧ (nodes node).parent = some dir ∧
      strToLower (nodes node).name = strToLower name := by
  unfold findInDir at found
  split at found
  · exact absurd found (by simp)
  split at found
  · exact absurd found (by simp)
  · have named := List.find?_some found
    unfold isChildNamed at named
    simp only [Bool.and_eq_true, decide_eq_true_eq] at named
    exact ⟨named.1.1, named.1.2, named.2⟩

/-! ### Absolute paths -/

/-- The loop of `vfs_get_abs_path` that goes up to the root and keeps at most 16 names, the one
nearest to the root first. -/
def pathStack (nodes : Nodes) : Nat → List Name → Option Nat → List Name
  | 0, stack, _ => stack
  | _ + 1, stack, none => stack
  | hops + 1, stack, some cur =>
    if (nodes cur).inUse = false then stack
    else
      let pushed := if cur ≠ 0 ∧ (nodes cur).name ≠ [] then (nodes cur).name :: stack else stack
      if 16 ≤ pushed.length then pushed else pathStack nodes hops pushed (nodes cur).parent

/-- The loop that joins the names as long as they fit. -/
def joinPath (bufSize : Nat) : Name → List Name → Name
  | path, [] => path
  | path, name :: rest =>
    if bufSize - 1 ≤ path.length + name.length then path
    else joinPath bufSize ((if 1 < path.length then path ++ ['/'] else path) ++ name) rest

/-- `vfs_get_abs_path`: its result and the path it leaves in the buffer. -/
def getAbsPath (nodes : Nodes) (node : Option Nat) (bufSize : Nat) : Int × Name :=
  match node with
  | none => (-1, ['?'])
  | some index =>
    if maxNodes ≤ index ∨ (nodes index).inUse = false then (-1, ['?'])
    else
      let path := joinPath bufSize ['/'] (pathStack nodes maxNodes [] (some index))
      (path.length, path)

theorem joinPath_length (bufSize : Nat) (path : Name) (stack : List Name) :
    path.length ≤ (joinPath bufSize path stack).length := by
  induction stack generalizing path with
  | nil => exact Nat.le_refl _
  | cons name rest inductionHypothesis =>
    unfold joinPath
    split
    · exact Nat.le_refl _
    · refine Nat.le_trans ?_ (inductionHypothesis _)
      split
      · rw [List.length_append, List.length_append]
        omega
      · rw [List.length_append]
        omega

/-- `vfs_get_abs_path` returns the length of the path or -1, never 0. -/
theorem getAbsPath_ne_zero (nodes : Nodes) (node : Option Nat) (bufSize : Nat) :
    (getAbsPath nodes node bufSize).1 ≠ 0 := by
  unfold getAbsPath
  split
  · decide
  split
  · decide
  · rename_i index _
    have long := joinPath_length bufSize ['/'] (pathStack nodes maxNodes [] (some index))
    rw [List.length_singleton] at long
    show ((_ : Nat) : Int) ≠ 0
    omega

/-! ### Protected files -/

/-- `PASSWD_PROTECT_PATH`. -/
def passwdProtectPath : Name := ['/', 'e', 't', 'c', '/', 'p', 'a', 's', 's', 'w', 'd']

/-- The guard of the account file: the caller is not root, and the path that is read back is the
protected one. The guard asks for a result of 0. -/
def isProtected (nodes : Nodes) (actingUid node : Nat) : Bool :=
  decide (actingUid ≠ rootUid) && decide ((getAbsPath nodes (some node) maxPath).1 = 0) &&
    decide ((getAbsPath nodes (some node) maxPath).2 = passwdProtectPath)

/-- The guard never holds. -/
theorem isProtected_eq_false (nodes : Nodes) (actingUid node : Nat) :
    isProtected nodes actingUid node = false := by
  unfold isProtected
  rw [decide_eq_false (getAbsPath_ne_zero nodes (some node) maxPath), Bool.and_false,
    Bool.false_and]

end MectovOS.Vfs
