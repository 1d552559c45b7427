/-
This file models the calls of src/sys/vfs.c and src/sys/vfs_mount.c that take
paths: create, symbolic and hard links, delete, rename, mount and unmount. Each
walks to its nodes first. `busy` tells which nodes a descriptor of a file is
open on, and what the volumes answer is an argument.
-/

import MectovOS.Vfs.Mount
import MectovOS.Vfs.Path
import MectovOS.Vfs.Rename

namespace MectovOS.Vfs

/-- The value a call returns for a node or a failure. -/
def resultCode : Except Int Nat → Int
  | .ok node => node
  | .error code => code

/-! ### Creation -/

/-- What `vfs_mkdir` and `vfs_create_file` share. -/
def createAt (caller : Caller) (nodes : Nodes) (path : Name) (type : FsType) :
    Except Int Nat × Nodes :=
  match getParent caller nodes path maxPath with
  | none => (.error (-1), nodes)
  | some parentPath =>
    match walkPath caller nodes parentPath false with
    | (.error _, after) => (.error (-1), after)
    | (.ok parent, after) =>
      createNode after (caller.entry parent (lastName path)) caller.uid (lastName path) type parent

/-- `vfs_mkdir`. -/
def mkdir (caller : Caller) (nodes : Nodes) (path : Name) : Except Int Nat × Nodes :=
  createAt caller nodes path .dir

/-- `vfs_create_file`. -/
def createFile (caller : Caller) (nodes : Nodes) (path : Name) : Except Int Nat × Nodes :=
  createAt caller nodes path .file

/-! ### Links -/

/-- The directory of a new link and its name: all components but the last are directories, and
the last is neither there nor the number of a live process. -/
def linkPlace (caller : Caller) (nodes : Nodes) (path : Name) : Except Int (Nat × Name) :=
  match splitPath (resolvePath caller nodes path maxPath) with
  | none => .error (-1)
  | some comps =>
    match comps.getLast? with
    | none => .error (-1)
    | some name =>
      match walkDirs nodes 0 comps.dropLast with
      | none => .error (-1)
      | some dir =>
        if (findInDir nodes name dir).isSome then .error (-2)
        else
          match (procLazyLookup caller nodes dir name true).1 with
          | .error code => if code = -2 then .error (-2) else .ok (dir, name)
          | .ok _ => .ok (dir, name)

/-- A new link has its target filled in behind the creation. -/
def symlinkNode (nodes : Nodes) (uid : Nat) (target name : Name) (dir : Nat) :
    Except Int Nat × Nodes :=
  match createNode nodes none uid name .symlink dir with
  | (.error code, next) => (.error code, next)
  | (.ok link, next) => (.ok link, Function.update next link { next link with pad := target })

/-- The table behind the probe of a live process, which may take over a stale directory. -/
def probed (caller : Caller) (nodes : Nodes) (dir : Nat) (name : Name) : Nodes :=
  if (findInDir nodes name dir).isSome then nodes
  else (procLazyLookup caller nodes dir name true).2

/-- `vfs_symlink`. -/
def symlink (caller : Caller) (nodes : Nodes) (target path : Name) : Except Int Nat × Nodes :=
  if target = [] ∨ symlinkMax ≤ target.length then (.error (-1), nodes)
  else
    match linkPlace caller nodes path with
    | .error code => (.error code, nodes)
    | .ok (dir, name) => symlinkNode (probed caller nodes dir name) caller.uid target name dir

/-- An alias shares the data, the size, the owner and the mode of its source. -/
def FsNode.aliasOf (node source : FsNode) : FsNode :=
  { node with
    dataSector := source.dataSector
    size := source.size
    uid := source.uid
    gid := source.gid
    mode := source.mode }

/-- A new alias is filled in behind the creation. -/
def hardlinkNode (nodes : Nodes) (answer : Answer) (uid source : Nat) (name : Name) (dir : Nat) :
    Int × Nodes :=
  match createNode nodes answer uid name .file dir with
  | (.error _, next) => (-1, next)
  | (.ok link, next) => (0, Function.update next link ((next link).aliasOf (next source)))

/-- `vfs_hardlink_as`. -/
def hardlink (caller : Caller) (nodes : Nodes) (existing path : Name) (actingUid : Nat) :
    Int × Nodes :=
  match walkPath caller nodes existing false with
  | (.error _, after) => (-1, after)
  | (.ok source, after) =>
    if (after source).type ≠ .file then (-3, after)
    else if (after source).dataSector = 0 then (-4, after)
    else if actingUid ≠ rootUid ∧ (after source).uid ≠ actingUid then (-8, after)
    else if isProtected after actingUid source then (-8, after)
    else
      match linkPlace caller after path with
      | .error code => (code, after)
      | .ok (dir, name) =>
        hardlinkNode (probed caller after dir name) (caller.entry dir name) caller.uid source name
          dir

/-! ### Delete and rename -/

/-- `vfs_delete_node_as`. -/
def deletePath (caller : Caller) (busy : Nat → Bool) (nodes : Nodes) (path : Name)
    (actingUid : Nat) : Outcome :=
  match walkPath caller nodes path true with
  | (.error _, after) => ⟨-1, after, []⟩
  | (.ok node, after) =>
    let done := deleteNode after busy actingUid node
    ⟨done.1, done.2.nodes, done.2.freed⟩

/-- The node that the removal of an old target finds. -/
def renameTarget (caller : Caller) (nodes : Nodes) (newParent : Nat) (newPath : Name) :
    Option Nat × Nodes :=
  if (findInDir nodes (lastName newPath) newParent).isSome then
    match walkPath caller nodes newPath true with
    | (.error _, after) => (none, after)
    | (.ok node, after) => (some node, after)
  else (none, nodes)

/-- `vfs_rename_as`. -/
def renamePath (caller : Caller) (busy : Nat → Bool) (renamed : Bool) (nodes : Nodes)
    (oldPath newPath : Name) (actingUid : Nat) : Outcome :=
  match walkPath caller nodes oldPath true with
  | (.error _, after) => ⟨-1, after, []⟩
  | (.ok node, after) =>
    if node = 0 then ⟨-3, after, []⟩
    else if isProtected after actingUid node then ⟨-8, after, []⟩
    else
      match getParent caller after newPath maxPath with
      | none => ⟨-1, after, []⟩
      | some parentPath =>
        match walkPath caller after parentPath false with
        | (.error _, found) => ⟨-1, found, []⟩
        | (.ok newParent, found) =>
          if newParent = node ∨ leadsThrough found node (maxNodes + 1) (some newParent) then
            ⟨-4, found, []⟩
          else
            let target := renameTarget caller found newParent newPath
            renameInto target.2 busy renamed actingUid node newParent (lastName newPath) target.1

/-! ### Mounts -/

/-- `VIRTIO_BLK_BASE + VIRTIO_BLK_MAX`: the drives that a volume may lie on. -/
def driveLimit : Int := 16

/-- The kind that a name of a file system stands for. -/
def mountKindOf (fstype : Name) : Option MountKind :=
  if fstype = ['e', 'x', 't', '2'] ∨ fstype = ['e', 'x', 't', '4'] then some .ext2
  else if fstype = ['f', 'a', 't', '3', '2'] then some .fat32
  else if fstype = ['t', 'm', 'p', 'f', 's'] then some .tmpfs
  else none

/-- `vfs_mount_path`. -/
def mountPath (caller : Caller) (nodes : Nodes) (layer : MountLayer) (path fstype : Name)
    (drive : Int) (volume : Volume) : Mounted :=
  match mountKindOf fstype with
  | none => ⟨-1, nodes, layer, []⟩
  | some kind =>
    if kind ≠ .tmpfs ∧ (drive < 0 ∨ driveLimit ≤ drive) then ⟨-1, nodes, layer, []⟩
    else
      match walkPath caller nodes path false with
      | (.ok node, after) => mountNode after layer kind drive volume caller.uid node
      | (.error _, after) =>
        match getParent caller after path maxPath with
        | none => ⟨-1, after, layer, []⟩
        | some parentPath =>
          match walkPath caller after parentPath false with
          | (.error _, found) => ⟨-1, found, layer, []⟩
          | (.ok parent, found) =>
            let name := path.rtakeWhile (· ≠ '/')
            if isDir found parent = false ∨ name = [] then ⟨-1, found, layer, []⟩
            else mountFresh found layer kind drive volume (caller.entry parent name) caller.uid name
              parent

/-- `vfs_umount_path`. -/
def umountPath (caller : Caller) (nodes : Nodes) (layer : MountLayer) (path : Name) : Mounted :=
  match walkPath caller nodes path false with
  | (.error _, after) => ⟨-1, after, layer, []⟩
  | (.ok node, after) => umountNode after layer node

end MectovOS.Vfs
