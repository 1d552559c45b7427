/-
This file models the mount layer of src/sys/vfs_mount.c: the mount table, the
drive and the superblock that each driver holds, and the mount and unmount of a
volume on a node. What a volume holds and how its driver takes to it are
arguments.
-/

import MectovOS.Vfs.Remove
import MectovOS.Vfs.Create

namespace MectovOS.Vfs

open Function

/-! ### Drivers -/

/-- `mount_kind_t`. -/
inductive MountKind where
  | ext2
  | fat32
  | tmpfs
  deriving DecidableEq

/-- `mount_t`. -/
structure Mount where
  inUse : Bool
  node : Nat
  kind : MountKind
  drive : Int
  rootKey : Nat

/-- `MAX_MOUNTS`. -/
def maxMounts : Nat := 8

/-- The global state of a driver: its current drive, and the drive whose superblock it holds, if
that superblock was accepted. -/
structure Backend where
  drive : Int
  superblock : Option Int

/-- How a driver takes to a drive: the superblock is read and accepted, it is read and rejected,
or it cannot be read. -/
inductive Init where
  | loaded
  | rejected
  | unread

/-- `ext2_init`, which parses its buffer without a look at the result of the read. -/
def ext2Init (backend : Backend) (drive : Int) : Init → Backend × Bool
  | .loaded => (⟨drive, some drive⟩, true)
  | .rejected => (⟨drive, none⟩, false)
  | .unread => (⟨drive, backend.superblock⟩, backend.superblock.isSome)

/-- `fat32_init`. -/
def fat32Init (backend : Backend) (drive : Int) : Init → Backend × Bool
  | .loaded => (⟨drive, some drive⟩, true)
  | .rejected => (⟨drive, none⟩, false)
  | .unread => (⟨drive, backend.superblock⟩, false)

/-- The mount table and the two drivers. -/
structure MountLayer where
  mounts : Nat → Mount
  ext2 : Backend
  fat32 : Backend

/-! ### The table -/

/-- `mount_lookup`. -/
def mountLookup (layer : MountLayer) (node : Nat) : Option Nat :=
  (List.range maxMounts).find? fun slot =>
    (layer.mounts slot).inUse && decide ((layer.mounts slot).node = node)

/-- `mount_register`. -/
def mountRegister (layer : MountLayer) (node : Nat) (kind : MountKind) (drive : Int)
    (rootKey : Nat) : Option MountLayer :=
  if maxNodes ≤ node ∨ (mountLookup layer node).isSome then none
  else
    match (List.range maxMounts).find? fun slot => !(layer.mounts slot).inUse with
    | none => none
    | some slot => some { layer with
        mounts := update layer.mounts slot ⟨true, node, kind, drive, rootKey⟩ }

/-- `mount_select_drive`. -/
def mountSelectDrive (layer : MountLayer) (kind : MountKind) (drive : Int) (init : Init) :
    MountLayer × Bool :=
  match kind with
  | .ext2 =>
    if layer.ext2.drive = drive then (layer, true)
    else ({ layer with ext2 := (ext2Init layer.ext2 drive init).1 },
      (ext2Init layer.ext2 drive init).2)
  | .fat32 =>
    if layer.fat32.drive = drive then (layer, true)
    else ({ layer with fat32 := (fat32Init layer.fat32 drive init).1 },
      (fat32Init layer.fat32 drive init).2)
  | .tmpfs => (layer, false)

/-- The backend of a node of that type. -/
def kindOf (type : FsType) : Option MountKind :=
  match type with
  | .ext2File => some .ext2
  | .ext2Dir => some .ext2
  | .fat32File => some .fat32
  | .fat32Dir => some .fat32
  | .ramDir => some .tmpfs
  | .ramFile => some .tmpfs
  | _ => none

/-- The walk up to the mount point that encloses a node. -/
def enclosingMount (nodes : Nodes) (layer : MountLayer) : Nat → Nat → Option Nat
  | 0, _ => none
  | guard + 1, node =>
    if maxNodes ≤ node then none
    else
      match mountLookup layer node with
      | some slot => some slot
      | none =>
        match (nodes node).parent with
        | none => none
        | some parent =>
          if maxNodes ≤ parent ∨ parent = node then none
          else enclosingMount nodes layer guard parent

/-- `mount_select_for_node`. -/
def mountSelectForNode (nodes : Nodes) (layer : MountLayer) (init : Init) (node : Nat) :
    MountLayer × Bool :=
  if maxNodes ≤ node ∨ (nodes node).inUse = false then (layer, false)
  else
    match kindOf (nodes node).type with
    | none => (layer, true)
    | some kind =>
      match enclosingMount nodes layer (maxNodes + 1) node with
      | none => (layer, false)
      | some slot =>
        if (layer.mounts slot).kind ≠ kind then (layer, false)
        else if kind = .tmpfs then (layer, true)
        else mountSelectDrive layer kind (layer.mounts slot).drive init

/-! ### Mounting -/

/-- An entry that a driver finds on its volume, and the node of the directory it is in. -/
structure VolumeEntry where
  parent : Nat
  isDir : Bool
  name : Name
  key : Nat
  size : Nat
  uid : Nat
  gid : Nat
  mode : Nat

/-- The node of an entry of an ext2 volume takes its owner and mode from the volume. -/
def fillExt2 (entry : VolumeEntry) (node : FsNode) : FsNode :=
  { node with
    ext2Inode := entry.key
    size := entry.size
    uid := entry.uid
    gid := entry.gid
    mode := entry.mode }

def fillFat32 (entry : VolumeEntry) (node : FsNode) : FsNode :=
  { node with
    dataSector := entry.key
    size := if entry.isDir then 0 else entry.size }

/-- `ext2_populate_vfs` and `fat32_populate_vfs`: every entry becomes a node below the mount point
or below the node of a directory found before. -/
def populate (fill : VolumeEntry → FsNode → FsNode) (dirType fileType : FsType) (uid : Nat) :
    List Nat → Nodes → List VolumeEntry → Nodes
  | _, nodes, [] => nodes
  | made, nodes, entry :: rest =>
    if entry.parent ∈ made then
      match createNode nodes none uid entry.name (if entry.isDir then dirType else fileType)
          entry.parent with
      | (.ok index, next) =>
        populate fill dirType fileType uid (if entry.isDir then index :: made else made)
          (update next index (fill entry (next index))) rest
      | (.error _, next) => populate fill dirType fileType uid made next rest
    else populate fill dirType fileType uid made nodes rest

theorem populate_extends (fill : VolumeEntry → FsNode → FsNode) (dirType fileType : FsType)
    (uid : Nat) (made : List Nat) (nodes : Nodes) (entries : List VolumeEntry) :
    Extends nodes (populate fill dirType fileType uid made nodes entries) := by
  induction entries generalizing made nodes with
  | nil => exact fun _ _ => rfl
  | cons entry rest inductionHypothesis =>
    unfold populate
    split
    · have grown := createNode_extends nodes none uid entry.name
        (if entry.isDir then dirType else fileType) entry.parent
      split
      · rename_i index next done
        rcases createNode_cases nodes none uid entry.name
            (if entry.isDir then dirType else fileType) entry.parent with
          ⟨slot, settled, created, _, added⟩ | ⟨code, other, failed, _⟩
        · obtain ⟨same, rfl⟩ := Prod.mk.inj (done.symm.trans created)
          obtain rfl := Except.ok.inj same
          rw [created] at grown
          refine Extends.trans (fun other used => ?_) (inductionHypothesis _ _)
          have different : other ≠ index := by
            rintro rfl
            rw [added.free] at used
            exact absurd used (by simp)
          rw [update_of_ne different]
          exact grown other used
        · rw [done] at failed
          exact absurd (Prod.mk.inj failed).1 (by simp)
      · rename_i next done
        rw [done] at grown
        exact grown.trans (inductionHypothesis _ _)
    · exact inductionHypothesis _ _

/-- `dir_is_empty`. -/
def dirIsEmpty (nodes : Nodes) (node : Nat) : Bool := !hasChildren nodes node

/-- What a volume answers to a mount: how its driver takes to it, the key of its root and its
entries. -/
structure Volume where
  init : Init
  rootKey : Nat
  entries : List VolumeEntry

/-- The mount point as it is retyped. -/
def mountPoint (kind : MountKind) (rootKey : Nat) (node : FsNode) : FsNode :=
  match kind with
  | .ext2 => { node with type := .ext2Dir, ext2Inode := 2 }
  | .fat32 => { node with type := .fat32Dir, dataSector := rootKey }
  | .tmpfs => { node with type := .ramDir, ext2Inode := 0, dataSector := 0, size := 0 }

/-- A mount or unmount: the value it returns, the table, the mount layer, and the slots whose
buffers are dropped. -/
structure Mounted where
  result : Int
  nodes : Nodes
  layer : MountLayer
  dropped : List Nat

/-- The second half of `vfs_mount_path`: the driver is up, the node is retyped and populated, and
the mount is registered. A full table undoes the retyping. -/
def attachVolume (nodes : Nodes) (layer : MountLayer) (kind : MountKind) (drive : Int)
    (volume : Volume) (uid node : Nat) : Mounted :=
  let rootKey := match kind with
    | .ext2 => 2
    | .fat32 => volume.rootKey
    | .tmpfs => 0
  let retyped := update nodes node (mountPoint kind rootKey (nodes node))
  let filled := match kind with
    | .ext2 => populate fillExt2 .ext2Dir .ext2File uid [node] retyped volume.entries
    | .fat32 => populate fillFat32 .fat32Dir .fat32File uid [node] retyped volume.entries
    | .tmpfs => retyped
  match mountRegister layer node kind drive rootKey with
  | some registered => ⟨0, filled, registered, []⟩
  | none =>
    let cleared := clearChildren filled node
    ⟨-1, update cleared.nodes node { cleared.nodes node with type := .dir }, layer,
      cleared.freed⟩

/-- `vfs_mount_path` from the mount point on, which is an existing directory or was made just
before. -/
def mountAt (nodes : Nodes) (layer : MountLayer) (kind : MountKind) (drive : Int)
    (volume : Volume) (uid node : Nat) : Mounted :=
  if (mountLookup layer node).isSome then ⟨-1, nodes, layer, []⟩
  else
    match kind with
    | .ext2 =>
      let up := ext2Init layer.ext2 drive volume.init
      if up.2 then attachVolume nodes { layer with ext2 := up.1 } .ext2 drive volume uid node
      else ⟨-1, nodes, { layer with ext2 := up.1 }, []⟩
    | .fat32 =>
      let up := fat32Init layer.fat32 drive volume.init
      if up.2 then attachVolume nodes { layer with fat32 := up.1 } .fat32 drive volume uid node
      else ⟨-1, nodes, { layer with fat32 := up.1 }, []⟩
    | .tmpfs => attachVolume nodes layer .tmpfs drive volume uid node

/-- `vfs_mount_path` on a node that exists. -/
def mountNode (nodes : Nodes) (layer : MountLayer) (kind : MountKind) (drive : Int)
    (volume : Volume) (uid node : Nat) : Mounted :=
  if isDir nodes node = false ∨ dirIsEmpty nodes node = false then ⟨-1, nodes, layer, []⟩
  else mountAt nodes layer kind drive volume uid node

/-- `vfs_mount_path` on a path that does not exist: the mount point is made first. -/
def mountFresh (nodes : Nodes) (layer : MountLayer) (kind : MountKind) (drive : Int)
    (volume : Volume) (answer : Answer) (uid : Nat) (name : Name) (parent : Nat) : Mounted :=
  if isDir nodes parent = false then ⟨-1, nodes, layer, []⟩
  else
    match createNode nodes answer uid name .dir parent with
    | (.error _, next) => ⟨-1, next, layer, []⟩
    | (.ok node, next) => mountAt next layer kind drive volume uid node

/-- The mount point as it is restored. -/
def FsNode.unmounted (node : FsNode) : FsNode :=
  { node with type := .dir, ext2Inode := 0, dataSector := 0, size := 0 }

/-- `vfs_umount_path` from the node that the path names on. -/
def umountNode (nodes : Nodes) (layer : MountLayer) (node : Nat) : Mounted :=
  match mountLookup layer node with
  | none => ⟨-1, nodes, layer, []⟩
  | some slot =>
    let restored := fun sweep : Sweep =>
      update sweep.nodes node (sweep.nodes node).unmounted
    let left := { layer with
      mounts := update layer.mounts slot { layer.mounts slot with inUse := false } }
    if (layer.mounts slot).kind = .tmpfs then
      let sweep := tmpfsFreeSubtree nodes node
      ⟨0, restored sweep, left, node :: sweep.freed⟩
    else
      let sweep := clearChildren nodes node
      ⟨0, restored sweep, left, sweep.freed⟩

end MectovOS.Vfs
