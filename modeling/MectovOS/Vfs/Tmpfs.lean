/-
This file models the RAM files of src/sys/vfs.c and the write and read of a
descriptor in src/sys/fd.c on such a file. Buffers live beside the node table,
one for each node, under a common budget. The contents that each file should
have and the position where each descriptor should stand are kept beside them:
they follow what the calls report, and nothing reads them.
-/

import MectovOS.Vfs.Mount
import MectovOS.Lib.Splice
import MectovOS.Lib.Transition

namespace MectovOS.Vfs

open Transition Splice Function

/-! ### Buffers -/

/-- `TMPFS_MAX_FILE` and `VFS_TMPFS_MAX_BYTES`. -/
def tmpfsMaxFile : Nat := 256 * 1024
def tmpfsMaxBytes : Nat := 2 * 1024 * 1024

/-- `tmpfs_buf`, `tmpfs_cap` and `tmpfs_used`. -/
structure Ram where
  buf : Nat → Option (List UInt8)
  cap : Nat → Nat
  used : Nat

/-- `tmpfs_free_node`. -/
def tmpfsFreeNode (ram : Ram) (node : Nat) : Ram :=
  if maxNodes ≤ node then ram
  else
    { buf := update ram.buf node none
      cap := update ram.cap node 0
      used := if (ram.buf node).isSome then ram.used - ram.cap node else ram.used }

/-- The buffers once the slots were freed. -/
def tmpfsFreeAll (ram : Ram) (freed : List Nat) : Ram := freed.foldl tmpfsFreeNode ram

/-- The capacity for a size, in whole sectors. -/
def roundUp (size : Nat) : Nat := (size + 511) / 512 * 512

/-- Is there room for a file of that size? The heap answers the last question. -/
def tmpfsRoom (ram : Ram) (node newSize : Nat) (heap : Bool) : Bool :=
  decide (newSize ≤ tmpfsMaxFile) &&
    (decide (newSize ≤ ram.cap node) ||
      (decide (roundUp newSize - ram.cap node ≤ tmpfsMaxBytes - ram.used) && heap))

/-- `tmpfs_grow`; `size` is the size of the file. -/
def tmpfsGrow (ram : Ram) (size node newSize : Nat) (heap : Bool) : Option Ram :=
  if tmpfsRoom ram node newSize heap = false then none
  else if newSize ≤ ram.cap node then some ram
  else
    let want := roundUp newSize
    let kept := ((ram.buf node).getD []).take (min size newSize)
    some
      { buf := update ram.buf node
          (some (kept ++ List.replicate (want - kept.length) 0))
        cap := update ram.cap node want
        used := (if (ram.buf node).isSome then ram.used - ram.cap node else ram.used) + want }

def Ram.setBuf (ram : Ram) (node : Nat) (change : List UInt8 → List UInt8) : Ram :=
  { ram with buf := update ram.buf node ((ram.buf node).map change) }

def setSize (nodes : Nodes) (node size : Nat) : Nodes :=
  update nodes node { nodes node with size := size }

/-! ### Reads and writes -/

/-- `tmpfs_read_range`. -/
def tmpfsReadRange (nodes : Nodes) (ram : Ram) (node offset len : Nat) : List UInt8 :=
  match ram.buf node with
  | none => []
  | some buffer =>
    if (nodes node).size ≤ offset then []
    else (buffer.drop offset).take (min len ((nodes node).size - offset))

/-- `tmpfs_read_whole`. -/
def tmpfsReadWhole (nodes : Nodes) (ram : Ram) (node maxSize : Nat) : List UInt8 :=
  if min (nodes node).size maxSize = 0 then []
  else tmpfsReadRange nodes ram node 0 (min (nodes node).size maxSize)

/-- `vfs_read_file_offset` on a RAM file. -/
def readFileOffset (nodes : Nodes) (ram : Ram) (node offset len : Nat) : List UInt8 :=
  if (nodes node).size - offset = 0 then []
  else tmpfsReadRange nodes ram node offset (min len ((nodes node).size - offset))

/-- `tmpfs_write_whole`. -/
def tmpfsWriteWhole (nodes : Nodes) (ram : Ram) (node : Nat) (data : List UInt8) (heap : Bool) :
    Int × Nodes × Ram :=
  if tmpfsMaxFile < data.length then (-3, nodes, ram)
  else
    match tmpfsGrow ram (nodes node).size node data.length heap with
    | none => (-3, nodes, ram)
    | some grown =>
      (data.length, setSize nodes node data.length, grown.setBuf node (overwrite · 0 data))

/-- `vfs_write_file_offset`. -/
def writeFileOffset (nodes : Nodes) (ram : Ram) (node offset : Nat) (data : List UInt8)
    (append heap : Bool) : Int × Nodes × Ram :=
  if maxNodes ≤ node ∨ (nodes node).inUse = false then (-1, nodes, ram)
  else if (nodes node).type ≠ .ramFile then (-1, nodes, ram)
  else
    let off := if append then (nodes node).size else offset
    if tmpfsMaxFile < off ∨ tmpfsMaxFile < data.length then (-1, nodes, ram)
    else
      let stored := data.take (tmpfsMaxFile - off)
      if tmpfsMaxFile < off + data.length ∧ tmpfsMaxFile - off = 0 then (-1, nodes, ram)
      else
        match tmpfsGrow ram (nodes node).size node (off + stored.length) heap with
        | none => (-3, nodes, ram)
        | some grown =>
          (stored.length, setSize nodes node (max (nodes node).size (off + stored.length)),
            grown.setBuf node fun buffer =>
              overwrite (clearGap 0 buffer (nodes node).size off) off stored)

/-! ### Descriptors -/

/-- The part of `global_fd_t` that a file needs. -/
structure RamFd where
  node : Nat
  offset : Nat
  append : Bool
  deriving DecidableEq

/-- The node table, the mount layer, the buffers and the descriptors, with the contents of each
file and the position of each descriptor as the calls reported them. -/
structure RamFs where
  nodes : Nodes
  layer : MountLayer
  ram : Ram
  fds : Nat → Option RamFd
  contents : Nat → List UInt8
  positions : Nat → Nat

/-- Where a write of a descriptor begins. -/
def RamFs.writeOffset (state : RamFs) (fd : RamFd) : Nat :=
  if fd.append then (state.nodes fd.node).size else fd.offset

/-- The contents after a write stored so many bytes of the data, none of them if it failed. -/
def RamFs.store (state : RamFs) (node offset : Nat) (data : List UInt8) (result : Int) : RamFs :=
  if result < 0 then state
  else { state with
    contents := update state.contents node
      (storeAt 0 (state.contents node) offset (data.take result.toNat)) }

/-- `vfs_write_file` on a RAM file. -/
def RamFs.writeWhole (state : RamFs) (node : Nat) (data : List UInt8) (heap : Bool) : RamFs :=
  if maxNodes ≤ node ∨ (state.nodes node).inUse = false ∨
      (state.nodes node).type ≠ .ramFile then state
  else
    let done := tmpfsWriteWhole state.nodes state.ram node data heap
    { state with
      nodes := done.2.1
      ram := done.2.2
      contents := if done.1 < 0 then state.contents
        else update state.contents node data }

/-- `vfs_write_file_offset` as a step. -/
def RamFs.writeAt (state : RamFs) (node offset : Nat) (data : List UInt8) (append heap : Bool) :
    RamFs :=
  let done := writeFileOffset state.nodes state.ram node offset data append heap
  { state.store node (if append then (state.nodes node).size else offset) data done.1 with
    nodes := done.2.1
    ram := done.2.2 }

/-- `do_sys_write` on a descriptor of a RAM file: the offset moves by the size of the request. -/
def RamFs.sysWrite (state : RamFs) (index : Nat) (fd : RamFd) (data : List UInt8) (heap : Bool) :
    RamFs :=
  let off := state.writeOffset fd
  let result := (writeFileOffset state.nodes state.ram fd.node off data fd.append heap).1
  let written := state.writeAt fd.node off data fd.append heap
  if result < 0 then written
  else
    { written with
      fds := update state.fds index (some { fd with offset := off + data.length })
      positions := update state.positions index (off + result.toNat) }

/-- `do_sys_read` on a descriptor of a RAM file. -/
def RamFs.sysRead (state : RamFs) (index : Nat) (fd : RamFd) (len : Nat) : RamFs :=
  let bytes := readFileOffset state.nodes state.ram fd.node fd.offset len
  { state with
    fds := update state.fds index (some { fd with offset := fd.offset + bytes.length })
    positions := update state.positions index
      (state.positions index + bytes.length) }

/-! ### Steps -/

/-- The steps of a run. `create` puts a node of any type below a node, and a mount may make its
mount point first. -/
inductive RamLabel where
  | create (answer : Answer) (uid : Nat) (name : Name) (type : FsType) (parent : Nat)
  | delete (uid node : Nat)
  | mount (kind : MountKind) (drive : Int) (volume : Volume) (uid node : Nat)
  | mountFresh (kind : MountKind) (drive : Int) (volume : Volume) (answer : Answer) (uid : Nat)
      (name : Name) (parent : Nat)
  | umount (node : Nat)
  | writeWhole (node : Nat) (data : List UInt8) (heap : Bool)
  | writeAt (node offset : Nat) (data : List UInt8) (append heap : Bool)
  | open' (index node : Nat) (append : Bool)
  | close (index : Nat)
  | seek (index offset : Nat)
  | read (index len : Nat)
  | write (index : Nat) (data : List UInt8) (heap : Bool)

/-- Does an open descriptor refer to the node? -/
def RamFs.Busy (state : RamFs) (busy : Nat → Bool) : Prop :=
  ∀ node, busy node = true ↔ ∃ index fd, state.fds index = some fd ∧ fd.node = node

/-- A removal takes the buffers of the slots with it. -/
def RamFs.remove (state : RamFs) (sweep : Sweep) : RamFs :=
  { state with nodes := sweep.nodes, ram := tmpfsFreeAll state.ram sweep.freed }

/-- A mount changes the table and the layer, and the buffers of what it drops go. -/
def RamFs.mounted (state : RamFs) (done : Mounted) : RamFs :=
  { state with
    nodes := done.nodes
    layer := done.layer
    ram := tmpfsFreeAll state.ram done.dropped }

/-- A creation gives an empty file, when it gives a node. -/
def RamFs.create (state : RamFs) (answer : Answer) (uid : Nat) (name : Name) (type : FsType)
    (parent : Nat) : RamFs :=
  let done := createNode state.nodes answer uid name type parent
  { state with
    nodes := done.2
    contents := match done.1 with
      | .ok index => update state.contents index []
      | .error _ => state.contents }

/-- One step. -/
inductive RamStep : RamFs → RamLabel → RamFs → Prop
  | create {state : RamFs} {answer : Answer} {uid : Nat} {name : Name} {type : FsType}
      {parent : Nat} :
      RamStep state (.create answer uid name type parent)
        (state.create answer uid name type parent)
  | delete {state : RamFs} {uid node : Nat} {busy : Nat → Bool} :
      (state.nodes node).inUse = true → state.Busy busy →
      RamStep state (.delete uid node)
        (state.remove (deleteNode state.nodes busy uid node).2)
  | mount {state : RamFs} {kind : MountKind} {drive : Int} {volume : Volume} {uid node : Nat} :
      RamStep state (.mount kind drive volume uid node)
        (state.mounted (mountNode state.nodes state.layer kind drive volume uid node))
  | mountFresh {state : RamFs} {kind : MountKind} {drive : Int} {volume : Volume}
      {answer : Answer} {uid : Nat} {name : Name} {parent : Nat} :
      RamStep state (.mountFresh kind drive volume answer uid name parent)
        (state.mounted (mountFresh state.nodes state.layer kind drive volume answer uid name parent))
  | umount {state : RamFs} {node : Nat} :
      RamStep state (.umount node)
        (state.mounted (umountNode state.nodes state.layer node))
  | writeWhole {state : RamFs} {node : Nat} {data : List UInt8} {heap : Bool} :
      RamStep state (.writeWhole node data heap) (state.writeWhole node data heap)
  | writeAt {state : RamFs} {node offset : Nat} {data : List UInt8} {append heap : Bool} :
      RamStep state (.writeAt node offset data append heap)
        (state.writeAt node offset data append heap)
  | open' {state : RamFs} {index node : Nat} {append : Bool} :
      state.fds index = none →
      RamStep state (.open' index node append)
        { state with
          fds := update state.fds index (some ⟨node, 0, append⟩)
          positions := update state.positions index 0 }
  | close {state : RamFs} {index : Nat} :
      RamStep state (.close index) { state with fds := update state.fds index none }
  | seek {state : RamFs} {index offset : Nat} {fd : RamFd} :
      state.fds index = some fd →
      RamStep state (.seek index offset)
        { state with
          fds := update state.fds index (some { fd with offset := offset })
          positions := update state.positions index offset }
  | read {state : RamFs} {index len : Nat} {fd : RamFd} :
      state.fds index = some fd → (state.nodes fd.node).inUse = true →
      (state.nodes fd.node).type = .ramFile →
      RamStep state (.read index len) (state.sysRead index fd len)
  | write {state : RamFs} {index : Nat} {data : List UInt8} {heap : Bool} {fd : RamFd} :
      state.fds index = some fd → (state.nodes fd.node).type = .ramFile →
      RamStep state (.write index data heap) (state.sysWrite index fd data heap)

/-- After the boot there is no RAM file and no open descriptor. -/
def RamFs.Initial (state : RamFs) : Prop :=
  (∀ node, state.ram.buf node = none ∧ state.ram.cap node = 0) ∧ state.ram.used = 0 ∧
    (∀ node, (state.nodes node).inUse = true → (state.nodes node).type ≠ .ramFile) ∧
    ∀ index, state.fds index = none

/-- The RAM files as a transition system. -/
def ramSystem : System RamFs RamLabel where
  init := RamFs.Initial
  step := RamStep

/-! ### The law -/

/-- Is the node a RAM file? -/
def RamFs.IsFile (state : RamFs) (node : Nat) : Prop :=
  node < maxNodes ∧ (state.nodes node).inUse = true ∧ (state.nodes node).type = .ramFile

/-- What tmpfs promises: the budget is the sum of the capacities and is kept, a buffer exists
where the capacity is not zero and belongs to a file that fits in it, reads give the bytes
written and zeros between them, a refused write changes nothing, and each descriptor stands
where the bytes stored and read have taken it. -/
structure RamKept (state : RamFs) : Prop where
  total : state.ram.used = ∑ node ∈ Finset.range maxNodes, state.ram.cap node
  budget : state.ram.used ≤ tmpfsMaxBytes
  buffers : ∀ node, (state.ram.buf node).isSome = true ↔ state.ram.cap node ≠ 0
  owners : ∀ node, (state.ram.buf node).isSome = true →
    state.IsFile node ∧ (state.nodes node).size ≤ state.ram.cap node
  reads : ∀ node offset len, state.IsFile node →
    readFileOffset state.nodes state.ram node offset len =
      ((state.contents node).drop offset).take len
  wholes : ∀ node maxSize, state.IsFile node →
    tmpfsReadWhole state.nodes state.ram node maxSize = (state.contents node).take maxSize
  refused : ∀ node offset data append heap,
    (writeFileOffset state.nodes state.ram node offset data append heap).1 < 0 →
      (writeFileOffset state.nodes state.ram node offset data append heap).2 =
        (state.nodes, state.ram)
  refusedWhole : ∀ node data heap,
    (tmpfsWriteWhole state.nodes state.ram node data heap).1 < 0 →
      (tmpfsWriteWhole state.nodes state.ram node data heap).2 = (state.nodes, state.ram)
  offsets : ∀ index fd, state.fds index = some fd → fd.offset = state.positions index

/-- A write of a descriptor does not cross the limit of a file, or it is refused as a whole. And
no RAM file is unmounted as the mount point of a drive, which a stale entry of the mount table
allows. -/
def Fitting (state : RamFs) : RamLabel → Prop
  | .write index data heap => ∀ fd, state.fds index = some fd →
    tmpfsMaxFile < state.writeOffset fd + data.length →
      tmpfsMaxFile ≤ state.writeOffset fd ∨ tmpfsMaxFile < data.length ∨
        tmpfsRoom state.ram fd.node tmpfsMaxFile heap = false ∨
        (state.nodes fd.node).inUse = false
  | .umount node => ∀ slot, mountLookup state.layer node = some slot →
    (state.layer.mounts slot).kind ≠ .tmpfs → (state.nodes node).type ≠ .ramFile
  | _ => True

end MectovOS.Vfs
