/-
This file models who refers to the nodes of src/sys/vfs.c: open descriptors and
file mappings hold the index of a slot and nothing else. Each slot is given a
birth here, the moment it was last taken, and each reference the birth it saw,
so that a reference to a slot that was freed and taken again can be told apart.
-/

import MectovOS.Vfs.System

namespace MectovOS.Vfs

open Transition Function

/-! ### References -/

/-- The node a descriptor or a mapping refers to, its birth at that time, and whether the
descriptor is one of a file, which directories do not have. -/
structure NodeRef where
  node : Nat
  birth : Nat
  isFile : Bool
  deriving DecidableEq

/-- The table, the mount layer, the births, and what refers to nodes. -/
structure RefFs where
  nodes : Nodes
  layer : MountLayer
  births : Nat → Nat
  clock : Nat
  fds : Nat → Option NodeRef
  regions : Nat → Option NodeRef

/-- The busy check of a delete: a descriptor of a file is open on the node. -/
def RefFs.Busy (state : RefFs) (node : Nat) : Prop :=
  ∃ index ref, state.fds index = some ref ∧ ref.isFile = true ∧ ref.node = node

/-- A descriptor or a mapping names the node. -/
def RefFs.Referenced (state : RefFs) (node : Nat) : Prop :=
  (∃ index ref, state.fds index = some ref ∧ ref.node = node) ∨
    ∃ index ref, state.regions index = some ref ∧ ref.node = node

/-- The table after a call. No call takes a slot that it freed itself, so a slot that was free
before is taken now, if it is taken. -/
def RefFs.after (state : RefFs) (next : Nodes) : RefFs :=
  { state with
    nodes := next
    births := fun index =>
      if (state.nodes index).inUse = true ∧ (next index).inUse = true then state.births index
      else state.clock
    clock := state.clock + 1 }

def RefFs.mounted (state : RefFs) (done : Mounted) : RefFs :=
  { state.after done.nodes with layer := done.layer }

/-! ### Steps -/

/-- The steps of a run. The nodes that a walk makes and fills in for processes are steps of their
own, before the call that walks. -/
inductive RefLabel where
  | create (answer : Answer) (uid : Nat) (name : Name) (type : FsType) (parent : Nat)
  | relabel (index : Nat) (changed : FsNode)
  | delete (uid node : Nat)
  | rename (renamed : Bool) (uid node newParent : Nat) (name : Name) (target : Option Nat)
  | mount (kind : MountKind) (drive : Int) (volume : Volume) (uid node : Nat)
  | mountFresh (kind : MountKind) (drive : Int) (volume : Volume) (answer : Answer) (uid : Nat)
      (name : Name) (parent : Nat)
  | umount (node : Nat)
  | open' (index node : Nat)
  | close (index : Nat)
  | mapFile (region index : Nat)
  | unmapFile (region : Nat)

/-- One step. -/
inductive RefStep : RefFs → RefLabel → RefFs → Prop
  | create {state : RefFs} {answer : Answer} {uid : Nat} {name : Name} {type : FsType}
      {parent : Nat} :
      RefStep state (.create answer uid name type parent)
        (state.after (createNode state.nodes answer uid name type parent).2)
  | relabel {state : RefFs} {index : Nat} {changed : FsNode} :
      (state.nodes index).inUse = true → Relabelled (state.nodes index) changed →
      RefStep state (.relabel index changed)
        (state.after (update state.nodes index changed))
  | delete {state : RefFs} {busy : Nat → Bool} {uid node : Nat} :
      (∀ node, busy node = true ↔ state.Busy node) → (state.nodes node).inUse = true →
      RefStep state (.delete uid node)
        (state.after (deleteNode state.nodes busy uid node).2.nodes)
  | rename {state : RefFs} {busy : Nat → Bool} {renamed : Bool} {uid node newParent : Nat}
      {name : Name} {target : Option Nat} :
      (∀ node, busy node = true ↔ state.Busy node) →
      (∀ node, target = some node → (state.nodes node).inUse = true) →
      RefStep state (.rename renamed uid node newParent name target)
        (state.after (renameNode state.nodes busy renamed uid node newParent name target).nodes)
  | mount {state : RefFs} {kind : MountKind} {drive : Int} {volume : Volume} {uid node : Nat} :
      RefStep state (.mount kind drive volume uid node)
        (state.mounted (mountNode state.nodes state.layer kind drive volume uid node))
  | mountFresh {state : RefFs} {kind : MountKind} {drive : Int} {volume : Volume}
      {answer : Answer} {uid : Nat} {name : Name} {parent : Nat} :
      RefStep state (.mountFresh kind drive volume answer uid name parent)
        (state.mounted (mountFresh state.nodes state.layer kind drive volume answer uid name parent))
  | umount {state : RefFs} {node : Nat} :
      RefStep state (.umount node) (state.mounted (umountNode state.nodes state.layer node))
  | open' {state : RefFs} {index node : Nat} :
      state.fds index = none → (state.nodes node).inUse = true →
      RefStep state (.open' index node)
        { state with
          fds := update state.fds index
            (some ⟨node, state.births node, !isDir state.nodes node⟩) }
  | close {state : RefFs} {index : Nat} :
      RefStep state (.close index) { state with fds := update state.fds index none }
  | mapFile {state : RefFs} {region index : Nat} {ref : NodeRef} :
      state.fds index = some ref → ref.isFile = true →
      (state.nodes ref.node).inUse = true ∧ (state.nodes ref.node).type = .file →
      RefStep state (.mapFile region index)
        { state with regions := update state.regions region (some ref) }
  | unmapFile {state : RefFs} {region : Nat} :
      RefStep state (.unmapFile region)
        { state with regions := update state.regions region none }

/-- Nothing refers to a node after the boot. -/
def RefFs.Initial (state : RefFs) : Prop :=
  (∀ index, state.fds index = none) ∧ ∀ index, state.regions index = none

/-- The references as a transition system. -/
def refSystem : System RefFs RefLabel where
  init := RefFs.Initial
  step := RefStep

/-! ### The law -/

/-- Every node that is referred to is in use, and it is the one that was opened. -/
def RefsKept (state : RefFs) : Prop :=
  ∀ ref, (∃ index, state.fds index = some ref) ∨ (∃ index, state.regions index = some ref) →
    (state.nodes ref.node).inUse = true ∧ state.births ref.node = ref.birth

/-- All nodes above the node are in use. -/
def Anchored (nodes : Nodes) (node : Nat) : Prop :=
  ∀ above, Relation.ReflTransGen (ParentOf nodes) node above → (nodes above).inUse = true

/-- A node can go when nothing refers to a node below it, and what refers to it keeps the call
from removing it. -/
def Removable (state : RefFs) (node : Nat) : Prop :=
  (∀ index, state.Referenced index → ¬ Below state.nodes node index) ∧
    (state.Referenced node → state.Busy node)

/-- Nothing refers to what a call removes beside the node it names: a delete and a rename remove
the nodes below and look at the descriptors of the node only, an unmount looks at none, and a
mount that finds the mount table full removes what it finds below the mount point. -/
def Unreferenced (state : RefFs) : RefLabel → Prop
  | .delete _ node => Removable state node
  | .rename _ _ _ newParent name target =>
    ∀ node, (findInDir state.nodes name newParent).isSome → target = some node →
      Removable state node
  | .umount node => ∀ index, state.Referenced index → ¬ Below state.nodes node index
  | .mount _ _ _ _ node =>
    hasRoom state.layer ∨ ∀ index, state.Referenced index →
      Anchored state.nodes index ∧ ¬ Below state.nodes node index
  | .mountFresh .. =>
    hasRoom state.layer ∨ ∀ index, state.Referenced index → Anchored state.nodes index
  | _ => True

end MectovOS.Vfs
