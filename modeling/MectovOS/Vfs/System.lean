/-
This file models the node table and the mount layer of src/sys/vfs.c as a
transition system. Its steps are what the calls do behind their lookups; what a
walk does for the processes and the selection of a volume are steps of their
own, which the calls make on their way.
-/

import MectovOS.Lib.Transition
import MectovOS.Vfs.Calls

namespace MectovOS.Vfs

open Transition

/-- The node table and the mount layer. -/
structure VfsState where
  nodes : Nodes
  layer : MountLayer

/-- The steps of a run. -/
inductive VfsLabel where
  | create (answer : Answer) (uid : Nat) (name : Name) (type : FsType) (parent : Nat)
  | relabel (index : Nat) (changed : FsNode)
  | symlink (uid : Nat) (target name : Name) (dir : Nat)
  | hardlink (answer : Answer) (uid source : Nat) (name : Name) (dir : Nat)
  | delete (busy : Nat → Bool) (uid node : Nat)
  | rename (busy : Nat → Bool) (renamed : Bool) (uid node newParent : Nat) (newPath : Name)
      (target : Option Nat)
  | mount (kind : MountKind) (drive : Int) (volume : Volume) (uid node : Nat)
  | mountFresh (kind : MountKind) (drive : Int) (volume : Volume) (answer : Answer) (uid : Nat)
      (name : Name) (parent : Nat)
  | umount (node : Nat)
  | clear (node : Nat)
  | select (init : Init) (node : Nat)

/-- A mounted volume lies on a drive. -/
def isDrive (kind : MountKind) (drive : Int) : Prop :=
  kind ≠ .tmpfs → 0 ≤ drive ∧ drive < driveLimit

/-- What the lookups of a call give: nodes that are in use, and drives within the limit. Only the
population of a volume passes types of a volume to the creation. -/
def VfsState.Enabled (state : VfsState) : VfsLabel → Prop
  | .create _ _ _ type _ => onVolume type = false
  | .relabel index changed => Relabelled (state.nodes index) changed ∧
      (state.nodes index).inUse = true ∧
      ((state.nodes index).type = .proc ∨ isDirType (state.nodes index).type = true)
  | .delete _ _ node => (state.nodes node).inUse = true
  | .rename _ _ _ node _ _ target => (state.nodes node).inUse = true ∧
      ∀ other, target = some other → (state.nodes other).inUse = true
  | .mount kind drive _ _ node => isDrive kind drive ∧ (state.nodes node).inUse = true
  | .mountFresh kind drive _ _ _ _ _ => isDrive kind drive
  | .umount node => (state.nodes node).inUse = true
  | _ => True

def VfsState.mounted (done : Mounted) : VfsState := ⟨done.nodes, done.layer⟩

/-- What a step does. -/
def VfsState.apply (state : VfsState) : VfsLabel → VfsState
  | .create answer uid name type parent =>
    { state with nodes := (createNode state.nodes answer uid name type parent).2 }
  | .relabel index changed => { state with nodes := Function.update state.nodes index changed }
  | .symlink uid target name dir =>
    { state with nodes := (symlinkNode state.nodes uid target name dir).2 }
  | .hardlink answer uid source name dir =>
    { state with nodes := (hardlinkNode state.nodes answer uid source name dir).2 }
  | .delete busy uid node =>
    { state with nodes := (deleteNode state.nodes busy uid node).2.nodes }
  | .rename busy renamed uid node newParent newPath target =>
    { state with
      nodes := (renameNode state.nodes busy renamed uid node newParent (lastName newPath)
        target).nodes }
  | .mount kind drive volume uid node =>
    .mounted (mountNode state.nodes state.layer kind drive volume uid node)
  | .mountFresh kind drive volume answer uid name parent =>
    .mounted (mountFresh state.nodes state.layer kind drive volume answer uid name parent)
  | .umount node => .mounted (umountNode state.nodes state.layer node)
  | .clear node => { state with nodes := (clearChildren state.nodes node).nodes }
  | .select init node =>
    { state with layer := (mountSelectForNode state.nodes state.layer init node).1 }

/-- The runs from a state in which something holds. -/
def vfsSystem (init : VfsState → Prop) : System VfsState VfsLabel where
  init := init
  step state label next := state.Enabled label ∧ next = state.apply label

/-- Does the mount table have a free entry? -/
def hasRoom (layer : MountLayer) : Prop := ∃ slot < maxMounts, (layer.mounts slot).inUse = false

theorem mountRegister_none {layer : MountLayer} {node : Nat} {kind : MountKind} {drive : Int}
    {rootKey : Nat} (within : node < maxNodes) (unmounted : (mountLookup layer node).isSome = false)
    (full : mountRegister layer node kind drive rootKey = none) : ¬ hasRoom layer := by
  unfold mountRegister at full
  have fine : ¬ (maxNodes ≤ node ∨ (mountLookup layer node).isSome = true) := by
    rw [unmounted]
    exact not_or.mpr ⟨Nat.not_le.mpr within, by simp⟩
  rw [if_neg fine] at full
  rintro ⟨slot, inside, free⟩
  split at full
  · rename_i nothing
    have taken := List.find?_eq_none.mp nothing slot (List.mem_range.mpr inside)
    rw [free] at taken
    exact absurd taken (by simp)
  · exact absurd full (by simp)

end MectovOS.Vfs
