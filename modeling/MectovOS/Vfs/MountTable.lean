/-
This file states what src/sys/vfs_mount.c promises of its table: each entry
names a directory of its driver, one entry names a node, every node of a volume
lies on one, and a driver that is selected for a node holds the superblock of
its drive. It shows what keeps the first three.
-/

import MectovOS.Vfs.TreeKept

namespace MectovOS.Vfs

open Function (update update_of_ne update_self)

variable {nodes next : Nodes} {layer : MountLayer} {state : VfsState}

/-! ### The law -/

/-- The type of a mount point. -/
def dirTypeOf : MountKind → FsType
  | .ext2 => .ext2Dir
  | .fat32 => .fat32Dir
  | .tmpfs => .ramDir

/-- The driver of a kind; a tmpfs has none. -/
def driverOf (layer : MountLayer) : MountKind → Option Backend
  | .ext2 => some layer.ext2
  | .fat32 => some layer.fat32
  | .tmpfs => none

/-- The entry of the nearest mount point at or above a node. -/
inductive OnVolume (nodes : Nodes) (layer : MountLayer) (slot : Nat) : Nat → Prop
  | point {node : Nat} : mountLookup layer node = some slot → OnVolume nodes layer slot node
  | under {node parent : Nat} : mountLookup layer node = none → ParentOf nodes node parent →
      OnVolume nodes layer slot parent → OnVolume nodes layer slot node

/-- The promise about the table. -/
structure MountsKept (state : VfsState) : Prop where
  names : ∀ slot < maxMounts, (state.layer.mounts slot).inUse = true →
    (state.nodes (state.layer.mounts slot).node).inUse = true ∧
      (state.nodes (state.layer.mounts slot).node).type =
        dirTypeOf (state.layer.mounts slot).kind
  once : ∀ slot < maxMounts, ∀ other < maxMounts, (state.layer.mounts slot).inUse = true →
    (state.layer.mounts other).inUse = true →
    (state.layer.mounts slot).node = (state.layer.mounts other).node → slot = other
  volumes : ∀ node kind, (state.nodes node).inUse = true →
    kindOf (state.nodes node).type = some kind → kind ≠ .tmpfs →
    ∃ slot, OnVolume state.nodes state.layer slot node ∧
      (state.layer.mounts slot).kind = kind ∧
      ∀ other, OnVolume state.nodes state.layer other node → other = slot

/-- The nodes in use are the same, and as they were. -/
def SameUsed (nodes next : Nodes) : Prop :=
  ∀ node, (next node).inUse = (nodes node).inUse ∧
    ((nodes node).inUse = true → next node = nodes node)

/-- The promise about a call: a selection that succeeds leaves the driver on the drive of the
volume with the superblock of that drive, and one that fails, like a mount that fails, changes
nothing. -/
def CallKept (state next : VfsState) : VfsLabel → Prop
  | .select init node =>
    if (mountSelectForNode state.nodes state.layer init node).2 = true then
      ∀ kind, kindOf (state.nodes node).type = some kind → kind ≠ .tmpfs →
        ∃ slot, OnVolume state.nodes state.layer slot node ∧
          driverOf next.layer kind = some ⟨(state.layer.mounts slot).drive,
            some (state.layer.mounts slot).drive⟩
    else next = state
  | .mount kind drive volume uid node =>
    (mountNode state.nodes state.layer kind drive volume uid node).result < 0 →
      SameUsed state.nodes next.nodes ∧ next.layer = state.layer
  | .mountFresh kind drive volume answer uid name parent =>
    (mountFresh state.nodes state.layer kind drive volume answer uid name parent).result < 0 →
      SameUsed state.nodes next.nodes ∧ next.layer = state.layer
  | _ => True

/-! ### Lookups -/

theorem mountLookup_some {node slot : Nat} (found : mountLookup layer node = some slot) :
    slot < maxMounts ∧ (layer.mounts slot).inUse = true ∧ (layer.mounts slot).node = node := by
  unfold mountLookup at found
  have is := List.find?_some found
  simp only [Bool.and_eq_true, decide_eq_true_eq] at is
  exact ⟨List.mem_range.mp (List.mem_of_find?_eq_some found), is⟩

theorem mountLookup_none {node : Nat} : mountLookup layer node = none ↔
    ∀ slot < maxMounts, (layer.mounts slot).inUse = true → (layer.mounts slot).node ≠ node := by
  unfold mountLookup
  rw [List.find?_eq_none]
  constructor
  · intro none' slot within used named
    exact none' slot (List.mem_range.mpr within) (by simp [used, named])
  · intro none' slot within named
    simp only [Bool.and_eq_true, decide_eq_true_eq] at named
    exact none' slot (List.mem_range.mp within) named.1 named.2

theorem OnVolume.unique {node slot other : Nat} (first : OnVolume nodes layer slot node)
    (second : OnVolume nodes layer other node) : other = slot := by
  induction first with
  | point found =>
    cases second with
    | point found' => exact Option.some.inj (found'.symm.trans found)
    | under none' _ _ =>
      rw [none'] at found
      exact absurd found (by simp)
  | under none' link _ inductionHypothesis =>
    cases second with
    | point found' =>
      rw [none'] at found'
      exact absurd found' (by simp)
    | under _ link' rest =>
      obtain rfl := Option.some.inj (link.2.symm.trans link'.2)
      exact inductionHypothesis rest

theorem kindOf_dirTypeOf (kind : MountKind) : kindOf (dirTypeOf kind) = some kind := by
  cases kind <;> rfl

theorem onVolume_kindOf {type : FsType} (plain : onVolume type = false) {kind : MountKind}
    (is : kindOf type = some kind) : kind = .tmpfs := by
  cases type <;> simp_all [onVolume, kindOf]

/-! ### The invariant -/

/-- A driver holds the superblock of its drive, or it has never been selected. -/
def Backend.Held (backend : Backend) : Prop :=
  backend.superblock = some backend.drive ∨ (backend.superblock = none ∧ backend.drive = -1)

/-- What every step keeps: a node of a volume that is no mount point lies in a directory of the
same driver. -/
structure MountInv (state : VfsState) : Prop where
  tree : TreeSound state.nodes
  names : ∀ slot < maxMounts, (state.layer.mounts slot).inUse = true →
    (state.nodes (state.layer.mounts slot).node).inUse = true ∧
      (state.nodes (state.layer.mounts slot).node).type =
        dirTypeOf (state.layer.mounts slot).kind
  once : ∀ slot < maxMounts, ∀ other < maxMounts, (state.layer.mounts slot).inUse = true →
    (state.layer.mounts other).inUse = true →
    (state.layer.mounts slot).node = (state.layer.mounts other).node → slot = other
  drives : ∀ slot < maxMounts, (state.layer.mounts slot).inUse = true →
    (state.layer.mounts slot).kind ≠ .tmpfs → 0 ≤ (state.layer.mounts slot).drive
  ext2 : state.layer.ext2.Held
  fat32 : state.layer.fat32.Held
  inside : ∀ node kind, (state.nodes node).inUse = true →
    kindOf (state.nodes node).type = some kind → kind ≠ .tmpfs →
    mountLookup state.layer node = none →
    ∃ parent, ParentOf state.nodes node parent ∧ kindOf (state.nodes parent).type = some kind

/-- Every node of a volume lies on one of its kind. -/
theorem MountInv.lies (inv : MountInv state) {node : Nat} {kind : MountKind}
    (used : (state.nodes node).inUse = true)
    (typed : kindOf (state.nodes node).type = some kind) (drive : kind ≠ .tmpfs) :
    ∃ slot, OnVolume state.nodes state.layer slot node ∧
      (state.layer.mounts slot).kind = kind := by
  have here : ∀ {node slot}, kindOf (state.nodes node).type = some kind →
      mountLookup state.layer node = some slot → (state.layer.mounts slot).kind = kind := by
    intro node slot typed found
    obtain ⟨within, inUse, named⟩ := mountLookup_some found
    have type := (inv.names slot within inUse).2
    rw [named] at type
    rw [type, kindOf_dirTypeOf] at typed
    exact Option.some.inj typed
  have way := inv.tree.rooted node used
  induction way using Relation.ReflTransGen.head_induction_on with
  | refl =>
    cases found : mountLookup state.layer 0 with
    | some slot => exact ⟨slot, .point found, here typed found⟩
    | none =>
      obtain ⟨parent, link, _⟩ := inv.inside 0 kind used typed drive found
      rw [ParentOf, inv.tree.root.2.2] at link
      exact absurd link.2 (by simp)
  | @head node upper up _ inductionHypothesis =>
    cases found : mountLookup state.layer node with
    | some slot => exact ⟨slot, .point found, here typed found⟩
    | none =>
      obtain ⟨parent, link, above⟩ := inv.inside node kind used typed drive found
      obtain rfl := Option.some.inj (link.2.symm.trans up.2)
      obtain ⟨slot, on, same⟩ := inductionHypothesis (inv.tree.parent_used link) above
      exact ⟨slot, .under found link on, same⟩

theorem MountInv.kept (inv : MountInv state) : MountsKept state := by
  refine ⟨inv.names, inv.once, fun node kind used typed drive => ?_⟩
  obtain ⟨slot, on, same⟩ := inv.lies used typed drive
  exact ⟨slot, on, same, fun other second => on.unique second⟩

/-! ### Tables that change under the mounts -/

/-- The table changes and the layer does not. -/
theorem MountInv.retable (inv : MountInv state) (tree : TreeSound next)
    (points : ∀ slot < maxMounts, (state.layer.mounts slot).inUse = true →
      (next (state.layer.mounts slot).node).inUse = true ∧
        (next (state.layer.mounts slot).node).type =
          (state.nodes (state.layer.mounts slot).node).type)
    (inside : ∀ node kind, (next node).inUse = true → kindOf (next node).type = some kind →
      kind ≠ .tmpfs → mountLookup state.layer node = none →
      ∃ parent, ParentOf next node parent ∧ kindOf (next parent).type = some kind) :
    MountInv { state with nodes := next } := by
  refine ⟨tree, fun slot within used => ?_, inv.once, inv.drives, inv.ext2, inv.fat32, inside⟩
  obtain ⟨stays, type⟩ := points slot within used
  exact ⟨stays, type.trans (inv.names slot within used).2⟩

/-- Nodes in use that keep their names, places and types keep the mounts. -/
theorem MountInv.retype (inv : MountInv state) {index : Nat} {changed : FsNode}
    (inUse : changed.inUse = (state.nodes index).inUse)
    (name : changed.name = (state.nodes index).name)
    (parent : changed.parent = (state.nodes index).parent)
    (type : changed.type = (state.nodes index).type ∨
      ((state.nodes index).type = .proc ∧ changed.type = .dir)) :
    MountInv { state with nodes := update state.nodes index changed } := by
  have dir : isDirType (state.nodes index).type = true → isDirType changed.type = true := by
    rcases type with same | ⟨proc, _⟩
    · rw [same]
      exact id
    · rw [proc]
      exact fun not => absurd not (by decide)
  have shape : SameShape state.nodes (update state.nodes index changed) :=
    SameShape.update inUse name parent dir
  have kinds : ∀ node, kindOf (update state.nodes index changed node).type =
      kindOf (state.nodes node).type := by
    intro node
    rcases eq_or_ne node index with rfl | different
    · rw [update_self]
      rcases type with same | ⟨proc, made⟩
      · rw [same]
      · rw [proc, made]
        rfl
    · rw [update_of_ne different]
  refine inv.retable (inv.tree.reshape shape) (fun slot within used => ?_)
    fun node kind used typed drive found => ?_
  · obtain ⟨stays, typed⟩ := inv.names slot within used
    refine ⟨(shape.inUse _).trans stays, ?_⟩
    rcases eq_or_ne (state.layer.mounts slot).node index with same | different
    · rw [same, update_self]
      rcases type with same' | ⟨proc, _⟩
      · exact same'
      · rw [same, proc] at typed
        exact absurd typed (by cases (state.layer.mounts slot).kind <;> simp [dirTypeOf])
    · rw [update_of_ne different]
  · rw [shape.inUse] at used
    rw [kinds] at typed
    obtain ⟨above, link, kindAbove⟩ := inv.inside node kind used typed drive found
    refine ⟨above, ?_, ?_⟩
    · rw [shape.parentOf]
      exact link
    · rw [kinds]
      exact kindAbove

/-- A removal that keeps the tree and every mount point keeps the mounts. -/
theorem MountInv.drop (inv : MountInv state) {freed : List Nat} {may : Nat → Prop}
    (freed' : Freed state.nodes next freed may) (tree : TreeSound next)
    (spared : ∀ slot < maxMounts, (state.layer.mounts slot).inUse = true →
      (state.layer.mounts slot).node ∉ freed) :
    MountInv { state with nodes := next } := by
  refine inv.retable tree (fun slot within used => ?_) fun node kind used typed drive found => ?_
  · rw [freed'.kept (spared slot within used)]
    exact ⟨(inv.names slot within used).1, rfl⟩
  · have same := freed'.same used
    have link' : ∀ parent, ParentOf state.nodes node parent → ParentOf next node parent := by
      intro parent link
      rw [ParentOf, same]
      exact link
    rw [same] at used typed
    obtain ⟨parent, link, above⟩ := inv.inside node kind used typed drive found
    refine ⟨parent, link' parent link, ?_⟩
    rw [freed'.same (tree.parent_used (link' parent link))]
    exact above

theorem settleNode_type {parentType : FsType} {answer : Answer} {node settled : FsNode}
    (is : settleNode parentType answer node = some settled) {kind : MountKind}
    (plain : onVolume node.type = false) (typed : kindOf settled.type = some kind)
    (drive : kind ≠ .tmpfs) : kindOf parentType = some kind := by
  unfold settleNode at is
  split at is
  · obtain rfl := Option.some.inj is
    exact absurd (onVolume_kindOf plain typed) drive
  rename_i which
  split at is
  · obtain ⟨entry, _, rfl⟩ := Option.map_eq_some_iff.mp is
    simp only at typed
    split at typed <;> exact typed
  · obtain ⟨entry, _, rfl⟩ := Option.map_eq_some_iff.mp is
    simp only at typed
    split at typed <;> exact typed
  · obtain rfl := Option.some.inj is
    simp only at typed
    split at typed <;> exact absurd (Option.some.inj typed).symm drive
  · obtain rfl := Option.some.inj is
    exact absurd (onVolume_kindOf plain typed) drive

/-- A new node keeps the mounts. -/
theorem MountInv.create (inv : MountInv state) (answer : Answer) (uid : Nat) (name : Name)
    {type : FsType} (parent : Nat) (plain : onVolume type = false) :
    MountInv { state with nodes := (createNode state.nodes answer uid name type parent).2 } := by
  have tree := inv.tree.create answer uid name type parent
  have grown := createNode_extends state.nodes answer uid name type parent
  refine inv.retable tree (fun slot within used => ?_) fun node kind used typed drive found => ?_
  · have stays := (inv.names slot within used).1
    rw [grown _ stays]
    exact ⟨stays, rfl⟩
  · by_cases old : (state.nodes node).inUse = true
    · have same := grown node old
      rw [same] at typed
      obtain ⟨above, link, kindAbove⟩ := inv.inside node kind old typed drive found
      refine ⟨above, ?_, ?_⟩
      · rw [ParentOf, same]
        exact link
      · rw [grown above (inv.tree.parent_used link)]
        exact kindAbove
    · rcases createNode_cases state.nodes answer uid name type parent with
        ⟨index, settled, done, is, added⟩ | ⟨code, after, done, _, idle⟩
      · rw [done] at used typed ⊢
        simp only at used typed ⊢
        have here : node = index := by
          by_contra different
          rw [added.others node different] at used
          exact old used
        subst here
        simp only [update_self] at typed
        refine ⟨parent, ⟨added.used, added.parent⟩, ?_⟩
        rw [added.others parent]
        · exact settleNode_type is plain typed drive
        · rintro rfl
          exact old added.directory.2.1
      · rw [done] at used
        simp only at used
        rcases idle node with same | free
        · rw [same] at used
          exact absurd used old
        · rw [free.2] at used
          exact absurd used (by simp)

end MectovOS.Vfs
