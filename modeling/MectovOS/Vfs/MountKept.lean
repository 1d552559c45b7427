/-
This file proves that the mount table keeps its promises in every orderly run: a
mount point is not removed with a directory above it, no mount point lies below
one that is unmounted, a mount finds a free entry, and a driver that is asked
for a volume reads its superblock and accepts it.
-/

import MectovOS.Vfs.MountTable

namespace MectovOS.Vfs

open Function (update update_of_ne update_self)

open Transition

variable {nodes full : Nodes} {layer : MountLayer} {state : VfsState}

/-! ### Orderly steps -/

/-- No mount point is among the nodes. -/
def NoMountPoint (state : VfsState) (among : Nat → Prop) : Prop :=
  ∀ slot < maxMounts, (state.layer.mounts slot).inUse = true →
    ¬ among (state.layer.mounts slot).node

/-- What an unmount drops: the RAM nodes in a tmpfs, or all that lies below. -/
def Drops (state : VfsState) (node slot index : Nat) : Prop :=
  if (state.layer.mounts slot).kind = .tmpfs then
    isRamType (state.nodes index).type = true ∧ (state.nodes index).parent = some node
  else Below state.nodes node index

/-- A volume can be mounted: there is a free entry, and the driver accepts the superblock. -/
def Mountable (layer : MountLayer) (kind : MountKind) (volume : Volume) : Prop :=
  hasRoom layer ∧ (kind ≠ .tmpfs → volume.init = .loaded)

/-- A step is tidy, and it is orderly. -/
def Orderly (state : VfsState) (label : VfsLabel) : Prop :=
  Tidy state label ∧
  match label with
  | .delete busy _ node => isDeletable state.nodes busy node = true →
    NoMountPoint state fun index => index = node ∨ Below state.nodes node index
  | .rename busy _ _ _ newParent newPath target => ∀ existing,
    findInDir state.nodes (lastName newPath) newParent = some existing → target = some existing →
    isDeletable state.nodes busy existing = true →
    NoMountPoint state fun index => index = existing ∨ Below state.nodes existing index
  | .mount kind _ volume _ node => isDir state.nodes node = true →
    dirIsEmpty state.nodes node = true → mountLookup state.layer node = none →
    Mountable state.layer kind volume
  | .mountFresh kind _ volume _ _ _ parent => isDir state.nodes parent = true →
    Mountable state.layer kind volume
  | .umount node => ∀ slot, mountLookup state.layer node = some slot →
    ∀ other < maxMounts, (state.layer.mounts other).inUse = true → other ≠ slot →
      ¬ Drops state node slot (state.layer.mounts other).node
  | .clear node => NoMountPoint state (Below state.nodes node)
  | .select init _ => init = .loaded
  | _ => True

/-! ### Deletes and renames -/

theorem MountInv.delete {busy : Nat → Bool} {uid node : Nat} (inv : MountInv state)
    (used : (state.nodes node).inUse = true)
    (clean : isDeletable state.nodes busy node = true → Clean state.nodes node)
    (spared : isDeletable state.nodes busy node = true →
      NoMountPoint state fun index => index = node ∨ Below state.nodes node index) :
    MountInv { state with nodes := (deleteNode state.nodes busy uid node).2.nodes } := by
  by_cases deletable : isDeletable state.nodes busy node = true
  · have freed := deleteNode_freed state.nodes busy uid used
    exact inv.drop freed (deleteNode_tree inv.tree used (clean deletable))
      fun slot within inUse member => spared deletable slot within inUse (freed.may _ member)
  · rcases deleteNode_eq state.nodes busy uid node with ⟨can, _⟩ | ⟨_, code, _, failed⟩
    · exact absurd can deletable
    · rw [failed]
      exact inv

theorem MountInv.clearTarget {busy : Nat → Bool} {uid node newParent : Nat} {name : Name}
    {target : Option Nat} (inv : MountInv state)
    (used : ∀ other, target = some other → (state.nodes other).inUse = true)
    (tidy : TidyRename state.nodes busy node newParent name target)
    (spared : ∀ existing, findInDir state.nodes name newParent = some existing →
      target = some existing → isDeletable state.nodes busy existing = true →
      NoMountPoint state fun index => index = existing ∨ Below state.nodes existing index) :
    MountInv { state with nodes := (clearTarget state.nodes busy uid newParent name target).nodes } := by
  unfold Vfs.clearTarget
  split
  · rename_i existing other found
    rcases tidy.cleared existing found with ⟨same, clean, _⟩ | ⟨_, none'⟩
    · obtain rfl := Option.some.inj same
      exact inv.delete (used other rfl) (fun _ => clean) (spared other found rfl)
    · exact absurd none' (by simp)
  · exact inv

theorem volumeDir_kind {type : FsType} {kind : MountKind} (typed : kindOf type = some kind)
    (drive : kind ≠ .tmpfs) : onVolume type = true ∧ kindOf (volumeDir type) = some kind := by
  cases type <;> simp_all [kindOf, onVolume, volumeDir]

theorem MountInv.rename {busy : Nat → Bool} {uid node newParent : Nat} {name : Name}
    {target : Option Nat} (renamed : Bool) (inv : MountInv state)
    (used : ∀ other, target = some other → (state.nodes other).inUse = true) (slash : '/' ∉ name)
    (tidy : TidyRename state.nodes busy node newParent name target)
    (spared : ∀ existing, findInDir state.nodes name newParent = some existing →
      target = some existing → isDeletable state.nodes busy existing = true →
      NoMountPoint state fun index => index = existing ∨ Below state.nodes existing index) :
    MountInv { state with
      nodes := (renameNode state.nodes busy renamed uid node newParent name target).nodes } := by
  have tree := @renameNode_tree _ _ uid _ _ _ _ renamed inv.tree slash tidy
  have cleared := @MountInv.clearTarget _ _ uid _ _ _ _ inv used tidy spared
  rcases renameNode_cases state.nodes busy renamed uid node newParent name target with
    ⟨code, _, done⟩ | ⟨sweep, is, _, _, _, ⟨_, done⟩ | ⟨accepted, done⟩⟩
  · rw [done]
    exact inv
  · rw [done, is]
    exact cleared
  · simp only [done] at tree ⊢
    rw [← is] at cleared
    have type : ∀ other, (update sweep.nodes node ((sweep.nodes node).moved newParent name)
        other).type = (sweep.nodes other).type := by
      intro other
      rcases eq_or_ne other node with rfl | different
      · rw [update_self]
        rfl
      · rw [update_of_ne different]
    have inUse : ∀ other, (update sweep.nodes node ((sweep.nodes node).moved newParent name)
        other).inUse = (sweep.nodes other).inUse := by
      intro other
      rcases eq_or_ne other node with rfl | different
      · rw [update_self]
        rfl
      · rw [update_of_ne different]
    refine cleared.retable tree (fun slot within used => ?_)
      fun other kind usedOther typed drive found => ?_
    · exact ⟨(inUse _).trans (cleared.names slot within used).1, type _⟩
    · rw [inUse] at usedOther
      rw [type] at typed
      obtain ⟨parent, link, above⟩ := cleared.inside other kind usedOther typed drive found
      refine ⟨parent, ?_, (congrArg kindOf (type parent)).trans above⟩
      rcases eq_or_ne other node with rfl | different
      · have volume := (volumeDir_kind typed drive).1
        unfold volumeRefuses at accepted
        rw [volume, Bool.true_and, Bool.or_eq_false_iff, Bool.or_eq_false_iff] at accepted
        have stays := of_decide_eq_false accepted.1.1
        rw [Ne, not_not] at stays
        obtain rfl := Option.some.inj (link.2.symm.trans stays)
        refine ⟨(inUse other).trans usedOther, ?_⟩
        rw [update_self]
        rfl
      · rw [ParentOf, update_of_ne different]
        exact link

/-! ### Mounts -/

theorem mountRegister_some {node : Nat} {kind : MountKind} {drive : Int} {rootKey : Nat}
    {after : MountLayer} (registered : mountRegister layer node kind drive rootKey = some after) :
    ∃ slot < maxMounts, (layer.mounts slot).inUse = false ∧ after = { layer with
      mounts := update layer.mounts slot ⟨true, node, kind, drive, rootKey⟩ } := by
  unfold mountRegister at registered
  split at registered
  · exact absurd registered (by simp)
  split at registered
  · exact absurd registered (by simp)
  · rename_i slot found
    have free := List.find?_some found
    rw [Bool.not_eq_true'] at free
    exact ⟨slot, List.mem_range.mp (List.mem_of_find?_eq_some found), free,
      (Option.some.inj registered).symm⟩

theorem settleNode_plain {parentType : FsType} {answer : Answer} {node : FsNode}
    (other : node.type ≠ .dir ∧ node.type ≠ .file) :
    settleNode parentType answer node = some node := by
  unfold settleNode
  rw [if_pos other]

/-- Every node that a volume brings lies in a directory of the volume. -/
theorem populate_inside {fill : VolumeEntry → FsNode → FsNode} {dirType fileType : FsType}
    (shape : ∀ entry node, (fill entry node).inUse = node.inUse ∧
      (fill entry node).name = node.name ∧ (fill entry node).parent = node.parent ∧
      (fill entry node).type = node.type)
    (special : ∀ type, type = dirType ∨ type = fileType → type ≠ .dir ∧ type ≠ .file)
    (alike : kindOf fileType = kindOf dirType)
    (uid : Nat) {made : List Nat} (entries : List VolumeEntry)
    (dirs : ∀ dir ∈ made, (nodes dir).inUse = true ∧ (nodes dir).type = dirType) {index : Nat}
    (used : (populate fill dirType fileType uid made nodes entries index).inUse = true) :
    (nodes index).inUse = true ∨ ∃ parent,
      ParentOf (populate fill dirType fileType uid made nodes entries) index parent ∧
      (populate fill dirType fileType uid made nodes entries parent).type = dirType ∧
      kindOf (populate fill dirType fileType uid made nodes entries index).type =
        kindOf dirType := by
  induction entries generalizing made nodes with
  | nil => exact Or.inl used
  | cons entry rest inductionHypothesis =>
    unfold Vfs.populate at used ⊢
    split at used
    case isFalse outside =>
      rw [if_neg outside]
      exact inductionHypothesis dirs used
    case isTrue member =>
    rw [if_pos member]
    rcases createNode_cases nodes none uid entry.name (if entry.isDir then dirType else fileType)
        entry.parent with ⟨slot, settled, created, is, added⟩ | ⟨code, after, failed, _, idle⟩
    · rw [created] at used ⊢
      simp only at used ⊢
      have type : settled.type = if entry.isDir then dirType else fileType := by
        have plain : (if entry.isDir then dirType else fileType) ≠ .dir ∧
            (if entry.isDir then dirType else fileType) ≠ .file := by
          refine special _ ?_
          split
          · exact Or.inl rfl
          · exact Or.inr rfl
        rw [settleNode_plain (by exact plain)] at is
        obtain rfl := Option.some.inj is
        rfl
      have parentUsed := added.directory.2.1
      have apart : ∀ dir, (nodes dir).inUse = true → dir ≠ slot := by
        rintro dir old rfl
        rw [added.free] at old
        exact absurd old (by simp)
      obtain ⟨inUse, _, parent, same⟩ := shape entry (update nodes slot settled slot)
      have above : update (update nodes slot settled) slot
          (fill entry (update nodes slot settled slot)) entry.parent =
          nodes entry.parent := by
        rw [update_of_ne (apart _ parentUsed), update_of_ne (apart _ parentUsed)]
      have here : (update (update nodes slot settled) slot
          (fill entry (update nodes slot settled slot)) slot).inUse = true := by
        rw [update_self, inUse]
        exact added.used
      have grown := populate_extends fill dirType fileType uid
        (if entry.isDir then slot :: made else made)
        (update (update nodes slot settled) slot
          (fill entry (update nodes slot settled slot))) rest
      have dirs' : ∀ dir ∈ (if entry.isDir then slot :: made else made),
          (update (update nodes slot settled) slot
            (fill entry (update nodes slot settled slot)) dir).inUse = true ∧
          (update (update nodes slot settled) slot
            (fill entry (update nodes slot settled slot)) dir).type = dirType := by
        have old : ∀ dir ∈ made,
            (update (update nodes slot settled) slot
              (fill entry (update nodes slot settled slot)) dir).inUse = true ∧
            (update (update nodes slot settled) slot
              (fill entry (update nodes slot settled slot)) dir).type = dirType := by
          intro dir inside
          have fine := dirs dir inside
          rw [update_of_ne (apart dir fine.1), update_of_ne (apart dir fine.1)]
          exact fine
        intro dir inside
        split at inside
        · rename_i directory
          rcases List.mem_cons.mp inside with rfl | before
          · refine ⟨here, ?_⟩
            rw [update_self, same, update_self, type, if_pos directory]
          · exact old dir before
        · exact old dir inside
      rcases inductionHypothesis dirs' used with old | new
      · rcases eq_or_ne index slot with rfl | different
        · refine Or.inr ⟨entry.parent, ⟨used, ?_⟩, ?_, ?_⟩
          · rw [grown index here, update_self, parent, added.parent]
          · rw [grown entry.parent (by rw [above]; exact parentUsed), above]
            exact (dirs entry.parent member).2
          · rw [grown index here, update_self, same, update_self, type]
            split
            · rfl
            · exact alike
        · rw [update_of_ne different, update_of_ne different] at old
          exact Or.inl old
      · exact Or.inr new
    · rw [failed] at used ⊢
      simp only at used ⊢
      have dirs' : ∀ dir ∈ made, (after dir).inUse = true ∧ (after dir).type = dirType := by
        intro dir inside
        have fine := dirs dir inside
        rcases idle dir with same | free
        · rw [same]
          exact fine
        · rw [free.1] at fine
          exact absurd fine.1 (by simp)
      rcases inductionHypothesis dirs' used with old | new
      · rcases idle index with same | free
        · rw [same] at old
          exact Or.inl old
        · rw [free.2] at old
          exact absurd old (by simp)
      · exact Or.inr new

/-- A mount is registered. -/
theorem MountInv.attach {node slot rootKey : Nat} {kind : MountKind} {drive : Int}
    (inv : MountInv ⟨nodes, layer⟩) (used : (nodes node).inUse = true)
    (childless : ∀ child, ¬ ParentOf nodes child node)
    (unmounted : mountLookup layer node = none) (tree : TreeSound full)
    (grown : Extends (update nodes node (mountPoint kind rootKey (nodes node))) full)
    (fresh : ∀ index, (full index).inUse = true → (nodes index).inUse = true ∨
      ∃ parent, ParentOf full index parent ∧ (full parent).type = dirTypeOf kind ∧
        kindOf (full index).type = some kind)
    (on : kind ≠ .tmpfs → 0 ≤ drive) (within : slot < maxMounts)
    (free : (layer.mounts slot).inUse = false) :
    MountInv ⟨full, { layer with
      mounts := update layer.mounts slot ⟨true, node, kind, drive, rootKey⟩ }⟩ := by
  have pointUsed : (update nodes node (mountPoint kind rootKey (nodes node)) node).inUse =
      true := by
    rw [update_self]
    cases kind <;> exact used
  have point : (full node).inUse = true ∧ (full node).type = dirTypeOf kind := by
    rw [grown node pointUsed, update_self]
    cases kind <;> exact ⟨used, rfl⟩
  have beside : ∀ other, other ≠ node → (nodes other).inUse = true → full other = nodes other := by
    intro other different used
    rw [grown other (by rw [update_of_ne different]; exact used),
      update_of_ne different]
  have apart := mountLookup_none.mp unmounted
  refine ⟨tree, fun other inside usedOther => ?_, fun first firstIn second secondIn usedFirst
    usedSecond same => ?_, fun other inside usedOther drive' => ?_, inv.ext2, inv.fat32,
    fun index kind' usedIndex typed drive' found => ?_⟩
  · rcases eq_or_ne other slot with rfl | different
    · simp only [update_self]
      exact point
    · simp only [update_of_ne different] at usedOther ⊢
      obtain ⟨stays, type⟩ := inv.names other inside usedOther
      rw [beside _ (apart other inside usedOther) stays]
      exact ⟨stays, type⟩
  · rcases eq_or_ne first slot with here | different <;>
      rcases eq_or_ne second slot with there | different'
    · exact here.trans there.symm
    · simp only [here, update_self, update_of_ne different'] at same usedSecond
      exact absurd same.symm (apart second secondIn usedSecond)
    · simp only [there, update_self, update_of_ne different] at same usedFirst
      exact absurd same (apart first firstIn usedFirst)
    · simp only [update_of_ne different, update_of_ne different'] at same usedFirst
      simp only [update_of_ne different'] at usedSecond
      exact inv.once first firstIn second secondIn usedFirst usedSecond same
  · rcases eq_or_ne other slot with rfl | different
    · simp only [update_self] at drive' ⊢
      exact on drive'
    · simp only [update_of_ne different] at usedOther drive' ⊢
      exact inv.drives other inside usedOther drive'
  · replace typed : kindOf (full index).type = some kind' := typed
    have none' := mountLookup_none.mp found
    have other : index ≠ node := by
      rintro rfl
      exact none' slot within (by simp only [update_self]) (by
        simp only [update_self])
    have notFound : mountLookup layer index = none := by
      refine mountLookup_none.mpr fun entry inside usedEntry => ?_
      have different : entry ≠ slot := by
        rintro rfl
        rw [free] at usedEntry
        exact absurd usedEntry (by simp)
      have not := none' entry inside
      simp only [update_of_ne different] at not
      exact not usedEntry
    rcases fresh index usedIndex with old | ⟨parent, link, type, kinds⟩
    · have same := beside index other old
      rw [same] at typed
      obtain ⟨parent, link, above⟩ := inv.inside index kind' old typed drive' notFound
      have notPoint : parent ≠ node := by
        rintro rfl
        exact childless index link
      refine ⟨parent, ?_, ?_⟩
      · show (full index).inUse = true ∧ (full index).parent = some parent
        rw [same]
        exact link
      · show kindOf (full parent).type = some kind'
        rw [beside parent notPoint (inv.tree.parent_used link)]
        exact above
    · obtain rfl := Option.some.inj (kinds.symm.trans typed)
      refine ⟨parent, link, ?_⟩
      rw [type, kindOf_dirTypeOf]

/-- The drivers change, and each holds the superblock of its drive. -/
theorem MountInv.drivers (inv : MountInv ⟨nodes, layer⟩) {after : MountLayer}
    (mounts : after.mounts = layer.mounts) (ext2 : after.ext2.Held) (fat32 : after.fat32.Held) :
    MountInv ⟨nodes, after⟩ := by
  have lookup : ∀ node, mountLookup after node = mountLookup layer node := by
    intro node
    unfold mountLookup
    rw [mounts]
  refine ⟨inv.tree, ?_, ?_, ?_, ext2, fat32, fun node kind used typed drive found => ?_⟩
  · rw [mounts]
    exact inv.names
  · rw [mounts]
    exact inv.once
  · rw [mounts]
    exact inv.drives
  · exact inv.inside node kind used typed drive ((lookup node).symm.trans found)

theorem attachVolume_inv {kind : MountKind} {drive : Int} {volume : Volume} {uid node : Nat}
    (inv : MountInv ⟨nodes, layer⟩) (used : (nodes node).inUse = true)
    (childless : ∀ child, ¬ ParentOf nodes child node)
    (unmounted : mountLookup layer node = none) (room : hasRoom layer)
    (on : kind ≠ .tmpfs → 0 ≤ drive) :
    (attachVolume nodes layer kind drive volume uid node).result = 0 ∧
      MountInv (.mounted (attachVolume nodes layer kind drive volume uid node)) := by
  have within := inv.tree.within node used
  have not : (mountLookup layer node).isSome = false := by
    rw [unmounted]
    rfl
  have tree := @attachVolume_tree _ _ kind drive volume uid _ inv.tree within not childless
    (Or.inl room)
  have registers : ∀ rootKey, ∃ after, mountRegister layer node kind drive rootKey = some after := by
    intro rootKey
    cases is : mountRegister layer node kind drive rootKey with
    | none => exact absurd room (mountRegister_none within not is)
    | some after => exact ⟨after, rfl⟩
  have point : ∀ rootKey dir, dir ∈ [node] →
      (update nodes node (mountPoint kind rootKey (nodes node)) dir).inUse = true ∧
      (update nodes node (mountPoint kind rootKey (nodes node)) dir).type =
        dirTypeOf kind := by
    intro rootKey dir member
    obtain rfl := List.mem_singleton.mp member
    rw [update_self]
    cases kind <;> exact ⟨used, rfl⟩
  have before : ∀ rootKey index,
      (update nodes node (mountPoint kind rootKey (nodes node)) index).inUse = true →
      (nodes index).inUse = true := by
    intro rootKey index is
    rcases eq_or_ne index node with rfl | different
    · exact used
    · rwa [update_of_ne different] at is
  unfold attachVolume at tree ⊢
  cases kind with
  | ext2 =>
    obtain ⟨after, is⟩ := registers 2
    obtain ⟨slot, inside, free, same⟩ := mountRegister_some is
    simp only [is] at tree ⊢
    refine ⟨trivial, ?_⟩
    rw [same]
    refine inv.attach used childless unmounted tree (populate_extends _ _ _ _ _ _ _)
      (fun index usedIndex => ?_) on inside free
    rcases @populate_inside _ _ .ext2Dir .ext2File fillExt2_shape
      (by rintro type (rfl | rfl) <;> decide) rfl uid _ volume.entries (point 2) _ usedIndex with
      old | new
    · exact Or.inl (before 2 index old)
    · exact Or.inr new
  | fat32 =>
    obtain ⟨after, is⟩ := registers volume.rootKey
    obtain ⟨slot, inside, free, same⟩ := mountRegister_some is
    simp only [is] at tree ⊢
    refine ⟨trivial, ?_⟩
    rw [same]
    refine inv.attach used childless unmounted tree (populate_extends _ _ _ _ _ _ _)
      (fun index usedIndex => ?_) on inside free
    rcases @populate_inside _ _ .fat32Dir .fat32File fillFat32_shape
      (by rintro type (rfl | rfl) <;> decide) rfl uid _ volume.entries (point volume.rootKey)
      _ usedIndex with old | new
    · exact Or.inl (before volume.rootKey index old)
    · exact Or.inr new
  | tmpfs =>
    obtain ⟨after, is⟩ := registers 0
    obtain ⟨slot, inside, free, same⟩ := mountRegister_some is
    simp only [is] at tree ⊢
    refine ⟨trivial, ?_⟩
    rw [same]
    exact inv.attach used childless unmounted tree (fun _ _ => rfl)
      (fun index usedIndex => Or.inl (before 0 index usedIndex)) on inside free

theorem mountAt_inv {kind : MountKind} {drive : Int} {volume : Volume} {uid node : Nat}
    (inv : MountInv ⟨nodes, layer⟩) (used : (nodes node).inUse = true)
    (childless : ∀ child, ¬ ParentOf nodes child node)
    (unmounted : mountLookup layer node = none) (can : Mountable layer kind volume)
    (on : kind ≠ .tmpfs → 0 ≤ drive) :
    (mountAt nodes layer kind drive volume uid node).result = 0 ∧
      MountInv (.mounted (mountAt nodes layer kind drive volume uid node)) := by
  obtain ⟨room, loaded⟩ := can
  unfold mountAt
  rw [if_neg (by rw [unmounted]; simp)]
  cases kind with
  | ext2 =>
    simp only [loaded (by simp), ext2Init, if_true]
    exact @attachVolume_inv _ { layer with ext2 := ⟨drive, some drive⟩ } _ _ _ _ _
      (inv.drivers rfl (Or.inl rfl) inv.fat32) used childless unmounted room on
  | fat32 =>
    simp only [loaded (by simp), fat32Init, if_true]
    exact @attachVolume_inv _ { layer with fat32 := ⟨drive, some drive⟩ } _ _ _ _ _
      (inv.drivers rfl inv.ext2 (Or.inl rfl)) used childless unmounted room on
  | tmpfs => exact attachVolume_inv inv used childless unmounted room on

/-- A mount on a node succeeds, or it changes nothing. -/
theorem mountNode_inv {kind : MountKind} {drive : Int} {volume : Volume} {uid node : Nat}
    (inv : MountInv ⟨nodes, layer⟩) (used : (nodes node).inUse = true)
    (can : isDir nodes node = true → dirIsEmpty nodes node = true →
      mountLookup layer node = none → Mountable layer kind volume)
    (on : kind ≠ .tmpfs → 0 ≤ drive) :
    ((mountNode nodes layer kind drive volume uid node).result = 0 ∨
      mountNode nodes layer kind drive volume uid node = ⟨-1, nodes, layer, []⟩) ∧
      MountInv (.mounted (mountNode nodes layer kind drive volume uid node)) := by
  unfold mountNode
  split
  · exact ⟨Or.inr rfl, inv⟩
  rename_i directory
  rw [not_or, Bool.not_eq_false, Bool.not_eq_false] at directory
  cases found : mountLookup layer node with
  | some slot =>
    have same : mountAt nodes layer kind drive volume uid node = ⟨-1, nodes, layer, []⟩ := by
      unfold mountAt
      rw [if_pos (by rw [found]; rfl)]
    rw [same]
    exact ⟨Or.inr rfl, inv⟩
  | none =>
    have childless : ∀ child, ¬ ParentOf nodes child node := by
      intro child link
      have empty := directory.2
      unfold dirIsEmpty at empty
      rw [show hasChildren nodes node = true from inv.tree.hasChild link] at empty
      exact absurd empty (by simp)
    obtain ⟨done, after⟩ := @mountAt_inv _ _ _ _ _ uid _ inv used childless found
      (can directory.1 directory.2 found) on
    exact ⟨Or.inl done, after⟩

/-- A mount on a new node succeeds, or no node in use changes. -/
theorem mountFresh_inv {kind : MountKind} {drive : Int} {volume : Volume} {answer : Answer}
    {uid : Nat} {name : Name} {parent : Nat} (inv : MountInv ⟨nodes, layer⟩)
    (can : isDir nodes parent = true → Mountable layer kind volume)
    (on : kind ≠ .tmpfs → 0 ≤ drive) :
    ((mountFresh nodes layer kind drive volume answer uid name parent).result = 0 ∨
      SameUsed nodes (mountFresh nodes layer kind drive volume answer uid name parent).nodes ∧
        (mountFresh nodes layer kind drive volume answer uid name parent).layer = layer) ∧
      MountInv (.mounted (mountFresh nodes layer kind drive volume answer uid name parent)) := by
  have created := inv.create answer uid name parent (show onVolume .dir = false from rfl)
  unfold mountFresh
  split
  · exact ⟨Or.inr ⟨fun _ => ⟨rfl, fun _ => rfl⟩, rfl⟩, inv⟩
  rename_i directory
  rw [Bool.not_eq_false] at directory
  rcases createNode_cases nodes answer uid name .dir parent with
    ⟨index, settled, done, _, added⟩ | ⟨code, next, done, _, idle⟩
  · simp only [done] at created ⊢
    have unmounted : mountLookup layer index = none := by
      refine mountLookup_none.mpr fun slot within used named => ?_
      have inUse := (inv.names slot within used).1
      rw [show (layer.mounts slot).node = index from named, added.free] at inUse
      exact absurd inUse (by simp)
    have childless : ∀ child, ¬ ParentOf (update nodes index settled) child index := by
      intro child link
      rcases eq_or_ne child index with rfl | different
      · exact created.tree.acyclic (Relation.TransGen.single link)
      · rw [ParentOf, update_of_ne different] at link
        exact inv.tree.childless added.free link
    obtain ⟨result, after⟩ := @mountAt_inv _ _ _ drive _ uid _ created added.used
      childless unmounted (can directory) on
    exact ⟨Or.inl result, after⟩
  · simp only [done] at created ⊢
    refine ⟨Or.inr ⟨fun other => ?_, trivial⟩, created⟩
    rcases idle other with same | free
    · exact ⟨by rw [same], fun _ => same⟩
    · refine ⟨by rw [free.1, free.2], fun used => ?_⟩
      rw [free.1] at used
      exact absurd used (by simp)

/-! ### Unmounts and clears -/

theorem MountInv.detach {node slot : Nat} {next : Nodes} {freed : List Nat} {may : Nat → Prop}
    (inv : MountInv ⟨nodes, layer⟩) (found : mountLookup layer node = some slot)
    (freed' : Freed nodes next freed may)
    (tree : TreeSound (update next node (next node).unmounted))
    (spared : ∀ other < maxMounts, (layer.mounts other).inUse = true → other ≠ slot →
      (layer.mounts other).node ∉ freed)
    (empty : ∀ child kind, (next child).inUse = true → kindOf (nodes child).type = some kind →
      kind ≠ .tmpfs → (nodes child).parent = some node →
      kindOf (nodes node).type = some kind → False) :
    MountInv ⟨update next node (next node).unmounted, { layer with
      mounts := update layer.mounts slot { layer.mounts slot with inUse := false } }⟩ := by
  obtain ⟨within, inUse, named⟩ := mountLookup_some found
  have entries : ∀ other, (update layer.mounts slot { layer.mounts slot with inUse := false }
      other).inUse = true → other ≠ slot ∧ (layer.mounts other).inUse = true ∧
      update layer.mounts slot { layer.mounts slot with inUse := false } other =
        layer.mounts other := by
    intro other used
    rcases eq_or_ne other slot with rfl | different
    · rw [update_self] at used
      exact absurd used (by simp)
    · rw [update_of_ne different] at used
      exact ⟨different, used, update_of_ne different _ _⟩
  refine ⟨tree, fun other inside used => ?_, fun first firstIn second secondIn usedFirst usedSecond
    same => ?_, fun other inside used drive => ?_, inv.ext2, inv.fat32,
    fun index kind used typed drive lookup => ?_⟩
  · obtain ⟨different, old, same⟩ := entries other used
    simp only [same]
    have apart : (layer.mounts other).node ≠ node := by
      intro here
      exact different (inv.once other inside slot within old inUse (here.trans named.symm))
    rw [update_of_ne apart, freed'.kept (spared other inside old different)]
    exact inv.names other inside old
  · obtain ⟨_, oldFirst, sameFirst⟩ := entries first usedFirst
    obtain ⟨_, oldSecond, sameSecond⟩ := entries second usedSecond
    simp only [sameFirst, sameSecond] at same
    exact inv.once first firstIn second secondIn oldFirst oldSecond same
  · obtain ⟨_, old, same⟩ := entries other used
    simp only [same] at drive ⊢
    exact inv.drives other inside old drive
  · have other : index ≠ node := by
      rintro rfl
      simp only [update_self] at typed
      exact absurd typed (by simp [FsNode.unmounted, kindOf])
    simp only [update_of_ne other] at used typed
    have same := freed'.same used
    have stays := used
    rw [same] at used typed
    have notFound : mountLookup layer index = none := by
      refine mountLookup_none.mpr fun entry inside usedEntry at' => ?_
      have different : entry ≠ slot := by
        rintro rfl
        exact other (at'.symm.trans named)
      refine mountLookup_none.mp lookup entry inside ?_ ?_
      · simp only [update_of_ne different]
        exact usedEntry
      · simp only [update_of_ne different]
        exact at'
    obtain ⟨parent, link, above⟩ := inv.inside index kind used typed drive notFound
    have notPoint : parent ≠ node := by
      rintro rfl
      exact empty index kind stays typed drive link.2 above
    have link' : ParentOf (update next node (next node).unmounted) index parent := by
      rw [ParentOf, update_of_ne other, same]
      exact link
    refine ⟨parent, link', ?_⟩
    have parentUsed := tree.parent_used link'
    simp only [update_of_ne notPoint] at parentUsed ⊢
    rw [freed'.same parentUsed]
    exact above

theorem umountNode_inv {node : Nat} (inv : MountInv state)
    (used : (state.nodes node).inUse = true) (tidy : TidyUmount state.nodes state.layer node)
    (orderly : ∀ slot, mountLookup state.layer node = some slot →
      ∀ other < maxMounts, (state.layer.mounts other).inUse = true → other ≠ slot →
        ¬ Drops state node slot (state.layer.mounts other).node) :
    MountInv (.mounted (umountNode state.nodes state.layer node)) := by
  have tree := umountNode_tree inv.tree used tidy
  unfold umountNode at tree ⊢
  cases found : mountLookup state.layer node with
  | none => exact inv
  | some slot =>
    simp only [found] at tree ⊢
    obtain ⟨within, inUse, named⟩ := mountLookup_some found
    have fine := tidy slot found
    by_cases ram : (state.layer.mounts slot).kind = .tmpfs
    · simp only [if_pos ram] at tree ⊢
      have freed := tmpfsFreeSubtree_freed state.nodes node
      refine inv.detach found freed tree (fun other inside old different member => ?_)
        fun child kind _ _ drive _ above => ?_
      · have not := orderly slot found other inside old different
        unfold Drops at not
        rw [if_pos ram] at not
        obtain ⟨typed, parent, _⟩ := freed.may _ member
        exact not ⟨typed, parent⟩
      · have type := (inv.names slot within inUse).2
        rw [named, ram] at type
        rw [type] at above
        exact drive (Option.some.inj above).symm
    · simp only [if_neg ram] at tree ⊢
      rw [if_neg ram] at fine
      have freed := clearChildren_freed state.nodes node
      refine inv.detach found freed tree (fun other inside old different member => ?_)
        fun child kind stays _ _ parent _ => ?_
      · have not := orderly slot found other inside old different
        unfold Drops at not
        rw [if_neg ram] at not
        exact not (freed.may _ member)
      · have old : (state.nodes child).inUse = true := by
          rw [← freed.same stays]
          exact stays
        have gone := freed.gone (clearChildren_all inv.tree (inv.tree.within node used) fine
          (Relation.TransGen.single ⟨old, parent⟩))
        rw [gone] at stays
        exact absurd stays (by simp)

/-! ### Selections -/

theorem OnVolume.entry {node slot : Nat} (on : OnVolume nodes layer slot node) :
    slot < maxMounts ∧ (layer.mounts slot).inUse = true := by
  induction on with
  | point here => exact ⟨(mountLookup_some here).1, (mountLookup_some here).2.1⟩
  | under _ _ _ inductionHypothesis => exact inductionHypothesis

/-- What the walk up finds is the entry of the nearest mount point. -/
theorem enclosingMount_onVolume (sound : TreeSound nodes) {fuel node slot : Nat}
    (used : (nodes node).inUse = true) (found : enclosingMount nodes layer fuel node = some slot) :
    OnVolume nodes layer slot node := by
  induction fuel generalizing node with
  | zero => exact absurd found (by simp [enclosingMount])
  | succ fuel inductionHypothesis =>
    rw [enclosingMount] at found
    split at found
    · exact absurd found (by simp)
    split at found
    · rename_i here
      rw [← Option.some.inj found]
      exact .point here
    · rename_i none'
      split at found
      · exact absurd found (by simp)
      · rename_i parent is
        split at found
        · exact absurd found (by simp)
        · have link : ParentOf nodes node parent := ⟨used, is⟩
          exact .under none' link (inductionHypothesis (sound.parent_used link) found)

theorem mountSelectDrive_inv {kind : MountKind} {drive : Int} (inv : MountInv ⟨nodes, layer⟩)
    (on : 0 ≤ drive) (special : kind ≠ .tmpfs) :
    (mountSelectDrive layer kind drive .loaded).2 = true ∧
      driverOf (mountSelectDrive layer kind drive .loaded).1 kind = some ⟨drive, some drive⟩ ∧
      MountInv ⟨nodes, (mountSelectDrive layer kind drive .loaded).1⟩ := by
  have held : ∀ backend : Backend, backend.Held → backend.drive = drive →
      backend = ⟨drive, some drive⟩ := by
    rintro ⟨current, superblock⟩ (is | ⟨_, off⟩) rfl
    · simp only at is
      rw [is]
    · simp only at off on
      omega
  cases kind with
  | ext2 =>
    unfold mountSelectDrive
    simp only
    split
    · rename_i same
      exact ⟨rfl, congrArg some (held _ inv.ext2 same), inv⟩
    · exact ⟨rfl, rfl, inv.drivers rfl (Or.inl rfl) inv.fat32⟩
  | fat32 =>
    unfold mountSelectDrive
    simp only
    split
    · rename_i same
      exact ⟨rfl, congrArg some (held _ inv.fat32 same), inv⟩
    · exact ⟨rfl, rfl, inv.drivers rfl inv.ext2 (Or.inl rfl)⟩
  | tmpfs => exact absurd rfl special

/-- A selection keeps the promise about the call and the invariant. -/
theorem select_kept (inv : MountInv state) (node : Nat) :
    CallKept state (state.apply (.select .loaded node)) (.select .loaded node) ∧
      MountInv (state.apply (.select .loaded node)) := by
  unfold CallKept VfsState.apply
  simp only
  unfold mountSelectForNode
  split
  · exact ⟨by simp, inv⟩
  rename_i inside
  rw [not_or, Bool.not_eq_false] at inside
  split
  · rename_i plain
    refine ⟨?_, inv⟩
    simp only [if_true]
    exact fun kind typed => absurd (plain.symm.trans typed) (by simp)
  rename_i kind typed
  split
  · exact ⟨by simp, inv⟩
  rename_i slot found
  split
  · exact ⟨by simp, inv⟩
  rename_i same
  rw [not_not] at same
  have on := enclosingMount_onVolume inv.tree inside.2 found
  split
  · rename_i ram
    refine ⟨?_, inv⟩
    simp only [if_true]
    intro other is special
    obtain rfl := Option.some.inj (typed.symm.trans is)
    exact absurd ram special
  · rename_i special
    have entry := on.entry
    obtain ⟨done, driver, after⟩ := mountSelectDrive_inv inv
      (inv.drives slot entry.1 entry.2 (by rw [same]; exact special)) special
    refine ⟨?_, after⟩
    rw [if_pos done]
    intro other is _
    obtain rfl := Option.some.inj (typed.symm.trans is)
    exact ⟨slot, on, driver⟩

/-! ### Runs -/

theorem MountInv.step {label : VfsLabel} (inv : MountInv state) (orderly : Orderly state label)
    (enabled : state.Enabled label) :
    CallKept state (state.apply label) label ∧ MountInv (state.apply label) := by
  obtain ⟨tidy, orderly⟩ := orderly
  cases label with
  | create answer uid name type parent => exact ⟨trivial, inv.create _ _ _ _ enabled⟩
  | relabel index changed =>
    obtain ⟨same, _, _⟩ := enabled
    exact ⟨trivial, inv.retype same.inUse same.name same.parent same.type⟩
  | symlink uid target name dir =>
    refine ⟨trivial, ?_⟩
    have created := inv.create none uid name dir (show onVolume .symlink = false from rfl)
    show MountInv { state with nodes := (symlinkNode state.nodes uid target name dir).2 }
    unfold symlinkNode
    split
    · rename_i done
      simp only [done] at created
      exact created
    · rename_i done
      simp only [done] at created
      exact created.retype rfl rfl rfl (Or.inl rfl)
  | hardlink answer uid source name dir =>
    refine ⟨trivial, ?_⟩
    have created := inv.create answer uid name dir (show onVolume .file = false from rfl)
    show MountInv { state with nodes := (hardlinkNode state.nodes answer uid source name dir).2 }
    unfold hardlinkNode
    split
    · rename_i done
      simp only [done] at created
      exact created
    · rename_i done
      simp only [done] at created
      exact created.retype rfl rfl rfl (Or.inl rfl)
  | delete busy uid node => exact ⟨trivial, inv.delete enabled tidy orderly⟩
  | rename busy renamed uid node newParent newPath target =>
    exact ⟨trivial, inv.rename renamed enabled.2 (lastName_slash newPath) tidy orderly⟩
  | mount kind drive volume uid node =>
    obtain ⟨done, after⟩ := @mountNode_inv _ _ _ _ _ uid _ inv enabled.2 orderly
      fun special => (enabled.1 special).1
    refine ⟨fun failed => ?_, after⟩
    rcases done with zero | same
    · rw [zero] at failed
      exact absurd failed (by decide)
    · show SameUsed state.nodes (mountNode state.nodes state.layer kind drive volume uid node).nodes ∧
        (mountNode state.nodes state.layer kind drive volume uid node).layer = state.layer
      rw [same]
      exact ⟨fun _ => ⟨rfl, fun _ => rfl⟩, rfl⟩
  | mountFresh kind drive volume answer uid name parent =>
    obtain ⟨done, after⟩ := @mountFresh_inv _ _ _ _ _ answer uid name _ inv orderly
      fun special => (enabled special).1
    refine ⟨fun failed => ?_, after⟩
    rcases done with zero | same
    · rw [zero] at failed
      exact absurd failed (by decide)
    · exact same
  | umount node => exact ⟨trivial, umountNode_inv inv enabled tidy orderly⟩
  | clear node =>
    refine ⟨trivial, ?_⟩
    have freed := clearChildren_freed state.nodes node
    exact inv.drop freed (TreeSound.step inv.tree tidy enabled)
      fun slot within used member => orderly slot within used (freed.may _ member)
  | select init node =>
    obtain rfl := orderly
    exact select_kept inv node

/-- A tree in which nothing is mounted and no driver was selected. -/
def VfsState.Unmounted (state : VfsState) : Prop :=
  TreeSound state.nodes ∧ (∀ slot, (state.layer.mounts slot).inUse = false) ∧
    (∀ node, (state.nodes node).inUse = true → onVolume (state.nodes node).type = false) ∧
    state.layer.ext2 = ⟨-1, none⟩ ∧ state.layer.fat32 = ⟨-1, none⟩

theorem VfsState.Unmounted.inv (unmounted : state.Unmounted) : MountInv state := by
  obtain ⟨tree, free, plain, ext2, fat32⟩ := unmounted
  refine ⟨tree, fun slot _ used => ?_, fun slot _ _ _ used => ?_, fun slot _ used => ?_, ?_, ?_,
    fun node kind used typed drive _ => ?_⟩
  · rw [free slot] at used
    exact absurd used (by simp)
  · rw [free slot] at used
    exact absurd used (by simp)
  · rw [free slot] at used
    exact absurd used (by simp)
  · rw [ext2]
    exact Or.inr ⟨rfl, rfl⟩
  · rw [fat32]
    exact Or.inr ⟨rfl, rfl⟩
  · exact absurd (onVolume_kindOf (plain node used) typed) drive

/-- In every orderly run the table keeps its promise, and so does every call. -/
theorem mounts_kept
    (reachable : (vfsSystem VfsState.Unmounted).Reachable Orderly state) :
    MountsKept state ∧ ∀ label, Orderly state label → state.Enabled label →
      CallKept state (state.apply label) label := by
  have inv : MountInv state := by
    refine reachable.invariant MountInv (fun _ initial => VfsState.Unmounted.inv initial) ?_
    rintro start label next before orderly ⟨enabled, rfl⟩
    exact (before.step orderly enabled).2
  exact ⟨inv.kept, fun label orderly enabled => (inv.step orderly enabled).1⟩

/-! ### Two runs -/

theorem ramTree_unmounted : ramTree.Unmounted := by
  refine ⟨ramTree_sound, fun _ => rfl, fun node used => ?_, rfl, rfl⟩
  match node with
  | 0 => rfl
  | 1 => rfl
  | 2 => rfl
  | 3 => rfl
  | node + 4 => exact absurd used (by simp [ramTree])

/-- A volume with one file. -/
def oneFile : Volume := ⟨.loaded, 2, [⟨4, false, ['x'], 12, 5, 0, 0, 0x1A4⟩]⟩

/-- The volume is mounted on a new directory. -/
theorem mounts_kept_mounted : ∃ state : VfsState, (state.layer.mounts 0).inUse = true ∧
    (state.layer.mounts 0).node = 4 ∧ (state.nodes 5).type = .ext2File ∧
    state.layer.ext2.superblock = some 1 ∧ MountsKept state := by
  have initial : (vfsSystem VfsState.Unmounted).Reachable Orderly ramTree :=
    .init ramTree_unmounted
  have room : hasRoom ramTree.layer := ⟨0, by decide, rfl⟩
  have orderly : Orderly ramTree (.mountFresh .ext2 1 oneFile none 0 ['m'] 0) :=
    ⟨Or.inl room, fun _ => ⟨room, fun _ => rfl⟩⟩
  have mounted := initial.step orderly ⟨fun _ => ⟨by decide, by decide⟩, rfl⟩
  exact ⟨_, by decide +kernel, by decide +kernel, by decide +kernel, by decide +kernel,
    (mounts_kept mounted).1⟩

/-- A tmpfs is mounted on a new directory. -/
def tmpfsMounted : VfsState :=
  ramTree.apply (.mountFresh .tmpfs (-1) ⟨.rejected, 0, []⟩ none 0 ['m'] 0)

theorem tmpfsMounted_point : (tmpfsMounted.nodes 4).inUse = true ∧
    (tmpfsMounted.layer.mounts 0).inUse = true ∧ (tmpfsMounted.layer.mounts 0).node = 4 := by
  decide +kernel

theorem VfsState.delete_layer (state : VfsState) (busy : Nat → Bool) (uid node : Nat) :
    (state.apply (.delete busy uid node)).layer = state.layer :=
  rfl

/-- The mount point is deleted, and the entry of the table stays. -/
theorem delete_mount_point : ¬ ∀ state : VfsState,
    (vfsSystem VfsState.Unmounted).Reachable anyStep state →
      MountsKept state ∧ ∀ label, state.Enabled label →
        CallKept state (state.apply label) label := by
  intro kept
  have initial : (vfsSystem VfsState.Unmounted).Reachable anyStep ramTree :=
    .init ramTree_unmounted
  have mounted : (vfsSystem VfsState.Unmounted).Reachable anyStep tmpfsMounted :=
    initial.step (show anyStep ramTree (.mountFresh .tmpfs (-1) ⟨.rejected, 0, []⟩ none 0 ['m'] 0)
      from trivial) ⟨fun special => absurd rfl special, rfl⟩
  have deleted := mounted.step
    (show anyStep tmpfsMounted (.delete (fun _ => false) 0 4) from trivial)
    ⟨tmpfsMounted_point.1, rfl⟩
  have named := (kept _ deleted).1.names 0 (by decide)
  rw [VfsState.delete_layer] at named
  have stale := (named tmpfsMounted_point.2.1).1
  rw [tmpfsMounted_point.2.2] at stale
  exact absurd stale (by decide +kernel)

end MectovOS.Vfs
