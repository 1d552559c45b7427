/-
This file proves that the node table stays a tree in every run whose steps are
tidy: a delete does not leave the contents of a RAM directory behind, a rename
gives a name and goes to a directory where the name is or becomes free, and what
is dropped at once lies in the order that the walkers need.
-/

import MectovOS.Vfs.Sweeps
import MectovOS.Vfs.System

namespace MectovOS.Vfs

open Transition Function

variable {nodes next : Nodes}

/-! ### New nodes -/

theorem TreeSound.idle (sound : TreeSound nodes) (idle : Idle nodes next) : TreeSound next := by
  have inUse : ∀ node, (next node).inUse = (nodes node).inUse := by
    intro node
    rcases idle node with same | free
    · rw [same]
    · rw [free.1, free.2]
  have same : ∀ node, (nodes node).inUse = true → next node = nodes node := by
    intro node used
    rcases idle node with same | free
    · exact same
    · rw [free.1] at used
      exact absurd used (by simp)
  refine sound.reshape ⟨inUse, fun node used => ?_, fun node used => ?_, fun node used => ?_⟩
  · rw [same node used]
  · rw [same node used]
  · rw [same node used]
    exact id

theorem TreeSound.create (sound : TreeSound nodes) (answer : Answer) (uid : Nat) (name : Name)
    (type : FsType) (parent : Nat) :
    TreeSound (createNode nodes answer uid name type parent).2 := by
  rcases createNode_cases nodes answer uid name type parent with
    ⟨index, settled, done, _, added⟩ | ⟨code, next, done, _, idle⟩
  · rw [done]
    exact sound.add added
  · rw [done]
    exact sound.idle idle

theorem TreeSound.relabel (sound : TreeSound nodes) {index : Nat} {changed : FsNode}
    (relabelled : Relabelled (nodes index) changed) :
    TreeSound (update nodes index changed) := by
  refine sound.reshape (SameShape.update relabelled.inUse relabelled.name relabelled.parent
    fun dir => ?_)
  rcases relabelled.type with same | ⟨proc, _⟩
  · rw [same]
    exact dir
  · rw [proc] at dir
    exact absurd dir (by decide)

/-- What a walk does keeps the tree. -/
theorem TreeSound.walked {caller : Caller} (sound : TreeSound nodes)
    (walked : Walked caller nodes next) : TreeSound next := by
  induction walked with
  | refl => exact sound
  | tail _ step inductionHypothesis =>
    cases step with
    | create => exact inductionHypothesis.create _ _ _ _ _
    | relabel relabelled _ _ => exact inductionHypothesis.relabel relabelled

theorem TreeSound.symlink (sound : TreeSound nodes) (uid : Nat) (target name : Name) (dir : Nat) :
    TreeSound (symlinkNode nodes uid target name dir).2 := by
  have made := sound.create none uid name .symlink dir
  unfold symlinkNode
  split
  · rename_i done
    rw [done] at made
    exact made
  · rename_i done
    rw [done] at made
    exact made.reshape (SameShape.update rfl rfl rfl id)

theorem TreeSound.hardlink (sound : TreeSound nodes) (answer : Answer) (uid source : Nat)
    (name : Name) (dir : Nat) : TreeSound (hardlinkNode nodes answer uid source name dir).2 := by
  have made := sound.create answer uid name .file dir
  unfold hardlinkNode
  split
  · rename_i done
    rw [done] at made
    exact made
  · rename_i done
    rw [done] at made
    exact made.reshape (SameShape.update rfl rfl rfl id)

/-! ### Renames -/

/-- A rename is tidy: the new name is not empty, the new parent is a directory, and the name is
free there, is that of the node itself, or is that of the node that the new path names, which can
be deleted cleanly. -/
structure TidyRename (nodes : Nodes) (busy : Nat → Bool) (node newParent : Nat) (name : Name)
    (target : Option Nat) : Prop where
  named : name ≠ []
  directory : (nodes newParent).inUse = true ∧ isDirType (nodes newParent).type = true
  cleared : ∀ existing, findInDir nodes name newParent = some existing →
    (target = some existing ∧ Clean nodes existing ∧
      (existing ≠ node → isDeletable nodes busy existing = true)) ∨
    (existing = node ∧ target = none)

/-- The last name of a path has no slash. -/
theorem lastName_slash (path : Name) : '/' ∉ lastName path := by
  intro member
  have inside := List.mem_rtakeWhile_imp (List.mem_of_mem_take member)
  exact absurd inside (by simp)

theorem findInDir_isSome (sound : TreeSound nodes) {name : Name} {dir node : Nat}
    (directory : (nodes dir).inUse = true ∧ isDirType (nodes dir).type = true)
    (used : (nodes node).inUse = true) (parent : (nodes node).parent = some dir)
    (alike : strToLower (nodes node).name = strToLower name) :
    findInDir nodes name dir = some node := by
  have some' : (findInDir nodes name dir).isSome = true := by
    unfold findInDir
    rw [if_neg (Nat.not_le.mpr (sound.within dir directory.1)),
      if_neg (by rw [directory.1, directory.2]; simp)]
    refine List.find?_isSome.mpr ⟨node, List.mem_range.mpr (sound.within node used), ?_⟩
    unfold isChildNamed
    simp [used, parent, alike]
  obtain ⟨other, is⟩ := Option.isSome_iff_exists.mp some'
  obtain ⟨otherUsed, otherParent, otherAlike⟩ := findInDir_some is
  have notRoot := below_ne_root sound (Relation.TransGen.single ⟨used, parent⟩)
  have otherNotRoot := below_ne_root sound (Relation.TransGen.single ⟨otherUsed, otherParent⟩)
  rw [is, sound.unique node other notRoot otherNotRoot used otherUsed
    (parent.trans otherParent.symm) (alike.trans otherAlike.symm)]

/-- The removal of the target leaves a tree in which the new parent is as it was. -/
theorem clearTarget_tree {busy : Nat → Bool} {actingUid node newParent : Nat} {name : Name}
    {target : Option Nat} (sound : TreeSound nodes)
    (tidy : TidyRename nodes busy node newParent name target) :
    TreeSound (clearTarget nodes busy actingUid newParent name target).nodes ∧
    ∃ freed may, Freed nodes (clearTarget nodes busy actingUid newParent name target).nodes freed
        may ∧ newParent ∉ freed ∧
      ∀ existing, findInDir nodes name newParent = some existing → existing ≠ node →
        existing ∈ freed := by
  cases found : findInDir nodes name newParent with
  | none =>
    have nothing : clearTarget nodes busy actingUid newParent name target = Sweep.start nodes := by
      unfold clearTarget
      rw [found]
    rw [nothing]
    exact ⟨sound, [], fun _ => True, Freed.start nodes _, List.not_mem_nil,
      fun _ absurd' => absurd absurd' (by simp)⟩
  | some existing =>
    obtain ⟨used, parent, _⟩ := findInDir_some found
    rcases tidy.cleared existing found with ⟨rfl, clean, deletable⟩ | ⟨same, rfl⟩
    · have deleted : clearTarget nodes busy actingUid newParent name (some existing) =
          (deleteNode nodes busy actingUid existing).2 := by
        unfold clearTarget
        rw [found]
      rw [deleted]
      have freed := deleteNode_freed nodes busy actingUid used
      refine ⟨deleteNode_tree sound used clean, _, _, freed, fun member => ?_,
        fun other is different => ?_⟩
      · have child : ParentOf nodes existing newParent := ⟨used, parent⟩
        rcases freed.may newParent member with here | below
        · rw [here] at child
          exact sound.acyclic (Relation.TransGen.single child)
        · exact sound.acyclic (Relation.TransGen.head child below)
      · obtain rfl := Option.some.inj is
        rcases deleteNode_eq nodes busy actingUid existing with ⟨_, done⟩ | ⟨refused, _⟩
        · rw [done]
          exact List.mem_cons_self
        · rw [deletable different] at refused
          exact absurd refused (by simp)
    · have nothing : clearTarget nodes busy actingUid newParent name none = Sweep.start nodes := by
        unfold clearTarget
        rw [found]
      rw [nothing]
      refine ⟨sound, [], fun _ => True, Freed.start nodes _, List.not_mem_nil,
        fun other is different => ?_⟩
      obtain rfl := Option.some.inj is
      exact absurd same different

theorem renameNode_tree {busy : Nat → Bool} {actingUid node newParent : Nat} {name : Name}
    {target : Option Nat} (renamed : Bool) (sound : TreeSound nodes) (slash : '/' ∉ name)
    (tidy : TidyRename nodes busy node newParent name target) :
    TreeSound (renameNode nodes busy renamed actingUid node newParent name target).nodes := by
  rcases renameNode_cases nodes busy renamed actingUid node newParent name target with
    ⟨code, _, done⟩ | ⟨sweep, is, notRoot, other, apart, moves⟩
  · rw [done]
    exact sound
  obtain ⟨left, freed, may, freed', stays, gone⟩ :=
    @clearTarget_tree _ _ actingUid _ _ _ _ sound tidy
  rw [← is] at left freed'
  rcases moves with ⟨_, done⟩ | ⟨_, done⟩
  · rw [done]
    exact left
  rw [done]
  have kept : sweep.nodes newParent = nodes newParent := freed'.kept stays
  have links : ∀ child parent, ParentOf sweep.nodes child parent → ParentOf nodes child parent := by
    intro child parent link
    rw [ParentOf, freed'.same link.1] at link
    exact link
  refine left.move notRoot ?_ ?_ ⟨tidy.named, slash⟩ fun child different _ used parent alike => ?_
  · rw [kept]
    exact tidy.directory
  · exact fun way => not_leadsThrough sound.root.2.2 notRoot apart
      (Relation.ReflTransGen.mono links _ _ way)
  · have same := freed'.same used
    rw [same] at used parent alike
    have found := findInDir_isSome sound tidy.directory used parent alike
    have member := gone child found different
    rw [freed'.slot, if_pos member] at same
    have free := congrArg FsNode.inUse same
    rw [used] at free
    exact absurd free (by simp [FsNode.released])

/-! ### Mounts -/

theorem fillExt2_shape (entry : VolumeEntry) (node : FsNode) :
    (fillExt2 entry node).inUse = node.inUse ∧ (fillExt2 entry node).name = node.name ∧
      (fillExt2 entry node).parent = node.parent ∧ (fillExt2 entry node).type = node.type :=
  ⟨rfl, rfl, rfl, rfl⟩

theorem fillFat32_shape (entry : VolumeEntry) (node : FsNode) :
    (fillFat32 entry node).inUse = node.inUse ∧ (fillFat32 entry node).name = node.name ∧
      (fillFat32 entry node).parent = node.parent ∧ (fillFat32 entry node).type = node.type :=
  ⟨rfl, rfl, rfl, rfl⟩

/-- A volume fills a tree with a tree. -/
theorem TreeSound.populate {fill : VolumeEntry → FsNode → FsNode} {dirType fileType : FsType}
    (shape : ∀ entry node, (fill entry node).inUse = node.inUse ∧
      (fill entry node).name = node.name ∧ (fill entry node).parent = node.parent ∧
      (fill entry node).type = node.type)
    (uid : Nat) (made : List Nat) (entries : List VolumeEntry) (sound : TreeSound nodes) :
    TreeSound (populate fill dirType fileType uid made nodes entries) := by
  induction entries generalizing made nodes with
  | nil => exact sound
  | cons entry rest inductionHypothesis =>
    have created := sound.create none uid entry.name (if entry.isDir then dirType else fileType)
      entry.parent
    unfold Vfs.populate
    split
    · split
      · rename_i index next done
        rw [done] at created
        obtain ⟨inUse, name, parent, type⟩ := shape entry (next index)
        refine inductionHypothesis _ (created.reshape (SameShape.update inUse name parent ?_))
        rw [type]
        exact id
      · rename_i done
        rw [done] at created
        exact inductionHypothesis _ created
    · exact inductionHypothesis _ sound

/-- The entries of a volume lie in one directory. -/
def OneDirectory (entries : List VolumeEntry) : Prop :=
  ∃ point, ∀ entry ∈ entries, entry.parent = point

/-- Then every new node lies in that directory. -/
theorem populate_flat {fill : VolumeEntry → FsNode → FsNode} {dirType fileType : FsType}
    (shape : ∀ entry node, (fill entry node).inUse = node.inUse ∧
      (fill entry node).name = node.name ∧ (fill entry node).parent = node.parent ∧
      (fill entry node).type = node.type)
    (uid : Nat) (made : List Nat) {entries : List VolumeEntry} {point : Nat}
    (one : ∀ entry ∈ entries, entry.parent = point) {index : Nat}
    (used : (populate fill dirType fileType uid made nodes entries index).inUse = true) :
    (nodes index).inUse = true ∨
      (populate fill dirType fileType uid made nodes entries index).parent = some point := by
  induction entries generalizing made nodes with
  | nil => exact Or.inl used
  | cons entry rest inductionHypothesis =>
    have later : ∀ entry ∈ rest, entry.parent = point := fun other member =>
      one other (List.mem_cons_of_mem _ member)
    have here : entry.parent = point := one entry List.mem_cons_self
    rcases createNode_cases nodes none uid entry.name (if entry.isDir then dirType else fileType)
        entry.parent with ⟨slot, settled, created, _, added⟩ | ⟨code, after, failed, _, idle⟩
    · unfold Vfs.populate at used ⊢
      rw [created] at used ⊢
      simp only at used ⊢
      split at used
      · rename_i member
        rw [if_pos member]
        obtain ⟨inUse, _, parent, _⟩ := shape entry (update nodes slot settled slot)
        have grown := populate_extends fill dirType fileType uid
          (if entry.isDir then slot :: made else made)
          (update (update nodes slot settled) slot
            (fill entry (update nodes slot settled slot))) rest
        rcases inductionHypothesis _ later used with old | new
        · rcases eq_or_ne index slot with rfl | different
          · refine Or.inr ?_
            rw [grown index old, update_self, parent, added.parent, here]
          · rw [update_of_ne different, update_of_ne different] at old
            exact Or.inl old
        · exact Or.inr new
      · rename_i outside
        rw [if_neg outside]
        exact inductionHypothesis _ later used
    · unfold Vfs.populate at used ⊢
      rw [failed] at used ⊢
      simp only at used ⊢
      split at used
      · rename_i member
        rw [if_pos member]
        rcases inductionHypothesis _ later used with old | new
        · rcases idle index with same | free
          · rw [same] at old
            exact Or.inl old
          · rw [free.2] at old
            exact absurd old (by simp)
        · exact Or.inr new
      · rename_i outside
        rw [if_neg outside]
        exact inductionHypothesis _ later used

/-- Where nothing lies below a child, `vfs_clear_children` leaves a tree. -/
theorem clearChildren_flat {node : Nat} (sound : TreeSound nodes)
    (flat : ∀ child parent, Below nodes node parent → ¬ ParentOf nodes child parent) :
    TreeSound (clearChildren nodes node).nodes := by
  have freed := clearChildren_freed nodes node
  exact sound.drop freed (fun member => below_ne_root sound (freed.may 0 member) rfl)
    fun child parent link member => absurd link (flat child parent (freed.may parent member))

/-- A point without children that is filled from one directory has nothing below its children. -/
theorem flat_filled {point node : Nat} (sound : TreeSound nodes) (full : TreeSound next)
    (childless : ∀ child, ¬ ParentOf nodes child node)
    (grown : Extends nodes next)
    (fresh : ∀ index, (next index).inUse = true →
      (nodes index).inUse = true ∨ (next index).parent = some point) :
    ∀ child parent, Below next node parent → ¬ ParentOf next child parent := by
  have old : ∀ start, Below next node start → (nodes start).inUse = true → False := by
    intro start below
    induction below using Relation.TransGen.head_induction_on with
    | single link =>
      intro used
      refine childless _ ⟨used, ?_⟩
      rw [← grown _ used]
      exact link.2
    | @head start parent link _ inductionHypothesis =>
      intro used
      refine inductionHypothesis (@TreeSound.parent_used _ sound start _ ⟨used, ?_⟩)
      rw [← grown _ used]
      exact link.2
  have direct : ∀ start, Below next node start → (next start).parent = some point := by
    intro start below
    obtain ⟨parent, link, _⟩ := Relation.TransGen.head'_iff.mp below
    exact (fresh start link.1).resolve_left fun used => old start below used
  intro child parent below link
  have up := direct parent below
  have down := direct child (Relation.TransGen.head link below)
  obtain rfl := Option.some.inj (link.2.symm.trans down)
  obtain ⟨upper, step, _⟩ := Relation.TransGen.head'_iff.mp below
  exact full.acyclic (Relation.TransGen.single ⟨step.1, up⟩)

/-- A full mount table leaves only what lies in one directory to drop. -/
theorem attachVolume_tree {layer : MountLayer} (kind : MountKind) (drive : Int) {volume : Volume}
    (uid : Nat) {node : Nat} (sound : TreeSound nodes) (within : node < maxNodes)
    (unmounted : (mountLookup layer node).isSome = false)
    (childless : ∀ child, ¬ ParentOf nodes child node)
    (tidy : hasRoom layer ∨ OneDirectory volume.entries) :
    TreeSound (attachVolume nodes layer kind drive volume uid node).nodes := by
  have shape : ∀ rootKey, SameShape nodes
      (update nodes node (mountPoint kind rootKey (nodes node))) := by
    intro rootKey
    cases kind <;> exact SameShape.update rfl rfl rfl fun _ => rfl
  have bare : ∀ rootKey child, ¬ ParentOf
      (update nodes node (mountPoint kind rootKey (nodes node))) child node := by
    intro rootKey child link
    rw [(shape rootKey).parentOf] at link
    exact childless child link
  have dropped : ∀ rootKey full, TreeSound full →
      Extends (update nodes node (mountPoint kind rootKey (nodes node))) full →
      (OneDirectory volume.entries → ∃ point, ∀ index, (full index).inUse = true →
        (update nodes node (mountPoint kind rootKey (nodes node)) index).inUse = true ∨
          (full index).parent = some point) →
      mountRegister layer node kind drive rootKey = none →
      TreeSound (update (clearChildren full node).nodes node
        { (clearChildren full node).nodes node with type := .dir }) := by
    intro rootKey full filled grown fresh none'
    have one := tidy.resolve_left (mountRegister_none within unmounted none')
    obtain ⟨point, fresh⟩ := fresh one
    have flat := flat_filled (sound.reshape (shape rootKey)) filled (bare rootKey) grown fresh
    exact (clearChildren_flat filled flat).reshape (SameShape.update rfl rfl rfl fun _ => rfl)
  unfold attachVolume
  cases kind with
  | ext2 =>
    have filled := @TreeSound.populate _ _ .ext2Dir .ext2File fillExt2_shape uid [node] volume.entries
      (sound.reshape (shape 2))
    have grown := populate_extends fillExt2 .ext2Dir .ext2File uid [node]
      (update nodes node (mountPoint .ext2 2 (nodes node))) volume.entries
    simp only
    split
    · exact filled
    · rename_i none'
      exact dropped 2 _ filled grown (fun ⟨point, one⟩ => ⟨point, fun _ used =>
        populate_flat fillExt2_shape uid [node] one used⟩) none'
  | fat32 =>
    have filled := @TreeSound.populate _ _ .fat32Dir .fat32File fillFat32_shape uid [node] volume.entries
      (sound.reshape (shape volume.rootKey))
    have grown := populate_extends fillFat32 .fat32Dir .fat32File uid [node]
      (update nodes node (mountPoint .fat32 volume.rootKey (nodes node))) volume.entries
    simp only
    split
    · exact filled
    · rename_i none'
      exact dropped volume.rootKey _ filled grown (fun ⟨point, one⟩ => ⟨point, fun _ used =>
        populate_flat fillFat32_shape uid [node] one used⟩) none'
  | tmpfs =>
    have filled := sound.reshape (shape 0)
    simp only
    split
    · exact filled
    · rename_i none'
      exact dropped 0 _ filled (fun _ _ => rfl) (fun _ => ⟨0, fun _ used => Or.inl used⟩) none'

theorem mountAt_tree {layer : MountLayer} (kind : MountKind) (drive : Int) {volume : Volume}
    (uid : Nat) {node : Nat} (sound : TreeSound nodes) (within : node < maxNodes)
    (childless : ∀ child, ¬ ParentOf nodes child node)
    (tidy : hasRoom layer ∨ OneDirectory volume.entries) :
    TreeSound (mountAt nodes layer kind drive volume uid node).nodes := by
  unfold mountAt
  split
  · exact sound
  rename_i unmounted
  rw [Bool.not_eq_true] at unmounted
  cases kind with
  | ext2 =>
    simp only
    split
    · exact attachVolume_tree .ext2 drive uid sound within unmounted childless tidy
    · exact sound
  | fat32 =>
    simp only
    split
    · exact attachVolume_tree .fat32 drive uid sound within unmounted childless tidy
    · exact sound
  | tmpfs => exact attachVolume_tree .tmpfs drive uid sound within unmounted childless tidy

theorem mountNode_tree {layer : MountLayer} (kind : MountKind) (drive : Int) {volume : Volume}
    (uid : Nat) {node : Nat} (sound : TreeSound nodes)
    (tidy : hasRoom layer ∨ OneDirectory volume.entries) :
    TreeSound (mountNode nodes layer kind drive volume uid node).nodes := by
  unfold mountNode
  split
  · exact sound
  rename_i directory
  rw [not_or, Bool.not_eq_false, Bool.not_eq_false] at directory
  obtain ⟨typed, empty⟩ := directory
  unfold isDir at typed
  simp only [Bool.and_eq_true, decide_eq_true_eq] at typed
  unfold dirIsEmpty at empty
  rw [Bool.not_eq_true'] at empty
  refine mountAt_tree kind drive uid sound typed.1.1 (fun child link => ?_) tidy
  rw [sound.hasChild link] at empty
  exact absurd empty (by simp)

theorem mountFresh_tree {layer : MountLayer} (kind : MountKind) (drive : Int) {volume : Volume}
    (answer : Answer) (uid : Nat) (name : Name) (parent : Nat) (sound : TreeSound nodes)
    (tidy : hasRoom layer ∨ OneDirectory volume.entries) :
    TreeSound (mountFresh nodes layer kind drive volume answer uid name parent).nodes := by
  have created := sound.create answer uid name .dir parent
  unfold mountFresh
  split
  · exact sound
  split
  · rename_i done
    rw [done] at created
    exact created
  · rename_i node next done
    rw [done] at created
    rcases createNode_cases nodes answer uid name .dir parent with
      ⟨index, settled, made, _, added⟩ | ⟨code, other, failed, _⟩
    · obtain ⟨same, rfl⟩ := Prod.mk.inj (done.symm.trans made)
      obtain rfl := Except.ok.inj same
      refine mountAt_tree kind drive uid created added.within (fun child link => ?_) tidy
      rcases eq_or_ne child node with rfl | different
      · exact created.acyclic (Relation.TransGen.single link)
      · have up := added.others child different
        refine @TreeSound.childless _ sound _ child added.free ?_
        unfold ParentOf at link ⊢
        rw [up] at link
        exact link
    · rw [done] at failed
      exact absurd (Prod.mk.inj failed).1 (by simp)

/-- An unmount is tidy: the children of a tmpfs are files, and on other volumes children come
first. -/
def TidyUmount (nodes : Nodes) (layer : MountLayer) (node : Nat) : Prop :=
  ∀ slot, mountLookup layer node = some slot →
    if (layer.mounts slot).kind = .tmpfs then
      ∀ child, ParentOf nodes child node → isRamType (nodes child).type = true →
        hasChildren nodes child = false
    else ChildrenFirst nodes node

theorem umountNode_tree {layer : MountLayer} {node : Nat} (sound : TreeSound nodes)
    (used : (nodes node).inUse = true) (tidy : TidyUmount nodes layer node) :
    TreeSound (umountNode nodes layer node).nodes := by
  unfold umountNode
  split
  · exact sound
  rename_i slot found
  have fine := tidy slot found
  simp only
  split
  · rename_i ram
    rw [if_pos ram] at fine
    have freed := tmpfsFreeSubtree_freed nodes node
    have left : TreeSound (tmpfsFreeSubtree nodes node).nodes := by
      refine sound.drop freed (fun member => (freed.may 0 member).2.2 rfl)
        fun child parent link member => ?_
      obtain ⟨typed, up, _⟩ := freed.may parent member
      have childless := fine parent ⟨freed.used parent member, up⟩ typed
      rw [sound.hasChild link] at childless
      exact absurd childless (by simp)
    exact left.reshape (SameShape.update rfl rfl rfl fun _ => rfl)
  · rename_i drive
    rw [if_neg drive] at fine
    exact (clearChildren_tree sound (sound.within node used) fine).reshape
      (SameShape.update rfl rfl rfl fun _ => rfl)

/-! ### Runs -/

/-- A step is tidy. -/
def Tidy (state : VfsState) : VfsLabel → Prop
  | .delete busy _ node => isDeletable state.nodes busy node = true → Clean state.nodes node
  | .rename busy _ _ node newParent newPath target =>
    TidyRename state.nodes busy node newParent (lastName newPath) target
  | .mount _ _ volume _ _ => hasRoom state.layer ∨ OneDirectory volume.entries
  | .mountFresh _ _ volume _ _ _ _ => hasRoom state.layer ∨ OneDirectory volume.entries
  | .umount node => TidyUmount state.nodes state.layer node
  | .clear node => node < maxNodes → ChildrenFirst state.nodes node
  | _ => True

theorem TreeSound.step {state : VfsState} {label : VfsLabel} (sound : TreeSound state.nodes)
    (tidy : Tidy state label) (enabled : state.Enabled label) :
    TreeSound (state.apply label).nodes := by
  cases label with
  | create answer uid name type parent => exact sound.create _ _ _ _ _
  | relabel index changed => exact sound.relabel enabled.1
  | symlink uid target name dir => exact sound.symlink _ _ _ _
  | hardlink answer uid source name dir => exact sound.hardlink _ _ _ _ _
  | delete busy uid node =>
    by_cases deletable : isDeletable state.nodes busy node = true
    · exact deleteNode_tree sound enabled (tidy deletable)
    · rcases deleteNode_eq state.nodes busy uid node with ⟨can, _⟩ | ⟨_, code, _, failed⟩
      · exact absurd can deletable
      · show TreeSound (deleteNode state.nodes busy uid node).2.nodes
        rw [failed]
        exact sound
  | rename busy renamed uid node newParent newPath target =>
    exact renameNode_tree renamed sound (lastName_slash newPath) tidy
  | mount kind drive volume uid node => exact mountNode_tree kind drive uid sound tidy
  | mountFresh kind drive volume answer uid name parent =>
    exact mountFresh_tree kind drive answer uid name parent sound tidy
  | umount node => exact umountNode_tree sound enabled tidy
  | clear node =>
    show TreeSound (clearChildren state.nodes node).nodes
    by_cases within : node < maxNodes
    · exact clearChildren_tree sound within (tidy within)
    · unfold clearChildren
      rw [if_pos (Nat.le_of_not_lt within)]
      exact sound
  | select init node => exact sound

/-- In every run from a tree whose steps are tidy, the table stays a tree. -/
theorem tree_kept {state : VfsState}
    (reachable : (vfsSystem fun start => TreeSound start.nodes).Reachable Tidy state) :
    TreeSound state.nodes := by
  refine reachable.invariant (fun state => TreeSound state.nodes) (fun _ initial => initial) ?_
  rintro start label next sound tidy ⟨enabled, rfl⟩
  exact sound.step tidy enabled

/-! ### Two runs -/

/-- A RAM directory with a RAM directory in it, and a file in that one. -/
def ramTree : VfsState where
  nodes node := match node with
    | 0 => ⟨['r', 'o', 'o', 't'], .dir, none, 0, 0, true, 0, 0, 0, 0x1FF, []⟩
    | 1 => ⟨['t', 'm', 'p'], .ramDir, some 0, 0, 0, true, 0, 0, 0, 0x1FF, []⟩
    | 2 => ⟨['d'], .ramDir, some 1, 0, 0, true, 0, 1000, 0, 0x1ED, []⟩
    | 3 => ⟨['f'], .ramFile, some 2, 0, 0, true, 0, 1000, 0, 0x1A4, []⟩
    | _ => ⟨[], .file, none, 0, 0, false, 0, 0, 0, 0, []⟩
  layer := ⟨fun _ => ⟨false, 0, .tmpfs, 0, 0⟩, ⟨-1, none⟩, ⟨-1, none⟩⟩

theorem ramTree_sound : TreeSound ramTree.nodes := by
  have first : ParentOf ramTree.nodes 1 0 := ⟨rfl, rfl⟩
  have second : ParentOf ramTree.nodes 2 1 := ⟨rfl, rfl⟩
  have third : ParentOf ramTree.nodes 3 2 := ⟨rfl, rfl⟩
  have few : ∀ node, (ramTree.nodes node).inUse = true → node < 4 := by
    intro node used
    match node with
    | 0 => decide
    | 1 => decide
    | 2 => decide
    | 3 => decide
    | node + 4 => exact absurd used (by simp [ramTree])
  refine ⟨fun node used => (few node used).trans (by decide), ⟨rfl, rfl, rfl⟩,
    fun node other used => ?_, fun node other used => ?_, fun node used => ?_,
    fun node other notTop otherNotTop used otherUsed siblings _ => ?_⟩
  · have small := few node used
    match node with
    | 0 => exact absurd rfl other
    | 1 => exact ⟨by simp [ramTree], by decide⟩
    | 2 => exact ⟨by simp [ramTree], by decide⟩
    | 3 => exact ⟨by simp [ramTree], by decide⟩
    | node + 4 => omega
  · have small := few node used
    match node with
    | 0 => exact absurd rfl other
    | 1 => exact ⟨0, rfl, rfl, rfl⟩
    | 2 => exact ⟨1, rfl, rfl, rfl⟩
    | 3 => exact ⟨2, rfl, rfl, rfl⟩
    | node + 4 => omega
  · have small := few node used
    match node with
    | 0 => exact .refl
    | 1 => exact .head first .refl
    | 2 => exact .head second (.head first .refl)
    | 3 => exact .head third (.head second (.head first .refl))
    | node + 4 => omega
  · have small := few node used
    have otherSmall := few other otherUsed
    interval_cases node <;> interval_cases other <;>
      first | rfl | exact absurd siblings (by simp [ramTree])

/-- The file is deleted. -/
theorem tree_kept_delete : ∃ state : VfsState, (state.nodes 2).inUse = true ∧
    (state.nodes 3).inUse = false ∧ TreeSound state.nodes := by
  have initial : (vfsSystem fun start => TreeSound start.nodes).Reachable Tidy ramTree :=
    .init ramTree_sound
  have tidy : Tidy ramTree (.delete (fun _ => false) 1000 3) :=
    fun _ ram => absurd ram (by decide)
  have deleted := initial.step tidy ⟨rfl, rfl⟩
  exact ⟨_, by decide +kernel, by decide +kernel, tree_kept deleted⟩

/-- The directory in the RAM directory is deleted, and the file in it is left behind. -/
theorem delete_orphans : ¬ ∀ state : VfsState,
    (vfsSystem fun start => TreeSound start.nodes).Reachable anyStep state →
      TreeSound state.nodes := by
  intro kept
  have initial : (vfsSystem fun start => TreeSound start.nodes).Reachable anyStep ramTree :=
    .init ramTree_sound
  have deleted := initial.step
    (show anyStep ramTree (.delete (fun _ => false) 1000 2) from trivial) ⟨rfl, rfl⟩
  obtain ⟨parent, is, used, _⟩ := (kept _ deleted).parent 3 (by decide) (by decide +kernel)
  have above : ((ramTree.apply (.delete (fun _ => false) 1000 2)).nodes 3).parent = some 2 := by
    decide +kernel
  obtain rfl := Option.some.inj (above.symm.trans is)
  exact absurd used (by decide +kernel)

end MectovOS.Vfs
