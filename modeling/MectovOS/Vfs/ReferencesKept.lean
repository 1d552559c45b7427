/-
This file proves that no reference goes stale in every run whose calls remove
nothing that is referred to. Each call keeps the referred slots in use, and then
their births stay.
-/

import MectovOS.Vfs.References

namespace MectovOS.Vfs

open Transition Function

variable {state : RefFs} {nodes next : Nodes}

/-! ### Slots that stay in use -/

/-- What is referred to stays in use. -/
def RefFs.Spared (state : RefFs) (next : Nodes) : Prop :=
  ∀ index, state.Referenced index → (state.nodes index).inUse = true → (next index).inUse = true

theorem RefsKept.after (kept : RefsKept state) (spared : state.Spared next) :
    RefsKept (state.after next) := by
  intro ref refers
  have old := kept ref refers
  have named : state.Referenced ref.node := by
    rcases refers with ⟨index, is⟩ | ⟨index, is⟩
    · exact Or.inl ⟨index, ref, is, rfl⟩
    · exact Or.inr ⟨index, ref, is, rfl⟩
  have stays := spared ref.node named old.1
  exact ⟨stays, (if_pos ⟨old.1, stays⟩).trans old.2⟩

theorem RefsKept.mounted (kept : RefsKept state) {done : Mounted}
    (spared : state.Spared done.nodes) : RefsKept (state.mounted done) :=
  kept.after spared

theorem Extends.spared (grown : Extends state.nodes next) : state.Spared next := by
  intro index _ used
  rw [grown index used]
  exact used

theorem Freed.spared {freed : List Nat} {may : Nat → Prop} (freed' : Freed state.nodes next freed may)
    (safe : ∀ index, state.Referenced index → ¬ may index) : state.Spared next := by
  intro index named used
  rw [freed'.kept fun member => safe index named (freed'.may index member)]
  exact used

/-- A change that keeps the slot in use. -/
theorem RefFs.Spared.update (spared : state.Spared next) {index : Nat} {changed : FsNode}
    (same : changed.inUse = (next index).inUse) :
    state.Spared (Function.update next index changed) := by
  intro other named used
  rcases eq_or_ne other index with rfl | different
  · rw [Function.update_self, same]
    exact spared other named used
  · rw [Function.update_of_ne different]
    exact spared other named used

/-! ### Removals -/

theorem deleteNode_spared {busy : Nat → Bool} (agrees : ∀ node, busy node = true ↔ state.Busy node)
    (uid : Nat) {node : Nat} (used : (state.nodes node).inUse = true)
    (removable : Removable state node) :
    state.Spared (deleteNode state.nodes busy uid node).2.nodes := by
  obtain ⟨nothing, held⟩ := removable
  rcases deleteNode_eq state.nodes busy uid node with ⟨deletable, done⟩ | ⟨_, code, _, failed⟩
  · refine (deleteNode_freed state.nodes busy uid used).spared fun index named which => ?_
    rcases which with rfl | below
    · unfold isDeletable at deletable
      simp only [Bool.and_eq_true, Bool.not_eq_true'] at deletable
      have idle := deletable.2
      rw [(agrees index).mpr (held named)] at idle
      exact absurd idle (by simp)
    · exact nothing index named below
  · rw [failed]
    exact Extends.spared fun _ _ => rfl

theorem clearTarget_spared {busy : Nat → Bool}
    (agrees : ∀ node, busy node = true ↔ state.Busy node) (uid newParent : Nat) (name : Name)
    {target : Option Nat} (used : ∀ node, target = some node → (state.nodes node).inUse = true)
    (removable : ∀ node, (findInDir state.nodes name newParent).isSome → target = some node →
      Removable state node) :
    state.Spared (clearTarget state.nodes busy uid newParent name target).nodes := by
  unfold clearTarget
  split
  · rename_i existing node found
    exact deleteNode_spared agrees uid (used node rfl)
      (removable node (by rw [found]; rfl) rfl)
  · exact Extends.spared fun _ _ => rfl

theorem renameNode_spared {busy : Nat → Bool} (renamed : Bool)
    (agrees : ∀ node, busy node = true ↔ state.Busy node) (uid node newParent : Nat) (name : Name)
    {target : Option Nat} (used : ∀ node, target = some node → (state.nodes node).inUse = true)
    (removable : ∀ node, (findInDir state.nodes name newParent).isSome → target = some node →
      Removable state node) :
    state.Spared (renameNode state.nodes busy renamed uid node newParent name target).nodes := by
  have cleared := clearTarget_spared agrees uid newParent name used removable
  rcases renameNode_cases state.nodes busy renamed uid node newParent name target with
    ⟨code, _, done⟩ | ⟨sweep, rfl, _, _, _, ⟨_, done⟩ | ⟨_, done⟩⟩
  · rw [done]
    exact Extends.spared fun _ _ => rfl
  · rw [done]
    exact cleared
  · rw [done]
    exact cleared.update rfl

theorem umountNode_spared {node : Nat}
    (nothing : ∀ index, state.Referenced index → ¬ Below state.nodes node index) :
    state.Spared (umountNode state.nodes state.layer node).nodes := by
  unfold umountNode
  split
  · exact Extends.spared fun _ _ => rfl
  simp only
  split
  · have freed := tmpfsFreeSubtree_freed state.nodes node
    refine RefFs.Spared.update (fun index named used => ?_) rfl
    rw [freed.kept fun member => nothing index named
      (Relation.TransGen.single ⟨used, (freed.may index member).2.1⟩)]
    exact used
  · exact ((clearChildren_freed state.nodes node).spared nothing).update rfl

/-! ### Mounts -/

/-- A node whose ancestors are in use lies below the same nodes when free slots are filled. -/
theorem Anchored.below {node index : Nat}
    (same : ∀ index, (nodes index).inUse = true → (next index).parent = (nodes index).parent)
    (anchored : Anchored nodes index) (below : Below next node index) : Below nodes node index := by
  have head : ∀ start, Below next node start → Anchored nodes start → Below nodes node start := by
    intro start below
    induction below using Relation.TransGen.head_induction_on with
    | single link =>
      intro anchored
      have used := anchored _ .refl
      exact Relation.TransGen.single ⟨used, (same _ used).symm.trans link.2⟩
    | head link _ inductionHypothesis =>
      intro anchored
      have used := anchored _ .refl
      have up : ParentOf nodes _ _ := ⟨used, (same _ used).symm.trans link.2⟩
      exact Relation.TransGen.head up
        (inductionHypothesis fun above way => anchored above (Relation.ReflTransGen.head up way))
  exact head index below anchored

theorem attachVolume_spared {layer : MountLayer} (kind : MountKind) (drive : Int)
    (volume : Volume) (uid : Nat) {node : Nat} (grown : Extends state.nodes nodes)
    (within : node < maxNodes) (unmounted : (mountLookup layer node).isSome = false)
    (room : hasRoom layer ∨ ∀ index, state.Referenced index → (state.nodes index).inUse = true →
      Anchored state.nodes index ∧ ¬ Below state.nodes node index) :
    state.Spared (attachVolume nodes layer kind drive volume uid node).nodes := by
  have retyped : ∀ rootKey, state.Spared
      (update nodes node (mountPoint kind rootKey (nodes node))) := fun rootKey =>
    grown.spared.update (by cases kind <;> rfl)
  have above : ∀ rootKey index, (state.nodes index).inUse = true →
      (update nodes node (mountPoint kind rootKey (nodes node)) index).inUse = true ∧
      (update nodes node (mountPoint kind rootKey (nodes node)) index).parent =
        (state.nodes index).parent := by
    intro rootKey index used
    have same := grown index used
    rcases eq_or_ne index node with rfl | different
    · rw [update_self, ← same]
      rw [← same] at used
      cases kind <;> exact ⟨used, rfl⟩
    · rw [update_of_ne different, same]
      exact ⟨used, rfl⟩
  have filled : ∀ rootKey full,
      Extends (update nodes node (mountPoint kind rootKey (nodes node))) full →
      state.Spared full ∧ (mountRegister layer node kind drive rootKey = none →
        state.Spared (update (clearChildren full node).nodes node
          { (clearChildren full node).nodes node with type := .dir })) := by
    intro rootKey full more
    have spared : state.Spared full := by
      intro index named used
      have stays := retyped rootKey index named used
      rw [more index stays]
      exact stays
    refine ⟨spared, fun none' => ?_⟩
    have crowded := mountRegister_none within unmounted none'
    have safe := room.resolve_left crowded
    have freed := clearChildren_freed full node
    refine RefFs.Spared.update (fun index named used => ?_) rfl
    rw [freed.kept fun member => ?_]
    · exact spared index named used
    · refine (safe index named used).2 (Anchored.below (fun index used => ?_)
        (safe index named used).1 (freed.may index member))
      obtain ⟨stays, parent⟩ := above rootKey index used
      rw [more index stays]
      exact parent
  unfold attachVolume
  cases kind with
  | ext2 =>
    obtain ⟨whole, cleared⟩ := filled 2 _ (populate_extends fillExt2 .ext2Dir .ext2File uid
      [node] _ volume.entries)
    simp only
    split
    · exact whole
    · rename_i none'
      exact cleared none'
  | fat32 =>
    obtain ⟨whole, cleared⟩ := filled volume.rootKey _ (populate_extends fillFat32 .fat32Dir
      .fat32File uid [node] _ volume.entries)
    simp only
    split
    · exact whole
    · rename_i none'
      exact cleared none'
  | tmpfs =>
    obtain ⟨whole, cleared⟩ := filled 0 _ fun _ _ => rfl
    simp only
    split
    · exact whole
    · rename_i none'
      exact cleared none'

theorem mountAt_spared {layer : MountLayer} (kind : MountKind) (drive : Int) (volume : Volume)
    (uid : Nat) {node : Nat} (grown : Extends state.nodes nodes) (within : node < maxNodes)
    (room : hasRoom layer ∨ ∀ index, state.Referenced index → (state.nodes index).inUse = true →
      Anchored state.nodes index ∧ ¬ Below state.nodes node index) :
    state.Spared (mountAt nodes layer kind drive volume uid node).nodes := by
  unfold mountAt
  split
  · exact grown.spared
  rename_i unmounted
  rw [Bool.not_eq_true] at unmounted
  cases kind with
  | ext2 =>
    simp only
    split
    · exact attachVolume_spared .ext2 drive volume uid grown within unmounted room
    · exact grown.spared
  | fat32 =>
    simp only
    split
    · exact attachVolume_spared .fat32 drive volume uid grown within unmounted room
    · exact grown.spared
  | tmpfs => exact attachVolume_spared .tmpfs drive volume uid grown within unmounted room

theorem mountNode_spared (kind : MountKind) (drive : Int) (volume : Volume) (uid : Nat) {node : Nat}
    (room : hasRoom state.layer ∨ ∀ index, state.Referenced index →
      Anchored state.nodes index ∧ ¬ Below state.nodes node index) :
    state.Spared (mountNode state.nodes state.layer kind drive volume uid node).nodes := by
  unfold mountNode
  split
  · exact Extends.spared fun _ _ => rfl
  · rename_i directory
    rw [not_or, Bool.not_eq_false] at directory
    have typed := directory.1
    unfold isDir at typed
    simp only [Bool.and_eq_true, decide_eq_true_eq] at typed
    exact mountAt_spared kind drive volume uid (fun _ _ => rfl) typed.1.1
      (room.imp_right fun safe index named _ => safe index named)

theorem mountFresh_spared (kind : MountKind) (drive : Int) (volume : Volume) (answer : Answer)
    (uid : Nat) (name : Name) (parent : Nat)
    (room : hasRoom state.layer ∨ ∀ index, state.Referenced index → Anchored state.nodes index) :
    state.Spared
      (mountFresh state.nodes state.layer kind drive volume answer uid name parent).nodes := by
  have grown := createNode_extends state.nodes answer uid name .dir parent
  unfold mountFresh
  split
  · exact Extends.spared fun _ _ => rfl
  split
  · rename_i next done
    rw [done] at grown
    exact grown.spared
  · rename_i node next done
    rw [done] at grown
    rcases createNode_cases state.nodes answer uid name .dir parent with
      ⟨index, settled, made, _, added⟩ | ⟨code, other, failed, _⟩
    · obtain ⟨same, rfl⟩ := Prod.mk.inj (done.symm.trans made)
      obtain rfl := Except.ok.inj same
      refine mountAt_spared kind drive volume uid grown added.within
        (room.imp_right fun safe index named _ => ⟨safe index named, fun below => ?_⟩)
      have used := safe index named node below.to_reflTransGen
      rw [added.free] at used
      exact absurd used (by simp)
    · rw [done] at failed
      exact absurd (Prod.mk.inj failed).1 (by simp)

/-! ### Runs -/

/-- A descriptor and a mapping refer to what is fine to refer to. -/
def RefFs.Current (state : RefFs) (ref : NodeRef) : Prop :=
  (state.nodes ref.node).inUse = true ∧ state.births ref.node = ref.birth

theorem RefsKept.refd (kept : RefsKept state) {index : Nat} {changed : Option NodeRef}
    (current : ∀ ref, changed = some ref → state.Current ref) :
    RefsKept { state with fds := update state.fds index changed } := by
  rintro ref (⟨other, is⟩ | mapped)
  · rcases eq_or_ne other index with rfl | different
    · simp only [update_self] at is
      exact current ref is
    · simp only [update_of_ne different] at is
      exact kept ref (Or.inl ⟨other, is⟩)
  · exact kept ref (Or.inr mapped)

theorem RefsKept.mapped (kept : RefsKept state) {region : Nat} {changed : Option NodeRef}
    (current : ∀ ref, changed = some ref → state.Current ref) :
    RefsKept { state with regions := update state.regions region changed } := by
  rintro ref (fd | ⟨other, is⟩)
  · exact kept ref (Or.inl fd)
  · rcases eq_or_ne other region with rfl | different
    · simp only [update_self] at is
      exact current ref is
    · simp only [update_of_ne different] at is
      exact kept ref (Or.inr ⟨other, is⟩)

theorem RefsKept.step {label : RefLabel} {next : RefFs} (kept : RefsKept state)
    (safe : Unreferenced state label) (taken : RefStep state label next) : RefsKept next := by
  cases taken with
  | create => exact kept.after (createNode_extends _ _ _ _ _ _).spared
  | relabel used same =>
    exact kept.after ((Extends.spared fun _ _ => rfl).update same.inUse)
  | delete agrees used => exact kept.after (deleteNode_spared agrees _ used safe)
  | rename agrees used => exact kept.after (renameNode_spared _ agrees _ _ _ _ used safe)
  | mount => exact kept.mounted (mountNode_spared _ _ _ _ safe)
  | mountFresh => exact kept.mounted (mountFresh_spared _ _ _ _ _ _ _ safe)
  | umount => exact kept.mounted (umountNode_spared safe)
  | open' free used =>
    refine kept.refd fun ref same => ?_
    obtain rfl := Option.some.inj same
    exact ⟨used, rfl⟩
  | close => exact kept.refd fun _ same => absurd same (by simp)
  | mapFile is =>
    refine kept.mapped fun ref same => ?_
    obtain rfl := Option.some.inj same
    exact kept _ (Or.inl ⟨_, is⟩)
  | unmapFile => exact kept.mapped fun _ same => absurd same (by simp)

/-- A file and another one in the root, and nothing is mounted or open. -/
def twoFiles : RefFs where
  nodes node := match node with
    | 0 => ⟨['r', 'o', 'o', 't'], .dir, none, 0, 0, true, 0, 0, 0, 0x1FF, []⟩
    | 1 => ⟨['f'], .file, some 0, 0, 0, true, 0, 1000, 0, 0x1A4, []⟩
    | 2 => ⟨['g'], .file, some 0, 0, 0, true, 0, 1000, 0, 0x1A4, []⟩
    | _ => ⟨[], .file, none, 0, 0, false, 0, 0, 0, 0, []⟩
  layer := ⟨fun _ => ⟨false, 0, .tmpfs, 0, 0⟩, ⟨-1, none⟩, ⟨-1, none⟩⟩
  births _ := 0
  clock := 1
  fds _ := none
  regions _ := none

/-- The first file is open. -/
def fileOpen : RefFs :=
  { twoFiles with fds := update twoFiles.fds 0 (some ⟨1, 0, true⟩) }

/-- It is mapped. -/
def fileMapped : RefFs :=
  { fileOpen with regions := update fileOpen.regions 0 (some ⟨1, 0, true⟩) }

theorem fileMapped_reachable {guard : RefFs → RefLabel → Prop}
    (opens : guard twoFiles (.open' 0 1)) (maps : guard fileOpen (.mapFile 0 0)) :
    refSystem.Reachable guard fileMapped := by
  have initial : refSystem.Reachable guard twoFiles := .init ⟨fun _ => rfl, fun _ => rfl⟩
  have step : RefStep twoFiles (.open' 0 1) fileOpen := .open' rfl rfl
  exact (initial.step opens step).step maps (.mapFile rfl rfl ⟨rfl, rfl⟩)

end MectovOS.Vfs
