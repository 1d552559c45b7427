/-
This file proves when the path of a successful create or mkdir of src/sys/vfs.c
finds the new node again, and puts it together with the way back from a node to
its path. The name of the new node is cut off at 31 characters and the path of
its parent at 255, `.` and `..` are names to the one call and directories to the
other, and the walk drops what stands behind a symbolic link.
-/

import MectovOS.Vfs.AbsPath
import MectovOS.Vfs.Calls

namespace MectovOS.Vfs

open Function

variable {nodes next : Nodes} {caller : Caller}

/-! ### Nodes that stay -/

theorem Stays.noLink {node : Nat} (stays : Stays nodes next node)
    (noLink : (nodes node).type ≠ .symlink) : (next node).type ≠ .symlink := by
  rcases stays.type with same | ⟨_, dir⟩
  · rw [same]
    exact noLink
  · rw [dir]
    decide

theorem Stays.dir {node : Nat} (stays : Stays nodes next node)
    (dir : isDirType (nodes node).type = true) : isDirType (next node).type = true := by
  rcases stays.type with same | ⟨_, is⟩
  · rw [same]
    exact dir
  · rw [is]
    rfl

theorem Stays.link {node parent : Nat} (stays : Stays nodes next node)
    (link : ParentOf nodes node parent) : ParentOf next node parent :=
  ⟨stays.used, stays.parent.trans link.2⟩

/-- A node that is added leaves the others where they are. -/
theorem Added.stays {index uid parent node : Nat} {name : Name}
    (added : Added nodes next index uid name parent) (used : (nodes node).inUse = true) :
    Stays nodes next node := by
  refine .of_eq used (added.others node ?_)
  rintro rfl
  rw [added.free] at used
  exact absurd used (by simp)

/-! ### Paths that stay -/

/-- The loop that goes up sees nodes in use alone. -/
theorem pathStack_stays (sound : TreeSound nodes)
    (stays : ∀ node, (nodes node).inUse = true → Stays nodes next node) {hops : Nat}
    {stack : List Name} {start : Option Nat}
    (used : ∀ node, start = some node → (nodes node).inUse = true) :
    pathStack next hops stack start = pathStack nodes hops stack start := by
  induction hops generalizing stack start with
  | zero => rw [pathStack, pathStack]
  | succ hops inductionHypothesis =>
    cases start with
    | none => rw [pathStack, pathStack]
    | some cur =>
      have inUse := used cur rfl
      have same := stays cur inUse
      rw [pathStack_succ same.used rfl, pathStack_succ inUse rfl, same.name, same.parent,
        inductionHypothesis fun above is => sound.parent_used ⟨inUse, is⟩]

theorem getAbsPath_stays (sound : TreeSound nodes)
    (stays : ∀ node, (nodes node).inUse = true → Stays nodes next node) {start : Option Nat}
    (used : ∀ node, start = some node → (nodes node).inUse = true) (bufSize : Nat) :
    getAbsPath next start bufSize = getAbsPath nodes start bufSize := by
  unfold getAbsPath
  cases start with
  | none => rfl
  | some cur =>
    have inUse := used cur rfl
    dsimp only
    rw [pathStack_stays sound stays used, inUse, (stays cur inUse).used]

theorem resolvePath_stays (sound : TreeSound nodes)
    (stays : ∀ node, (nodes node).inUse = true → Stays nodes next node)
    (here : (nodes caller.currentDir).inUse = true) (path : Name) (bufSize : Nat) :
    resolvePath caller next path bufSize = resolvePath caller nodes path bufSize := by
  have current : ∀ size, getAbsPath next (some caller.currentDir) size =
      getAbsPath nodes (some caller.currentDir) size := fun size =>
    getAbsPath_stays sound stays (fun node is => Option.some.inj is ▸ here) size
  have above := getAbsPath_stays sound stays
    (fun node is => @TreeSound.parent_used nodes sound _ node ⟨here, is⟩) bufSize
  unfold resolvePath
  rw [current, current, (stays _ here).parent, above]

/-- A volume makes no link of a new node. -/
theorem settleNode_noLink {parentType : FsType} {answer : Answer} {node settled : FsNode}
    (is : settleNode parentType answer node = some settled) (noLink : node.type ≠ .symlink) :
    settled.type ≠ .symlink := by
  unfold settleNode at is
  split at is
  · obtain rfl := Option.some.inj is
    exact noLink
  split at is
  · obtain ⟨_, _, rfl⟩ := Option.map_eq_some_iff.mp is
    dsimp only
    split <;> decide
  · obtain ⟨_, _, rfl⟩ := Option.map_eq_some_iff.mp is
    dsimp only
    split <;> decide
  · obtain rfl := Option.some.inj is
    dsimp only
    split <;> decide
  · obtain rfl := Option.some.inj is
    exact noLink

/-! ### Process directories -/

/-- What a lookup of a process leaves behind: the directory is a child of that name, and every
other node in use is one of its files or was there before. -/
structure ProcFound (nodes after : Nodes) (cur dir : Nat) (comp : Name) : Prop where
  link : ParentOf after dir cur
  name : strToLower (after dir).name = strToLower comp
  noLink : (after dir).type ≠ .symlink
  others : ∀ node, (after node).inUse = true → node = dir ∨ ParentOf after node dir ∨
    ((nodes node).inUse = true ∧ (after node).name = (nodes node).name ∧
      (after node).parent = (nodes node).parent)

theorem ProcFound.addProcFile {after : Nodes} {cur dir : Nat} {comp : Name}
    (looked : ProcFound nodes after cur dir comp) (name : Name) :
    ProcFound nodes (addProcFile caller after dir name) cur dir comp := by
  have keeps : ∀ {node}, (after node).inUse = true →
      Vfs.addProcFile caller after dir name node = after node := fun used =>
    createNode_extends after (caller.entry dir name) caller.uid name .proc dir _ used
  have same := keeps looked.link.1
  refine ⟨?_, ?_, ?_, fun node used => ?_⟩
  · rw [ParentOf, same]
    exact looked.link
  · rw [same]
    exact looked.name
  · rw [same]
    exact looked.noLink
  · by_cases old : (after node).inUse = true
    · rw [ParentOf, keeps old]
      exact looked.others node old
    · refine .inr (.inl ⟨used, ?_⟩)
      unfold Vfs.addProcFile at used ⊢
      rcases createNode_cases after (caller.entry dir name) caller.uid name .proc dir with
        ⟨index, settled, made, _, added⟩ | ⟨code, other, failed, _, idle⟩
      · rw [made] at used ⊢
        dsimp only at used ⊢
        rcases eq_or_ne node index with rfl | different
        · exact added.parent
        · rw [added.others node different] at used
          exact absurd used old
      · rw [failed] at used
        dsimp only at used
        rcases idle node with same | free
        · rw [same] at used
          exact absurd used old
        · exact absurd used (by simp [free.2])

theorem procLookupPid_looked {after : Nodes} {cur dir : Nat} {comp : Name} {probe : Bool}
    (done : procLookupPid caller nodes cur comp probe = (.ok dir, after)) :
    ProcFound nodes after cur dir comp := by
  unfold procLookupPid at done
  split at done
  · exact absurd (congrArg Prod.fst done) (by simp)
  rename_i pid _
  split at done
  · rename_i existing found
    obtain ⟨used, parent, alike⟩ := findInDir_some found
    split at done
    · rename_i kind
      split at done
      · obtain ⟨same, rfl⟩ := Prod.mk.inj done
        obtain rfl := Except.ok.inj same
        refine ⟨⟨used, parent⟩, alike, ?_, fun node inUse => .inr (.inr ⟨inUse, rfl, rfl⟩)⟩
        rcases kind with dir | proc
        · rw [dir]
          decide
        · rw [proc]
          decide
      · obtain ⟨same, rfl⟩ := Prod.mk.inj done
        obtain rfl := Except.ok.inj same
        refine ProcFound.addProcFile (ProcFound.addProcFile ⟨?_, ?_, ?_, fun node inUse => ?_⟩ _) _
        · rw [ParentOf, update_self]
          exact ⟨used, parent⟩
        · rw [update_self]
          exact alike
        · rw [update_self]
          exact (by decide : FsType.dir ≠ .symlink)
        · rcases eq_or_ne node existing with rfl | different
          · exact .inl rfl
          · rw [update_of_ne different] at inUse ⊢
            exact .inr (.inr ⟨inUse, rfl, rfl⟩)
    · exact absurd (congrArg Prod.fst done) (by simp)
  split at done
  · exact absurd (congrArg Prod.fst done) (by simp)
  split at done
  · exact absurd (congrArg Prod.fst done) (by simp)
  rcases createNode_cases nodes (caller.entry cur comp) caller.uid comp .dir cur with
    ⟨index, settled, made, is, added⟩ | ⟨code, other, failed, _⟩
  · rw [made] at done
    obtain ⟨same, rfl⟩ := Prod.mk.inj done
    obtain rfl := Except.ok.inj same
    have settledType : settled.type ≠ .symlink := settleNode_noLink is
      (show FsType.dir ≠ .symlink by decide)
    refine ProcFound.addProcFile (ProcFound.addProcFile ⟨?_, ?_, ?_, fun node inUse => ?_⟩ _) _
    · rw [ParentOf, update_self]
      exact ⟨added.used, added.parent⟩
    · rw [update_self]
      exact congrArg strToLower added.name
    · rw [update_self]
      show (update nodes index settled index).type ≠ .symlink
      rw [update_self]
      exact settledType
    · rcases eq_or_ne node index with rfl | different
      · exact .inl rfl
      · rw [update_of_ne different, update_of_ne different] at inUse ⊢
        exact .inr (.inr ⟨inUse, rfl, rfl⟩)
  · rw [failed] at done
    exact absurd (congrArg Prod.fst done) (by simp)

theorem procLookupPid_digits {after : Nodes} {cur dir : Nat} {comp : Name} {probe : Bool}
    (done : procLookupPid caller nodes cur comp probe = (.ok dir, after)) :
    ∃ pid, pidOf comp = some pid := by
  unfold procLookupPid at done
  split at done
  · exact absurd (congrArg Prod.fst done) (by simp)
  · rename_i pid is
    exact ⟨pid, is⟩

/-- The name of the calling process is no number. -/
theorem self_no_digits {comp : Name} {pid : Nat} (is : pidOf comp = some pid) :
    strToLower comp ≠ strToLower selfName := by
  intro alike
  unfold pidOf at is
  split at is
  · exact absurd is (by simp)
  rename_i digits
  rw [not_or, Bool.not_eq_false, List.all_eq_true] at digits
  match comp, alike with
  | char :: rest, alike =>
    have first := digits.2 char List.mem_cons_self
    have same : lowerChar char = 's' := (List.cons.inj alike).1
    unfold lowerChar at same
    split at same
    · rename_i upper
      unfold Char.isDigit at first
      rw [Bool.and_eq_true, decide_eq_true_eq, decide_eq_true_eq] at first
      exact absurd (Nat.le_trans upper.1 first.2) (by decide)
    · rw [same] at first
      exact absurd first (by decide)

/-! ### The way to the new node -/

/-- The way of a walk to a directory, child by child and never through a link; a directory of a
process may be made at its end. The directory that stands for `self` must be a native one, or the
next lookup does not take it. -/
def plainWay (caller : Caller) (nodes : Nodes) : Nat → List Name → Option (Nat × Nodes)
  | cur, [] => some (cur, nodes)
  | cur, comp :: rest =>
    match walkChild nodes cur comp with
    | some next => if (nodes next).type = .symlink then none else plainWay caller nodes next rest
    | none =>
      if rest = [] ∧ isProcDir nodes cur = true then
        match procLazyLookup caller nodes cur comp false with
        | (.error _, _) => none
        | (.ok dir, after) =>
          if comp = selfName ∧ (after dir).type ≠ .dir then none else some (dir, after)
      else none

/-- The path of a new node finds it again: its components are those of the path of the parent and
the name that the new node is given, and the walk to the parent is a plain way. -/
def FoundAgain (caller : Caller) (nodes : Nodes) (path : Name) : Prop :=
  ∃ parentPath dirs place, getParent caller nodes path maxPath = some parentPath ∧
    splitPath (resolvePath caller nodes parentPath maxPath) = some dirs ∧
    plainWay caller nodes 0 dirs = some place ∧
    splitPath (resolvePath caller nodes path maxPath) = some (dirs ++ [lastName path])

/-- A walk enters a node that is no link. -/
theorem enter_plain {node hops : Nat} {last : Bool} (noLink : (nodes node).type ≠ .symlink) :
    enter nodes node last false hops = if last then some (.found (.ok node)) else none := by
  unfold enter
  rw [Bool.and_false, if_neg (by simp), if_neg noLink]

theorem procLazyLookup_looked {after : Nodes} {cur dir : Nat} {comp : Name}
    (done : procLazyLookup caller nodes cur comp false = (.ok dir, after)) :
    (comp ≠ selfName ∧ ProcFound nodes after cur dir comp) ∨
      (comp = selfName ∧ ProcFound nodes after cur dir (procItoa caller.task)) := by
  unfold procLazyLookup at done
  split at done
  · exact absurd (congrArg Prod.fst done) (by simp)
  split at done
  · rename_i self
    exact .inr ⟨self, procLookupPid_looked done⟩
  · rename_i other
    exact .inl ⟨other, procLookupPid_looked done⟩

/-- A walk follows a plain way to its end. -/
theorem walkComps_plain {cur hops parent : Nat} {dirs : List Name} {after : Nodes}
    (way : plainWay caller nodes cur dirs = some (parent, after)) :
    walkComps caller false hops nodes cur dirs = (.found (.ok parent), after) := by
  induction dirs generalizing cur with
  | nil =>
    obtain ⟨rfl, rfl⟩ := Prod.mk.inj (Option.some.inj way)
    rfl
  | cons comp rest inductionHypothesis =>
    rw [plainWay] at way
    cases found : walkChild nodes cur comp with
    | some next =>
      rw [found] at way
      dsimp only at way
      split at way
      · exact absurd way (by simp)
      rename_i noLink
      rw [walkComps, nextNode_child found]
      dsimp only
      rw [enter_plain noLink]
      cases rest with
      | nil =>
        obtain ⟨rfl, rfl⟩ := Prod.mk.inj (Option.some.inj way)
        rfl
      | cons more rest => exact inductionHypothesis way
    | none =>
      rw [found] at way
      dsimp only at way
      split at way
      · rename_i lazy
        obtain ⟨rfl, isProc⟩ := lazy
        split at way
        · exact absurd way (by simp)
        rename_i dir next looked
        split at way
        · exact absurd way (by simp)
        obtain ⟨rfl, rfl⟩ := Prod.mk.inj (Option.some.inj way)
        have noLink : (next dir).type ≠ .symlink := by
          rcases procLazyLookup_looked looked with ⟨_, looked⟩ | ⟨_, looked⟩
          · exact looked.noLink
          · exact looked.noLink
        rw [walkComps]
        unfold nextNode
        rw [found, isProc, if_pos rfl, looked]
        dsimp only
        rw [enter_plain noLink]
        rfl
      · exact absurd way (by simp)

/-! ### The walk to the new node -/

theorem TreeSound.notRoot (sound : TreeSound nodes) {node parent : Nat}
    (link : ParentOf nodes node parent) : node ≠ 0 := by
  rintro rfl
  rw [ParentOf, sound.root.2.2] at link
  exact absurd link.2 (by simp)

/-- A child of a directory is found by its name there, too. -/
theorem findInDir_eq (sound : TreeSound nodes) {node cur : Nat} {comp : Name}
    (link : ParentOf nodes node cur) (dir : isDirType (nodes cur).type = true)
    (alike : strToLower (nodes node).name = strToLower comp) :
    findInDir nodes comp cur = some node := by
  have used := sound.parent_used link
  have within := sound.within cur used
  have found := walkChild_eq sound (sound.notRoot link) link alike
  unfold walkChild at found
  rw [if_neg (by rw [used]; simpa using within)] at found
  unfold findInDir
  rw [if_neg (by omega), used, dir, if_neg (by simp)]
  exact found

theorem walkComps_child {cur node hops : Nat} {comp : Name} {rest : List Name}
    (found : walkChild nodes cur comp = some node) (noLink : (nodes node).type ≠ .symlink) :
    walkComps caller false hops nodes cur (comp :: rest) =
      if rest.isEmpty then (.found (.ok node), nodes)
      else walkComps caller false hops nodes node rest := by
  rw [walkComps, nextNode_child found]
  dsimp only
  rw [enter_plain noLink, Bool.false_or]
  cases rest with
  | nil => rfl
  | cons more rest => rfl

/-- A lookup of `self` looks for the number of the calling process. -/
theorem procLazyLookup_pid {after : Nodes} {cur dir : Nat}
    (looked : procLazyLookup caller nodes cur selfName false = (.ok dir, after)) :
    findInDir nodes procName 0 = some cur ∧
      procLookupPid caller nodes cur (procItoa caller.task) false = (.ok dir, after) := by
  unfold procLazyLookup at looked
  split at looked
  · exact absurd (congrArg Prod.fst looked) (by simp)
  · rename_i isProc
    rw [if_pos rfl] at looked
    exact ⟨not_not.mp isProc, looked⟩

/-- The directory of the calling process is looked up again. -/
theorem procLazyLookup_self {after table : Nodes} {cur dir : Nat} (sound : TreeSound table)
    (looked : procLazyLookup caller nodes cur selfName false = (.ok dir, after))
    (stays : Stays nodes table cur) (isProc : isProcDir nodes cur = true)
    (link : ParentOf table dir cur)
    (alike : strToLower (table dir).name = strToLower (procItoa caller.task))
    (native : (table dir).type = .dir) :
    ∃ again, procLazyLookup caller table cur selfName false = (.ok dir, again) := by
  unfold isProcDir at isProc
  simp only [Bool.and_eq_true, decide_eq_true_eq] at isProc
  obtain ⟨⟨curDir, curName⟩, curParent⟩ := isProc
  have top : findInDir table procName 0 = some cur :=
    findInDir_eq sound ⟨stays.used, stays.parent.trans curParent⟩ sound.root.2.1
      (by rw [stays.name, curName])
  have found := findInDir_eq sound link (stays.dir curDir) alike
  obtain ⟨pid, digits⟩ := procLookupPid_digits (procLazyLookup_pid looked).2
  unfold procLazyLookup
  rw [top, if_neg (by simp), if_pos rfl]
  unfold procLookupPid
  rw [digits]
  dsimp only
  rw [found]
  dsimp only
  rw [if_pos (.inl native)]
  split
  · exact ⟨_, rfl⟩
  · exact ⟨_, rfl⟩

/-- A walk that goes on behind a plain way, once the new node is there, finds it. -/
theorem walkComps_added {table after : Nodes} {cur parent index uid hops : Nat}
    {dirs : List Name} {name : Name} (sound : TreeSound nodes) (soundTable : TreeSound table)
    (used : (nodes cur).inUse = true) (walked : Walked caller nodes after)
    (way : plainWay caller nodes cur dirs = some (parent, after))
    (added : Added after table index uid name parent)
    (noLink : (table index).type ≠ .symlink) :
    (walkComps caller false hops table cur (dirs ++ [name])).1 = .found (.ok index) := by
  have link : ParentOf table index parent := ⟨added.used, added.parent⟩
  have last : walkChild table parent name = some index :=
    walkChild_eq soundTable (soundTable.notRoot link) link (by rw [added.name])
  have stays : ∀ node, (nodes node).inUse = true → Stays nodes table node := fun node inUse =>
    (walked_stays walked inUse).trans (added.stays (walked_stays walked inUse).used)
  induction dirs generalizing cur with
  | nil =>
    obtain ⟨rfl, rfl⟩ := Prod.mk.inj (Option.some.inj way)
    rw [List.nil_append, walkComps_child last noLink]
    rfl
  | cons comp rest inductionHypothesis =>
    rw [plainWay] at way
    cases found : walkChild nodes cur comp with
    | some next =>
      rw [found] at way
      dsimp only at way
      split at way
      · exact absurd way (by simp)
      rename_i plain
      obtain ⟨below, alike⟩ := walkChild_some found
      have kept := stays next below.1
      have again : walkChild table cur comp = some next :=
        walkChild_eq soundTable (sound.notRoot below) (kept.link below) (by rw [kept.name, alike])
      rw [List.cons_append, walkComps_child again (kept.noLink plain), if_neg (by simp)]
      exact inductionHypothesis below.1 way
    | none =>
      rw [found] at way
      dsimp only at way
      split at way
      swap
      · exact absurd way (by simp)
      rename_i lazy
      obtain ⟨rfl, isProc⟩ := lazy
      split at way
      · exact absurd way (by simp)
      rename_i dir next looked
      split at way
      · exact absurd way (by simp)
      rename_i native
      obtain ⟨rfl, rfl⟩ := Prod.mk.inj (Option.some.inj way)
      rw [List.singleton_append]
      have aboveOf : ∀ {pidName}, ProcFound nodes next cur dir pidName →
          ParentOf table dir cur ∧ (table dir).name = (next dir).name ∧
            (table dir).type = (next dir).type ∧ dir ≠ cur := by
        intro pidName seen
        have same : table dir = next dir := added.others dir fun is => by
          have free := added.free
          rw [← is, seen.link.1] at free
          exact absurd free (by simp)
        have up : ParentOf table dir cur := by
          rw [ParentOf, same]
          exact seen.link
        refine ⟨up, congrArg FsNode.name same, congrArg FsNode.type same, ?_⟩
        rintro rfl
        exact soundTable.acyclic (.single up)
      rcases procLazyLookup_looked looked with ⟨_, seen⟩ | ⟨rfl, seen⟩
      · -- the directory is a child of that name now
        obtain ⟨up, name', type, _⟩ := aboveOf seen
        have again : walkChild table cur comp = some dir :=
          walkChild_eq soundTable (soundTable.notRoot up) up (by rw [name', seen.name])
        rw [walkComps_child again (by rw [type]; exact seen.noLink), if_neg (by simp),
          walkComps_child last noLink]
        rfl
      · -- no child is called `self`, and the lookup takes the directory again
        obtain ⟨up, name', type, apart⟩ := aboveOf seen
        have isDir : (next dir).type = .dir := by
          by_contra other
          exact native ⟨rfl, other⟩
        have none : walkChild table cur selfName = none := by
          cases other : walkChild table cur selfName with
          | none => rfl
          | some node =>
            obtain ⟨below, alike⟩ := walkChild_some other
            rcases eq_or_ne node index with rfl | different
            · exact absurd (Option.some.inj (link.2.symm.trans below.2)) apart
            have same := added.others node different
            rw [ParentOf, same] at below
            rw [same] at alike
            rcases seen.others node below.1 with rfl | up' | ⟨inUse, sameName, sameParent⟩
            · obtain ⟨pid, digits⟩ := procLookupPid_digits (procLazyLookup_pid looked).2
              exact absurd (seen.name.symm.trans alike) (self_no_digits digits)
            · exact absurd (Option.some.inj (up'.2.symm.trans below.2)) apart
            · have inside : ParentOf nodes node cur := ⟨inUse, sameParent.symm.trans below.2⟩
              have before : walkChild nodes cur selfName = some node :=
                walkChild_eq sound (sound.notRoot inside) inside (by rw [← sameName, alike])
              rw [found] at before
              exact absurd before (by simp)
        have kept := stays cur used
        obtain ⟨again, lookup⟩ := procLazyLookup_self soundTable looked kept isProc up
          (by rw [name', seen.name]) (type.trans isDir)
        have walkedAgain : Walked caller table again := by
          have walkedAgain := @procLazyLookup_walked caller table cur selfName false
          rw [lookup] at walkedAgain
          exact walkedAgain
        have keptIndex := walked_stays walkedAgain added.used
        have child : walkChild again dir name = some index := by
          have soundAgain := soundTable.walked walkedAgain
          exact walkChild_eq soundAgain (soundTable.notRoot link) (keptIndex.link link)
            (by rw [keptIndex.name, added.name])
        have isProc' : isProcDir table cur = true := by
          unfold isProcDir at isProc ⊢
          simp only [Bool.and_eq_true, decide_eq_true_eq] at isProc ⊢
          rw [kept.name, kept.parent]
          exact ⟨⟨kept.dir isProc.1.1, isProc.1.2⟩, isProc.2⟩
        rw [walkComps]
        unfold nextNode
        rw [none, isProc', if_pos rfl, lookup]
        dsimp only
        rw [child]
        dsimp only [Option.map_some]
        rw [enter_plain (keptIndex.noLink noLink)]
        rfl

/-! ### Creation -/

theorem getParent_ne_nil {path parentPath : Name}
    (is : getParent caller nodes path maxPath = some parentPath) : parentPath ≠ [] := by
  unfold getParent at is
  split at is
  · exact absurd is (by simp)
  dsimp only at is
  generalize dirs : List.rdropWhile (fun char => decide (char ≠ '/')) _ = dir at is
  split at is
  · split at is
    · exact absurd is (by simp)
    · obtain rfl := Option.some.inj is
      unfold getAbsPath
      dsimp only
      split
      · exact List.cons_ne_nil _ _
      · have long := joinPath_length maxPath ['/']
          (pathStack nodes maxNodes [] (some caller.currentDir))
        rw [List.length_singleton] at long
        exact List.ne_nil_of_length_pos long
  · rename_i filled
    split at is
    · obtain rfl := Option.some.inj is
      exact List.cons_ne_nil _ _
    · rename_i notTop
      obtain rfl := Option.some.inj is
      -- the directory part ends with a slash, and it is more than that slash
      have slash : dir.getLast filled = '/' := by
        subst dirs
        have last := List.rdropWhile_last_not _ _ filled
        rw [decide_eq_true_eq, not_not] at last
        exact last
      intro empty
      have none := congrArg List.length empty
      rw [List.length_take, List.length_dropLast, List.length_nil] at none
      have size := List.length_pos_of_ne_nil filled
      have one : dir.length = 1 := by
        unfold maxPath at none
        omega
      obtain ⟨char, rfl⟩ := List.length_eq_one_iff.mp one
      rw [List.getLast_singleton] at slash
      exact notTop (by rw [slash])

/-- A path with components is walked along them. -/
theorem walkPath_comps {path : Name} {comps : List Name} {nofollow : Bool} (filled : path ≠ [])
    (split : splitPath (resolvePath caller nodes path maxPath) = some comps) :
    walkPath caller nodes path nofollow =
      match walkComps caller nofollow 0 nodes 0 comps with
      | (.found result, after) => (result, after)
      | (.restart again hops, after) =>
        walkFrom caller nofollow symlinkHopsMax after again hops := by
  unfold walkPath
  rw [if_neg filled]
  dsimp only
  split
  · rename_i top
    rw [top] at split
    obtain rfl := Option.some.inj split
    rfl
  · exact walkFrom_succ split

/-- The path of a new node finds it again. -/
theorem createAt_found {path : Name} {type : FsType} {node : Nat} {after : Nodes}
    (sound : TreeSound nodes) (here : (nodes caller.currentDir).inUse = true)
    (kind : type ≠ .symlink) (found : FoundAgain caller nodes path)
    (created : createAt caller nodes path type = (.ok node, after)) :
    (walkPath caller after path false).1 = .ok node := by
  obtain ⟨parentPath, dirs, ⟨parent, middle⟩, parentIs, split, way, whole⟩ := found
  have filled : path ≠ [] := by
    rintro rfl
    exact absurd parentIs (by simp [getParent])
  have toParent : walkPath caller nodes parentPath false = (.ok parent, middle) := by
    rw [walkPath_comps (getParent_ne_nil parentIs) split, walkComps_plain way]
  have walked : Walked caller nodes middle := by
    have walked := @walkPath_walked caller nodes parentPath false
    rw [toParent] at walked
    exact walked
  unfold createAt at created
  rw [parentIs] at created
  dsimp only at created
  rw [toParent] at created
  dsimp only at created
  rcases createNode_cases middle (caller.entry parent (lastName path)) caller.uid (lastName path)
    type parent with ⟨index, settled, made, is, added⟩ | ⟨code, other, failed, _⟩
  · rw [made] at created
    obtain ⟨same, rfl⟩ := Prod.mk.inj created
    obtain rfl := Except.ok.inj same
    have stays : ∀ other, (nodes other).inUse = true →
        Stays nodes (update middle index settled) other := fun other used =>
      (walked_stays walked used).trans (added.stays (walked_stays walked used).used)
    have noLink : (update middle index settled index).type ≠ .symlink := by
      rw [update_self]
      exact settleNode_noLink is kind
    have again : splitPath (resolvePath caller (update middle index settled) path
        maxPath) = some (dirs ++ [lastName path]) := by
      rw [resolvePath_stays sound stays here, whole]
    have back := @walkComps_added nodes caller (update middle index settled) middle 0
      parent index caller.uid 0 dirs (lastName path) sound ((sound.walked walked).add added)
      sound.root.1 walked way added noLink
    rw [walkPath_comps filled again]
    cases walk : walkComps caller false 0 (update middle index settled) 0
        (dirs ++ [lastName path]) with
    | mk result table =>
      rw [walk] at back
      dsimp only at back
      rw [back]
  · rw [failed] at created
    exact absurd (congrArg Prod.fst created) (by simp)

/-! ### Paths and nodes -/

/-- A node in use has one way of names below the root, and its path leads back to it under the
condition on these names exactly; the path of a new file or directory leads to it where it is
split as the path of its parent and its name. -/
theorem paths_lead_back (caller : Caller) (nodes : Nodes) (sound : TreeSound nodes)
    (short : ShortNames nodes) (here : (nodes caller.currentDir).inUse = true) :
    (∀ node, (nodes node).inUse = true → ∃ names, Named nodes node names ∧ ∀ bufSize,
      ((walkPath caller nodes (getAbsPath nodes (some node) bufSize).2 true).1 = .ok node ↔
        LeadsBack caller nodes bufSize node names)) ∧
    ∀ path node after, createFile caller nodes path = (.ok node, after) ∨
        mkdir caller nodes path = (.ok node, after) →
      FoundAgain caller nodes path → (walkPath caller after path false).1 = .ok node := by
  refine ⟨fun node used => ?_, fun path node after created found => ?_⟩
  · obtain ⟨names, named⟩ := sound.exists_named used
    exact ⟨names, named, leadsBack_iff sound short named⟩
  · rcases created with file | dir
    · exact createAt_found sound here (by decide) found file
    · exact createAt_found sound here (by decide) found dir

/-- A caller whose current directory is the root. -/
def rootCaller : Caller where
  task := 1
  uid := 0
  currentDir := 0
  alive _ := false
  entry _ _ := none

theorem ramTree_short : ShortNames ramTree.nodes := by
  intro node used
  match node with
  | 0 => decide
  | 1 => decide
  | 2 => decide
  | 3 => decide
  | node + 4 => exact absurd used (by simp [ramTree])

theorem ramTree_named : Named ramTree.nodes 3 [['t', 'm', 'p'], ['d'], ['f']] := by
  have first : ParentOf ramTree.nodes 1 0 := ⟨rfl, rfl⟩
  have second : ParentOf ramTree.nodes 2 1 := ⟨rfl, rfl⟩
  have third : ParentOf ramTree.nodes 3 2 := ⟨rfl, rfl⟩
  have top := Named.child (by decide) first .root
  have middle := Named.child (by decide) second top
  have bottom := Named.child (by decide) third middle
  exact bottom

/-- The path of a file three levels down leads back to it. -/
theorem paths_lead_back_file :
    (walkPath rootCaller ramTree.nodes (getAbsPath ramTree.nodes (some 3) maxPath).2 true).1 =
      .ok 3 := by
  obtain ⟨names, named, back⟩ := (paths_lead_back rootCaller ramTree.nodes ramTree_sound
    ramTree_short rfl).1 3 rfl
  obtain rfl := named.unique ramTree_named
  exact (back maxPath).mpr (.inl ⟨by decide, by decide, by decide⟩)

/-- A buffer of four bytes takes no name of it, and the path names the root. -/
theorem paths_lead_back_buffer : ¬ ∀ (caller : Caller) (nodes : Nodes), TreeSound nodes →
    ShortNames nodes → (nodes caller.currentDir).inUse = true → ∀ node, (nodes node).inUse = true →
      ∀ bufSize, 0 ≤ (getAbsPath nodes (some node) bufSize).1 →
        (walkPath caller nodes (getAbsPath nodes (some node) bufSize).2 true).1 = .ok node := by
  intro back
  have used : (ramTree.nodes 3).inUse = true := rfl
  have lands := back rootCaller ramTree.nodes ramTree_sound ramTree_short rfl 3 used 4 (by
    unfold getAbsPath
    dsimp only
    rw [used, if_neg (by decide)]
    exact Int.natCast_nonneg _)
  rcases (leadsBack_iff ramTree_sound ramTree_short ramTree_named 4).mp lands with
    ⟨_, fit, _⟩ | ⟨deep, _⟩
  · exact absurd fit (by decide)
  · exact absurd deep (by decide)

end MectovOS.Vfs
