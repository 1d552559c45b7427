/-
This file models the paths of src/sys/vfs.c: how a path is resolved and split,
how the walker goes from the root to a node, follows links and makes the nodes
of live processes below /proc on its way, and how a path is taken apart into a
parent and a last name. A walk may change the table, so it gives the table back.
-/

import MectovOS.Vfs.Create
import Mathlib.Data.List.DropRight
import Mathlib.Logic.Relation

namespace MectovOS.Vfs

open Function

/-- `VFS_SYMLINK_MAX` and `VFS_SYMLINK_HOPS_MAX`. -/
def symlinkMax : Nat := 120
def symlinkHopsMax : Nat := 8

/-- The calling task with its user and its current directory, the tasks that are alive, and what
the mounted volumes answer when an entry of that name is made below a node. -/
structure Caller where
  task : Nat
  uid : Nat
  currentDir : Nat
  alive : Nat → Bool
  entry : Nat → Name → Answer

/-! ### Splitting and joining -/

/-- The loop of `split_path`: the components so far and the one that is being read. -/
def splitLoop : List Name → Name → Name → Option (List Name)
  | done, part, [] =>
    if part = [] then some done
    else if maxPath / 2 ≤ done.length + 1 then none
    else some (done ++ [part])
  | done, part, char :: rest =>
    if char = '/' then
      if part = [] then splitLoop done [] rest
      else if maxPath / 2 ≤ done.length + 1 then none
      else splitLoop (done ++ [part]) [] rest
    else if maxFilename - 1 ≤ part.length then none
    else splitLoop done (part ++ [char]) rest

/-- `split_path`. -/
def splitPath (path : Name) : Option (List Name) :=
  match path with
  | '/' :: rest => splitLoop [] [] rest
  | _ => splitLoop [] [] path

/-- `vfs_resolve_path`. -/
def resolvePath (caller : Caller) (nodes : Nodes) (path : Name) (bufSize : Nat) : Name :=
  if path = [] then (getAbsPath nodes (some caller.currentDir) bufSize).2
  else if path.head? = some '/' then path.take (bufSize - 1)
  else
    let curPath := (getAbsPath nodes (some caller.currentDir) maxPath).2
    if path = ['.'] then curPath
    else if path = ['.', '.'] then
      if caller.currentDir = 0 then ['/']
      else (getAbsPath nodes (nodes caller.currentDir).parent bufSize).2
    else if curPath = ['/'] then (curPath ++ path).take (bufSize - 1)
    else
      let start := curPath.take (bufSize - 1)
      let slashed := if start ≠ [] ∧ start.getLast? ≠ some '/' ∧ start.length < bufSize - 1 then
        start ++ ['/'] else start
      (slashed ++ path).take (bufSize - 1)

/-- `vfs_get_parent`: the parent of a path as a path. -/
def getParent (caller : Caller) (nodes : Nodes) (path : Name) (bufSize : Nat) : Option Name :=
  if path = [] then none
  else
    let stripped := path.rdropWhile (· = '/')
    let dir := (if stripped = [] then ['/'] else stripped).dropLast.rdropWhile (· ≠ '/')
    if dir = [] then
      let cur := getAbsPath nodes (some caller.currentDir) bufSize
      if cur.1 < 0 then none else some cur.2
    else if dir = ['/'] then some ['/']
    else some (dir.dropLast.take (bufSize - 1))

/-- The last component of a path as `vfs_mkdir`, `vfs_create_file` and `vfs_rename` copy it. -/
def lastName (path : Name) : Name :=
  ((path.rdropWhile (· = '/')).rtakeWhile (· ≠ '/')).take (maxFilename - 1)

/-! ### The processes -/

/-- `/proc` and the names below it. -/
def procName : Name := ['p', 'r', 'o', 'c']
def selfName : Name := ['s', 'e', 'l', 'f']
def statusName : Name := ['s', 't', 'a', 't', 'u', 's']
def cmdlineName : Name := ['c', 'm', 'd', 'l', 'i', 'n', 'e']

/-- `proc_itoa`. -/
def procItoa (value : Nat) : Name := Nat.toDigits 10 value

/-- The number that a component of digits stands for. -/
def pidOf (comp : Name) : Option Nat :=
  if comp = [] ∨ comp.all Char.isDigit = false then none
  else
    let pid := comp.foldl (fun pid char => pid * 10 + (char.toNat - '0'.toNat)) 0
    if 0x7FFF < pid ∨ pid = 0 then none else some pid

/-- One file of a process directory; `vfs_create_node` refuses a name that is there. -/
def addProcFile (caller : Caller) (nodes : Nodes) (dir : Nat) (name : Name) : Nodes :=
  (createNode nodes (caller.entry dir name) caller.uid name .proc dir).2

/-- A stale process directory is taken over for a live process. -/
def adopted (pid : Nat) (node : FsNode) : FsNode := { node with dataSector := pid, type := .dir }

/-- A process directory is made. -/
def synthesized (pid : Nat) (comp : Name) (node : FsNode) : FsNode :=
  { node with dataSector := pid, size := max node.size comp.length }

/-- `vfs_proc_lazy_lookup` for a number: a process directory that is there, is taken over or is
made, unless it is only asked for. -/
def procLookupPid (caller : Caller) (nodes : Nodes) (cur : Nat) (comp : Name) (probe : Bool) :
    Except Int Nat × Nodes :=
  match pidOf comp with
  | none => (.error (-1), nodes)
  | some pid =>
    match findInDir nodes comp cur with
    | some existing =>
      if (nodes existing).type = .dir ∨ (nodes existing).type = .proc then
        if caller.alive (nodes existing).dataSector then (.ok existing, nodes)
        else
          let taken := update nodes existing (adopted pid (nodes existing))
          (.ok existing,
            addProcFile caller (addProcFile caller taken existing statusName) existing cmdlineName)
      else (.error (-1), nodes)
    | none =>
      if caller.alive pid = false then (.error (-1), nodes)
      else if probe then (.error (-2), nodes)
      else
        match createNode nodes (caller.entry cur comp) caller.uid comp .dir cur with
        | (.error _, next) => (.error (-1), next)
        | (.ok dir, next) =>
          let made := update next dir (synthesized pid comp (next dir))
          (.ok dir, addProcFile caller (addProcFile caller made dir statusName) dir cmdlineName)

/-- `vfs_proc_lazy_lookup`. -/
def procLazyLookup (caller : Caller) (nodes : Nodes) (cur : Nat) (comp : Name) (probe : Bool) :
    Except Int Nat × Nodes :=
  if findInDir nodes procName 0 ≠ some cur then (.error (-1), nodes)
  else if comp = selfName then procLookupPid caller nodes cur (procItoa caller.task) probe
  else procLookupPid caller nodes cur comp probe

/-! ### The walker -/

/-- Is the node the directory `/proc`? -/
def isProcDir (nodes : Nodes) (cur : Nat) : Bool :=
  isDirType (nodes cur).type && decide ((nodes cur).name = procName) &&
    decide ((nodes cur).parent = some 0)

/-- The node of a component: a child, or a process with the file below it. It tells whether the
components behind were taken with it. -/
def nextNode (caller : Caller) (nodes : Nodes) (cur : Nat) (comp : Name) (rest : List Name) :
    Option (Nat × Bool) × Nodes :=
  match walkChild nodes cur comp with
  | some next => (some (next, false), nodes)
  | none =>
    if isProcDir nodes cur then
      match procLazyLookup caller nodes cur comp false with
      | (.error _, after) => (none, after)
      | (.ok dir, after) =>
        match rest with
        | [] => (some (dir, false), after)
        | [file] => ((walkChild after dir file).map fun next => (next, true), after)
        | _ => (none, after)
    else if (nodes cur).type = .proc ∧ 0 < (nodes cur).dataSector then
      match rest with
      | [file] => ((walkChild nodes cur file).map fun next => (next, true), nodes)
      | _ => (none, nodes)
    else (none, nodes)

/-- The path that stands for a link: its target, or its target below the directory of the link. -/
def linkPath (nodes : Nodes) (link : Nat) : Option Name :=
  let target := (nodes link).pad
  if target = [] then none
  else if target.head? = some '/' then some (target.take (maxPath - 1))
  else
    let dir := getAbsPath nodes (nodes link).parent maxPath
    if dir.1 ≠ 0 then none
    else if maxPath - 2 ≤ dir.2.length then none
    else
      let start := if dir.2 = ['/'] then dir.2 else dir.2 ++ ['/']
      some ((start ++ target).take (maxPath - 1))

/-- A walk ends, or it begins again on another path. -/
inductive Walk where
  | found (result : Except Int Nat)
  | restart (resolved : Name) (hops : Nat)

/-- The walker enters a node: it ends there, begins again behind a link, or goes on. -/
def enter (nodes : Nodes) (next : Nat) (last nofollow : Bool) (hops : Nat) : Option Walk :=
  if last && nofollow then some (.found (.ok next))
  else if (nodes next).type = .symlink then
    if symlinkHopsMax ≤ hops then some (.found (.error (-2)))
    else
      match linkPath nodes next with
      | none => some (.found (.error (-1)))
      | some resolved => some (.restart resolved (hops + 1))
  else if last then some (.found (.ok next))
  else none

/-- The inner loop of `vfs_walk_path`. -/
def walkComps (caller : Caller) (nofollow : Bool) (hops : Nat) :
    Nodes → Nat → List Name → Walk × Nodes
  | nodes, cur, [] => (.found (.ok cur), nodes)
  | nodes, cur, comp :: rest =>
    match nextNode caller nodes cur comp rest with
    | (none, after) => (.found (.error (-1)), after)
    | (some (next, took), after) =>
      match enter after next (took || rest.isEmpty) nofollow hops with
      | some walk => (walk, after)
      | none => walkComps caller nofollow hops after next rest

/-- The outer loop of `vfs_walk_path`: one round for each path. -/
def walkFrom (caller : Caller) (nofollow : Bool) :
    Nat → Nodes → Name → Nat → Except Int Nat × Nodes
  | 0, nodes, _, _ => (.error (-2), nodes)
  | restarts + 1, nodes, resolved, hops =>
    match splitPath resolved with
    | none => (.error (-1), nodes)
    | some [] => (.ok 0, nodes)
    | some (comp :: rest) =>
      match walkComps caller nofollow hops nodes 0 (comp :: rest) with
      | (.found result, after) => (result, after)
      | (.restart again hops, after) => walkFrom caller nofollow restarts after again hops

/-- `vfs_walk_path`. -/
def walkPath (caller : Caller) (nodes : Nodes) (path : Name) (nofollowLast : Bool) :
    Except Int Nat × Nodes :=
  if path = [] then (.ok caller.currentDir, nodes)
  else
    let resolved := resolvePath caller nodes path maxPath
    if resolved = ['/'] then (.ok 0, nodes)
    else walkFrom caller nofollowLast (symlinkHopsMax + 1) nodes resolved 0

/-- The loop over all components but the last, which must be directories. -/
def walkDirs (nodes : Nodes) : Nat → List Name → Option Nat
  | cur, [] => some cur
  | cur, comp :: rest =>
    match walkChild nodes cur comp with
    | none => none
    | some next => if isDirType (nodes next).type then walkDirs nodes next rest else none

/-! ### What a walk changes -/

/-- A node is taken over or filled in for a process: it keeps its place, its name and its owner,
and it may turn from a virtual file into a directory. -/
structure Relabelled (node changed : FsNode) : Prop where
  name : changed.name = node.name
  parent : changed.parent = node.parent
  inUse : changed.inUse = node.inUse
  owner : changed.uid = node.uid ∧ changed.gid = node.gid ∧ changed.mode = node.mode
  pad : changed.pad = node.pad
  inode : changed.ext2Inode = node.ext2Inode
  type : changed.type = node.type ∨ (node.type = .proc ∧ changed.type = .dir)

/-- One thing a walk does to the table: it makes a node for a process or fills one in. -/
inductive WalkStep (caller : Caller) : Nodes → Nodes → Prop
  | create {nodes : Nodes} (answer : Answer) (name : Name) (type : FsType) (parent : Nat) :
      type = .dir ∨ type = .proc →
      WalkStep caller nodes (createNode nodes answer caller.uid name type parent).2
  | relabel {nodes : Nodes} {index : Nat} {changed : FsNode} :
      Relabelled (nodes index) changed → (nodes index).inUse = true →
      (nodes index).type = .proc ∨ isDirType (nodes index).type = true →
      WalkStep caller nodes (update nodes index changed)

/-- What a walk does to the table. -/
abbrev Walked (caller : Caller) : Nodes → Nodes → Prop :=
  Relation.ReflTransGen (WalkStep caller)

variable {caller : Caller} {nodes : Nodes}

theorem createNode_walked (nodes : Nodes) (answer : Answer) (name : Name) {type : FsType}
    (parent : Nat) (kind : type = .dir ∨ type = .proc) :
    Walked caller nodes (createNode nodes answer caller.uid name type parent).2 :=
  Relation.ReflTransGen.single (.create answer name type parent kind)

theorem addProcFile_walked (nodes : Nodes) (dir : Nat) (name : Name) :
    Walked caller nodes (addProcFile caller nodes dir name) :=
  createNode_walked nodes _ name dir (Or.inr rfl)

theorem procLookupPid_walked (nodes : Nodes) (cur : Nat) (comp : Name) (probe : Bool) :
    Walked caller nodes (procLookupPid caller nodes cur comp probe).2 := by
  unfold procLookupPid
  split
  · exact .refl
  rename_i pid _
  split
  · rename_i existing found
    split
    · rename_i kind
      split
      · exact .refl
      · have used := (findInDir_some found).1
        have relabelled : Relabelled (nodes existing) (adopted pid (nodes existing)) := by
          refine ⟨rfl, rfl, rfl, ⟨rfl, rfl, rfl⟩, rfl, rfl, ?_⟩
          rcases kind with dir | proc
          · exact Or.inl dir.symm
          · exact Or.inr ⟨proc, rfl⟩
        have typed : (nodes existing).type = .proc ∨ isDirType (nodes existing).type = true := by
          rcases kind with dir | proc
          · exact Or.inr (by rw [dir]; rfl)
          · exact Or.inl proc
        exact (Relation.ReflTransGen.single (.relabel relabelled used typed)).trans
          ((addProcFile_walked _ _ _).trans (addProcFile_walked _ _ _))
    · exact .refl
  split
  · exact .refl
  split
  · exact .refl
  have created := @createNode_walked caller nodes (caller.entry cur comp) comp .dir cur
    (Or.inl rfl)
  split
  · rename_i done
    rw [done] at created
    exact created
  · rename_i dir next done
    rw [done] at created
    rcases createNode_cases nodes (caller.entry cur comp) caller.uid comp .dir cur with
      ⟨index, settled, made, is, added⟩ | ⟨code, other, failed, _⟩
    · obtain ⟨same, rfl⟩ := Prod.mk.inj (done.symm.trans made)
      obtain rfl := Except.ok.inj same
      have typed : isDirType settled.type = true := by
        unfold settleNode at is
        split at is
        · rename_i neither
          exact absurd rfl neither.1
        split at is
        · obtain ⟨_, _, rfl⟩ := Option.map_eq_some_iff.mp is
          rfl
        · obtain ⟨_, _, rfl⟩ := Option.map_eq_some_iff.mp is
          rfl
        · obtain rfl := Option.some.inj is
          rfl
        · obtain rfl := Option.some.inj is
          rfl
      refine created.trans ((Relation.ReflTransGen.single (.relabel ?_ added.used ?_)).trans
        ((addProcFile_walked _ _ _).trans (addProcFile_walked _ _ _)))
      · exact ⟨rfl, rfl, rfl, ⟨rfl, rfl, rfl⟩, rfl, rfl, Or.inl rfl⟩
      · simp only [update_self]
        exact Or.inr typed
    · rw [failed] at done
      exact absurd (Prod.mk.inj done).1 (by simp)

theorem procLazyLookup_walked (nodes : Nodes) (cur : Nat) (comp : Name) (probe : Bool) :
    Walked caller nodes (procLazyLookup caller nodes cur comp probe).2 := by
  unfold procLazyLookup
  split
  · exact .refl
  split
  · exact procLookupPid_walked _ _ _ _
  · exact procLookupPid_walked _ _ _ _

/-- What holds between the tables before and behind each lookup of a process, and passes on. -/
structure Respected (caller : Caller) (respects : Nodes → Nodes → Prop) : Prop where
  refl : ∀ nodes, respects nodes nodes
  trans : ∀ first second third, respects first second → respects second third →
    respects first third
  looked : ∀ nodes cur comp probe, respects nodes (procLazyLookup caller nodes cur comp probe).2

variable {respects : Nodes → Nodes → Prop}

theorem Respected.nextNode (respected : Respected caller respects) (nodes : Nodes) (cur : Nat)
    (comp : Name) (rest : List Name) : respects nodes (nextNode caller nodes cur comp rest).2 := by
  have found := respected.looked nodes cur comp false
  unfold Vfs.nextNode
  split
  · exact respected.refl nodes
  split
  · split
    · rename_i done
      rw [done] at found
      exact found
    · rename_i done
      rw [done] at found
      split <;> exact found
  split
  · split <;> exact respected.refl nodes
  · exact respected.refl nodes

theorem Respected.walkComps (respected : Respected caller respects) (nofollow : Bool) (hops : Nat)
    (nodes : Nodes) (cur : Nat) (comps : List Name) :
    respects nodes (walkComps caller nofollow hops nodes cur comps).2 := by
  induction comps generalizing nodes cur with
  | nil => exact respected.refl nodes
  | cons comp rest inductionHypothesis =>
    have stepped := respected.nextNode nodes cur comp rest
    unfold Vfs.walkComps
    split
    · rename_i done
      rw [done] at stepped
      exact stepped
    · rename_i done
      rw [done] at stepped
      split
      · exact stepped
      · exact respected.trans _ _ _ stepped (inductionHypothesis _ _)

theorem Respected.walkFrom (respected : Respected caller respects) (nofollow : Bool)
    (restarts : Nat) (nodes : Nodes) (resolved : Name) (hops : Nat) :
    respects nodes (walkFrom caller nofollow restarts nodes resolved hops).2 := by
  induction restarts generalizing nodes resolved hops with
  | zero => exact respected.refl nodes
  | succ restarts inductionHypothesis =>
    unfold Vfs.walkFrom
    split
    · exact respected.refl nodes
    · exact respected.refl nodes
    · rename_i comp rest _
      have walked := respected.walkComps nofollow hops nodes 0 (comp :: rest)
      split
      · rename_i done
        rw [done] at walked
        exact walked
      · rename_i done
        rw [done] at walked
        exact respected.trans _ _ _ walked (inductionHypothesis _ _ _)

/-- A walk does to the table what its lookups of processes do, one behind the other. -/
theorem Respected.walkPath (respected : Respected caller respects) (nodes : Nodes) (path : Name)
    (nofollowLast : Bool) : respects nodes (walkPath caller nodes path nofollowLast).2 := by
  unfold Vfs.walkPath
  split
  · exact respected.refl nodes
  simp only
  split
  · exact respected.refl nodes
  · exact respected.walkFrom _ _ _ _ _

theorem walkPath_walked (nodes : Nodes) (path : Name) (nofollowLast : Bool) :
    Walked caller nodes (walkPath caller nodes path nofollowLast).2 :=
  Respected.walkPath ⟨fun _ => .refl, fun _ _ _ => .trans, procLazyLookup_walked⟩ nodes path
    nofollowLast

end MectovOS.Vfs
