/-
This file proves when the path that `vfs_get_abs_path` of src/sys/vfs.c builds
for a node leads back to it. The path holds at most 16 names, those nearest to
the node, and of them as many as fit, and the walk takes 255 characters of it.
A path that is shorter than the way to the node ends at another node, unless it
runs into a symbolic link: the walk then begins again at the target of the link.
-/

import MectovOS.Vfs.PathNames
import MectovOS.Vfs.TreeKept

namespace MectovOS.Vfs

open Function

variable {nodes next : Nodes} {caller : Caller}

/-! ### The path of a node -/

/-- The names that the path is built from. -/
def lowestNames (names : List Name) : List Name := names.drop (names.length - 16)

/-- One round of the loop that goes up. -/
theorem pathStack_succ {hops cur : Nat} {stack pushed : List Name}
    (used : (nodes cur).inUse = true)
    (is : (if cur ≠ 0 ∧ (nodes cur).name ≠ [] then (nodes cur).name :: stack else stack) = pushed) :
    pathStack nodes (hops + 1) stack (some cur) =
      if 16 ≤ pushed.length then pushed else pathStack nodes hops pushed (nodes cur).parent := by
  rw [pathStack, used, if_neg (by simp), is]

/-- The loop that goes up stacks the names nearest to the node. -/
theorem pathStack_eq (sound : TreeSound nodes) {node : Nat} {names : List Name}
    (named : Named nodes node names) {stack : List Name} {hops : Nat} (room : stack.length < 16)
    (enough : 17 ≤ hops + stack.length) :
    pathStack nodes hops stack (some node) = lowestNames (names ++ stack) := by
  induction named generalizing stack hops with
  | root =>
    obtain ⟨rest, rfl⟩ : ∃ rest, hops = rest + 1 + 1 := ⟨hops - 2, by omega⟩
    unfold lowestNames
    rw [pathStack_succ sound.root.1 (if_neg (by simp)), if_neg (by omega), sound.root.2.2,
      List.nil_append, show stack.length - 16 = 0 by omega, List.drop_zero, pathStack]
  | @child node parent names notRoot link rest inductionHypothesis =>
    obtain ⟨more, rfl⟩ : ∃ more, hops = more + 1 := ⟨hops - 1, by omega⟩
    have filled := (sound.named node notRoot link.1).1
    rw [pathStack_succ link.1 (if_pos ⟨notRoot, filled⟩), List.append_assoc,
      List.singleton_append]
    split
    · rename_i full
      rw [List.length_cons] at full
      unfold lowestNames
      rw [List.drop_left']
      rw [List.length_append, List.length_cons]
      omega
    · rename_i less
      rw [List.length_cons] at less
      rw [link.2]
      exact inductionHypothesis (by rw [List.length_cons]; omega)
        (by rw [List.length_cons]; omega)

theorem lowestNames_components {names : List Name}
    (components : ∀ name ∈ names, IsComponent name) :
    ∀ name ∈ lowestNames names, IsComponent name := fun name member =>
  components name (List.mem_of_mem_drop member)

theorem lowestNames_length (names : List Name) :
    (lowestNames names).length = min names.length 16 := by
  unfold lowestNames
  rw [List.length_drop]
  omega

/-- The path of a node joins its lowest names, as far as they fit. -/
theorem getAbsPath_eq (sound : TreeSound nodes) {node : Nat} {names : List Name}
    (named : Named nodes node names) (bufSize : Nat) :
    (getAbsPath nodes (some node) bufSize).2 = joinPath bufSize ['/'] (lowestNames names) := by
  have used := named.used sound
  have stack : pathStack nodes maxNodes [] (some node) = lowestNames names := by
    rw [pathStack_eq sound named (by decide) (by decide), List.append_nil]
  unfold getAbsPath
  dsimp only
  rw [if_neg (by rw [used]; simpa using sound.within node used), stack]

/-! ### Steps of a walk -/

/-- A child is found by its name. -/
theorem walkChild_eq (sound : TreeSound nodes) {node cur : Nat} {comp : Name} (notRoot : node ≠ 0)
    (link : ParentOf nodes node cur)
    (alike : strToLower (nodes node).name = strToLower comp) :
    walkChild nodes cur comp = some node := by
  have used := sound.parent_used link
  unfold walkChild
  rw [if_neg (by rw [used]; simpa using sound.within cur used)]
  rw [List.find?_range_eq_some]
  have chosen : isChildNamed nodes cur comp node = true := by
    unfold isChildNamed
    simp [link.1, link.2, alike]
  refine ⟨chosen, List.mem_range.mpr (sound.within node link.1), fun other before => ?_⟩
  rw [Bool.not_eq_true']
  by_contra named
  rw [Bool.not_eq_false] at named
  unfold isChildNamed at named
  simp only [Bool.and_eq_true, decide_eq_true_eq] at named
  have notTop : other ≠ 0 := by
    rintro rfl
    rw [sound.root.2.2] at named
    exact absurd named.1.2 (by simp)
  exact absurd (sound.unique other node notTop notRoot named.1.1 link.1
    (named.1.2.trans link.2.symm) (named.2.trans alike.symm)) (by omega)

theorem walkChild_some {cur node : Nat} {comp : Name} (found : walkChild nodes cur comp = some node) :
    ParentOf nodes node cur ∧ strToLower (nodes node).name = strToLower comp := by
  unfold walkChild at found
  split at found
  · exact absurd found (by simp)
  · have named := List.find?_some found
    unfold isChildNamed at named
    simp only [Bool.and_eq_true, decide_eq_true_eq] at named
    exact ⟨named.1, named.2⟩

theorem nextNode_child {cur node : Nat} {comp : Name} {rest : List Name}
    (found : walkChild nodes cur comp = some node) :
    nextNode caller nodes cur comp rest = (some (node, false), nodes) := by
  unfold nextNode
  rw [found]

/-- A walk enters a directory and goes on. -/
theorem enter_dir {next : Nat} {nofollow : Bool} {hops : Nat}
    (dir : isDirType (nodes next).type = true) :
    enter nodes next false nofollow hops = none := by
  unfold enter
  rw [Bool.false_and, if_neg (by simp), if_neg, if_neg (by simp)]
  intro link
  rw [link] at dir
  exact absurd dir (by decide)

/-- A walk along the names of a directory comes to it. -/
theorem walkComps_named (sound : TreeSound nodes) {node : Nat} {names rest : List Name}
    {nofollow : Bool} {hops : Nat} (named : Named nodes node names)
    (dir : isDirType (nodes node).type = true) (further : rest ≠ []) :
    walkComps caller nofollow hops nodes 0 (names ++ rest) =
      walkComps caller nofollow hops nodes node rest := by
  induction named generalizing rest with
  | root => rfl
  | @child node parent names notRoot link way inductionHypothesis =>
    obtain ⟨above, is, _, parentDir⟩ := sound.parent node notRoot link.1
    obtain rfl := Option.some.inj (link.2.symm.trans is)
    rw [List.append_assoc, inductionHypothesis parentDir (by simp), List.singleton_append, walkComps,
      nextNode_child (walkChild_eq sound notRoot link rfl)]
    dsimp only
    rw [Bool.false_or, show rest.isEmpty = false by simpa using further, enter_dir dir]

/-- The whole way to a node leads to it, if the last link is not followed. -/
theorem walkComps_whole (sound : TreeSound nodes) {node : Nat} {names : List Name} {hops : Nat}
    (named : Named nodes node names) :
    (walkComps caller true hops nodes 0 names).1 = .found (.ok node) := by
  cases named with
  | root => rfl
  | @child node parent names notRoot link way =>
    obtain ⟨above, is, _, dir⟩ := sound.parent _ notRoot link.1
    obtain rfl := Option.some.inj (link.2.symm.trans is)
    rw [walkComps_named sound way dir (by simp), walkComps,
      nextNode_child (walkChild_eq sound notRoot link rfl)]
    rfl

/-! ### What a walk keeps -/

/-- The nodes in use keep their places and names, and none turns into a link. -/
structure Stays (nodes next : Nodes) (node : Nat) : Prop where
  used : (next node).inUse = true
  name : (next node).name = (nodes node).name
  parent : (next node).parent = (nodes node).parent
  type : (next node).type = (nodes node).type ∨
    ((nodes node).type = .proc ∧ (next node).type = .dir)

theorem Stays.refl {node : Nat} (used : (nodes node).inUse = true) : Stays nodes nodes node :=
  ⟨used, rfl, rfl, .inl rfl⟩

theorem Stays.of_eq {node : Nat} (used : (nodes node).inUse = true)
    (same : next node = nodes node) : Stays nodes next node :=
  ⟨same ▸ used, same ▸ rfl, same ▸ rfl, .inl (same ▸ rfl)⟩

theorem Stays.trans {middle : Nodes} {node : Nat} (first : Stays nodes middle node)
    (second : Stays middle next node) : Stays nodes next node := by
  refine ⟨second.used, second.name.trans first.name, second.parent.trans first.parent, ?_⟩
  rcases first.type with same | ⟨proc, dir⟩
  · rw [← same]
    exact second.type
  · rcases second.type with same | ⟨other, _⟩
    · exact .inr ⟨proc, same.trans dir⟩
    · rw [dir] at other
      exact absurd other (by decide)

/-- A walk leaves the nodes in use where they are, with their names. -/
theorem walked_stays (walked : Walked caller nodes next) {node : Nat}
    (used : (nodes node).inUse = true) : Stays nodes next node := by
  induction walked with
  | refl => exact .refl used
  | tail _ step inductionHypothesis =>
    refine inductionHypothesis.trans ?_
    cases step with
    | create answer label type above _ =>
      exact .of_eq inductionHypothesis.used
        (createNode_extends _ answer caller.uid label type above node inductionHypothesis.used)
    | @relabel index changed relabelled _ _ =>
      rcases eq_or_ne node index with rfl | different
      · refine ⟨?_, ?_, ?_, ?_⟩
        · rw [update_self]
          exact relabelled.inUse.trans inductionHypothesis.used
        · rw [update_self]
          exact relabelled.name
        · rw [update_self]
          exact relabelled.parent
        · rw [update_self]
          exact relabelled.type
      · exact .of_eq inductionHypothesis.used (update_of_ne different _ _)

/-- A process directory that is looked up was a child, or it is new. -/
theorem procLookupPid_ok {after : Nodes} {cur dir : Nat} {comp : Name} {probe : Bool}
    (done : procLookupPid caller nodes cur comp probe = (.ok dir, after)) :
    (nodes dir).inUse = false ∨ ParentOf nodes dir cur := by
  unfold procLookupPid at done
  split at done
  · exact absurd (congrArg Prod.fst done) (by simp)
  split at done
  · rename_i existing found
    obtain ⟨used, parent, _⟩ := findInDir_some found
    split at done
    · split at done
      · obtain rfl := Except.ok.inj (congrArg Prod.fst done)
        exact .inr ⟨used, parent⟩
      · obtain rfl := Except.ok.inj (congrArg Prod.fst done)
        exact .inr ⟨used, parent⟩
    · exact absurd (congrArg Prod.fst done) (by simp)
  split at done
  · exact absurd (congrArg Prod.fst done) (by simp)
  split at done
  · exact absurd (congrArg Prod.fst done) (by simp)
  rcases createNode_cases nodes (caller.entry cur comp) caller.uid comp .dir cur with
    ⟨index, settled, made, _, added⟩ | ⟨code, other, failed, _⟩
  · rw [made] at done
    obtain rfl := Except.ok.inj (congrArg Prod.fst done)
    exact .inl added.free
  · rw [failed] at done
    exact absurd (congrArg Prod.fst done) (by simp)

theorem procLazyLookup_ok {after : Nodes} {cur dir : Nat} {comp : Name} {probe : Bool}
    (done : procLazyLookup caller nodes cur comp probe = (.ok dir, after)) :
    (nodes dir).inUse = false ∨ ParentOf nodes dir cur := by
  unfold procLazyLookup at done
  split at done
  · exact absurd (congrArg Prod.fst done) (by simp)
  split at done
  · exact procLookupPid_ok done
  · exact procLookupPid_ok done

/-! ### Walks that are too short -/

theorem Named.step (sound : TreeSound nodes) {cur next : Nat} {names : List Name}
    (named : Named nodes cur names) (link : ParentOf nodes next cur) :
    Named nodes next (names ++ [(nodes next).name]) := by
  refine .child ?_ link named
  rintro rfl
  rw [ParentOf, sound.root.2.2] at link
  exact absurd link.2 (by simp)

/-- Nodes at different depths are different. -/
theorem Named.ne {first second : Nat} {names others : List Name} (one : Named nodes first names)
    (other : Named nodes second others) (depth : names.length ≠ others.length) :
    (.ok first : Except Int Nat) ≠ .ok second := by
  intro same
  obtain rfl := Except.ok.inj same
  exact depth (congrArg List.length (one.unique other))

/-- The first symbolic link on a way of children, the last one left out. -/
def firstLink (nodes : Nodes) : Nat → List Name → Option Nat
  | _, [] => none
  | cur, comp :: rest =>
    match walkChild nodes cur comp with
    | none => none
    | some next =>
      if rest = [] then none
      else if (nodes next).type = .symlink then some next
      else firstLink nodes next rest

/-- Where there is no child of that name the walk ends: it fails, or it ends at a node that is new,
or at most two levels below. -/
theorem nextNode_lazy (sound : TreeSound nodes) {cur : Nat} {comp : Name}
    (found : walkChild nodes cur comp = none) (rest : List Name) :
    (∃ after, nextNode caller nodes cur comp rest = (none, after)) ∨
    ∃ next took after, nextNode caller nodes cur comp rest = (some (next, took), after) ∧
      (took || rest.isEmpty) = true ∧
      ((nodes next).inUse = true → ParentOf nodes next cur ∨
        rest.length = 1 ∧ ∃ dir, ParentOf nodes next dir ∧ ParentOf nodes dir cur) := by
  unfold nextNode
  rw [found]
  dsimp only
  split
  · cases looked : procLazyLookup caller nodes cur comp false with
    | mk answer after =>
    have walked : Walked caller nodes after := by
      have walked := @procLazyLookup_walked caller nodes cur comp false
      rw [looked] at walked
      exact walked
    cases answer with
    | error code => exact .inl ⟨after, rfl⟩
    | ok dir =>
      have place := procLazyLookup_ok looked
      match rest with
      | [] =>
        refine .inr ⟨dir, false, after, rfl, rfl, fun used => .inl ?_⟩
        rcases place with free | link
        · exact absurd used (by simp [free])
        · exact link
      | [file] =>
        cases inside : walkChild after dir file with
        | none => exact .inl ⟨after, by dsimp only; rw [inside]; rfl⟩
        | some next =>
          refine .inr ⟨next, true, after, by dsimp only; rw [inside]; rfl, rfl, fun used => ?_⟩
          have parent := (walked_stays walked used).parent
          have link : ParentOf nodes next dir :=
            ⟨used, parent.symm.trans (walkChild_some inside).1.2⟩
          rcases place with free | above
          · exact absurd (sound.parent_used link) (by simp [free])
          · exact .inr ⟨rfl, dir, link, above⟩
      | _ :: _ :: _ => exact .inl ⟨after, rfl⟩
  split
  · match rest with
    | [file] =>
      cases inside : walkChild nodes cur file with
      | none => exact .inl ⟨nodes, by dsimp only; rw [inside]; rfl⟩
      | some next =>
        exact .inr ⟨next, true, nodes, by dsimp only; rw [inside]; rfl, rfl,
          fun _ => .inl (walkChild_some inside).1⟩
    | [] => exact .inl ⟨nodes, rfl⟩
    | _ :: _ :: _ => exact .inl ⟨nodes, rfl⟩
  · exact .inl ⟨nodes, rfl⟩

/-- A walk that meets no link ends at a node that is no deeper than the number of names. -/
theorem walkComps_far (sound : TreeSound nodes) {node cur hops : Nat}
    {names before comps : List Name} (named : Named nodes node names)
    (way : Named nodes cur before) (far : before.length + comps.length < names.length)
    (unlinked : firstLink nodes cur comps = none) :
    ∃ result, (walkComps caller true hops nodes cur comps).1 = .found result ∧
      result ≠ .ok node := by
  induction comps generalizing cur before with
  | nil => exact ⟨_, rfl, way.ne named (by rw [List.length_nil] at far; omega)⟩
  | cons comp rest inductionHypothesis =>
    rw [List.length_cons] at far
    rw [firstLink] at unlinked
    rw [walkComps]
    cases found : walkChild nodes cur comp with
    | some next =>
      rw [found] at unlinked
      rw [nextNode_child found]
      dsimp only at unlinked ⊢
      have deeper := way.step sound (walkChild_some found).1
      rcases eq_or_ne rest [] with rfl | further
      · exact ⟨_, rfl, deeper.ne named (by
          rw [List.length_append, List.length_singleton]
          rw [List.length_nil] at far
          omega)⟩
      · rw [if_neg further] at unlinked
        split at unlinked
        · exact absurd unlinked (by simp)
        rename_i noLink
        have goesOn : enter nodes next (false || rest.isEmpty) true hops = none := by
          unfold enter
          rw [Bool.false_or, show rest.isEmpty = false by simpa using further, if_neg (by simp),
            if_neg noLink, if_neg (by simp)]
        rw [goesOn]
        refine inductionHypothesis deeper ?_ unlinked
        rw [List.length_append, List.length_singleton]
        omega
    | none =>
      rcases nextNode_lazy sound found rest with ⟨after, refused⟩ | ⟨next, took, after, is, last, place⟩
      · rw [refused]
        exact ⟨_, rfl, by simp⟩
      · rw [is]
        dsimp only
        unfold enter
        rw [last, Bool.true_and, if_pos rfl]
        refine ⟨_, rfl, fun same => ?_⟩
        obtain rfl := Except.ok.inj same
        rcases place (named.used sound) with link | ⟨one, dir, link, above⟩
        · have depth := congrArg List.length ((way.step sound link).unique named)
          rw [List.length_append, List.length_singleton] at depth
          omega
        · have depth := congrArg List.length (((way.step sound above).step sound link).unique named)
          rw [List.length_append, List.length_append, List.length_singleton,
            List.length_singleton] at depth
          omega

/-- A walk that meets a link begins again at its target. -/
theorem walkComps_link {cur link hops : Nat} {comps : List Name}
    (met : firstLink nodes cur comps = some link) (budget : hops < symlinkHopsMax) :
    walkComps caller true hops nodes cur comps =
      (match linkPath nodes link with
        | none => .found (.error (-1))
        | some target => .restart target (hops + 1), nodes) := by
  induction comps generalizing cur with
  | nil => exact absurd met (by simp [firstLink])
  | cons comp rest inductionHypothesis =>
    rw [firstLink] at met
    split at met
    · exact absurd met (by simp)
    rename_i next found
    rcases eq_or_ne rest [] with rfl | further
    · exact absurd met (by simp)
    rw [if_neg further] at met
    have last : (false || rest.isEmpty) = false := by simpa using further
    rw [walkComps, nextNode_child found]
    dsimp only
    unfold enter
    rw [last, Bool.false_and, if_neg (by simp)]
    split at met
    · rename_i isLink
      obtain rfl := Option.some.inj met
      rw [if_pos isLink, if_neg (by omega)]
      cases linkPath nodes next <;> rfl
    · rename_i noLink
      rw [if_neg noLink, if_neg (by simp)]
      exact inductionHypothesis met

/-- A walk along the first names of a way, and perhaps a part of the next one, ends elsewhere. -/
theorem walkComps_short (sound : TreeSound nodes) {node count hops : Nat}
    {names : List Name} {name part : Name} (named : Named nodes node names)
    (is : names[count]? = some name) (cut : part.length < name.length)
    (deep : part = [] ∨ 1 < count) :
    ∃ result, (walkComps caller true hops nodes 0
        (names.take count ++ if part = [] then [] else [part])).1 = .found result ∧
      result ≠ .ok node := by
  obtain ⟨within, at'⟩ := List.getElem?_eq_some_iff.mp is
  obtain ⟨above, way, dir⟩ := named.take sound (Nat.le_of_lt within)
  have length : (names.take count).length = count := by
    rw [List.length_take]
    omega
  split
  · rw [List.append_nil, walkComps_whole sound way]
    exact ⟨_, rfl, way.ne named (by omega)⟩
  rename_i filled
  rw [walkComps_named sound way (dir within) (by simp)]
  rcases Nat.lt_or_ge (count + 1) names.length with far | last
  · refine walkComps_far sound named way (by rw [length, List.length_singleton]; exact far) ?_
    rw [firstLink]
    split
    · rfl
    · rw [if_pos rfl]
  rw [walkComps]
  cases found : walkChild nodes above part with
  | some next =>
    rw [nextNode_child found]
    refine ⟨_, rfl, fun same => ?_⟩
    obtain rfl := Except.ok.inj same
    obtain ⟨link, alike⟩ := walkChild_some found
    -- the child has the name that the part is cut from
    have whole := (way.step sound link).unique named
    have own : (nodes next).name = name := by
      rw [← whole, List.getElem?_append_right (by omega), length, Nat.sub_self] at is
      exact Option.some.inj is
    have lengths := congrArg List.length alike
    unfold strToLower at lengths
    rw [List.length_map, List.length_map, own] at lengths
    omega
  | none =>
    have noProc : isProcDir nodes above = false := by
      unfold isProcDir
      rw [Bool.and_eq_false_iff]
      refine .inr (decide_eq_false fun top => ?_)
      have high := (Named.root.step sound ⟨way.used sound, top⟩).unique way
      have depth := congrArg List.length high
      rw [length, List.nil_append, List.length_singleton] at depth
      rcases deep with empty | deep
      · exact filled empty
      · omega
    have noFile : ¬ ((nodes above).type = .proc ∧ 0 < (nodes above).dataSector) := by
      rintro ⟨proc, _⟩
      have isDir := dir within
      rw [proc] at isDir
      exact absurd isDir (by decide)
    unfold nextNode
    rw [found, noProc, if_neg (by simp), if_neg noFile]
    exact ⟨_, rfl, by simp⟩

/-! ### The walk back -/

/-- An absolute path is walked from its first 255 characters. -/
theorem walkPath_abs (rest : Name) (nofollow : Bool) :
    walkPath caller nodes ('/' :: rest) nofollow =
      walkFrom caller nofollow (symlinkHopsMax + 1) nodes ('/' :: rest.take (maxPath - 2)) 0 := by
  have resolved : resolvePath caller nodes ('/' :: rest) maxPath =
      '/' :: rest.take (maxPath - 2) := by
    unfold resolvePath
    rw [if_neg (by simp), if_pos (show ('/' :: rest).head? = some '/' from rfl)]
    rfl
  unfold walkPath
  rw [if_neg (by simp), resolved]
  dsimp only
  split
  · rename_i top
    rw [top]
    rfl
  · rfl

/-- One round of the outer loop of the walk. -/
theorem walkFrom_succ {nofollow : Bool} {restarts hops : Nat} {resolved : Name}
    {comps : List Name} (split : splitPath resolved = some comps) :
    walkFrom caller nofollow (restarts + 1) nodes resolved hops =
      match walkComps caller nofollow hops nodes 0 comps with
      | (.found result, after) => (result, after)
      | (.restart again hops, after) => walkFrom caller nofollow restarts after again hops := by
  rw [walkFrom, split]
  cases comps with
  | nil => rfl
  | cons comp rest => rfl

/-- The names that the walk takes from the path of a node. -/
def cutNames (bufSize : Nat) (names : List Name) : List Name :=
  (splitPath ((joinPath bufSize ['/'] (lowestNames names)).take (maxPath - 1))).getD []

/-- The path of a node leads back to it: it holds all names, or the names that it holds run into
a symbolic link, and the target of the link names the node. -/
def LeadsBack (caller : Caller) (nodes : Nodes) (bufSize node : Nat) (names : List Name) : Prop :=
  (names.length ≤ 16 ∧ fits bufSize ['/'] names = true ∧ (joined names).length < maxPath - 1) ∨
  (16 < names.length ∧ ∃ link target,
    firstLink nodes 0 (cutNames bufSize names) = some link ∧ linkPath nodes link = some target ∧
      (walkFrom caller true symlinkHopsMax nodes target 1).1 = .ok node)

/-- The names that the walk takes: all that were joined, or the first of them and perhaps a part
of the next one. -/
theorem cutNames_cases (sound : TreeSound nodes) (short : ShortNames nodes) {node : Nat}
    {names : List Name} (named : Named nodes node names) (bufSize : Nat) :
    ∃ rest, (getAbsPath nodes (some node) bufSize).2 = '/' :: rest ∧
      splitPath ('/' :: rest.take (maxPath - 2)) = some (cutNames bufSize names) ∧
      ((cutNames bufSize names = lowestNames names ∧
          fits bufSize ['/'] (lowestNames names) = true ∧
          (joined (lowestNames names)).length < maxPath - 1) ∨
        (¬ (fits bufSize ['/'] (lowestNames names) = true ∧
            (joined (lowestNames names)).length < maxPath - 1) ∧
          ∃ count name part, (lowestNames names)[count]? = some name ∧ part.length < name.length ∧
            (part = [] ∨ 1 < count) ∧ cutNames bufSize names =
              (lowestNames names).take count ++ if part = [] then [] else [part])) := by
  have components := lowestNames_components (named.components sound short)
  obtain ⟨count, within, joins, whole⟩ := @joinPath_joined bufSize [] (lowestNames names) components
  have path : joinPath bufSize ['/'] (lowestNames names) =
      '/' :: joined ((lowestNames names).take count) := joins
  have few := lowestNames_length names
  have taken : ∀ name ∈ (lowestNames names).take count, IsComponent name := fun name member =>
    components name (List.mem_of_mem_take member)
  have room : ([] : List Name).length + ((lowestNames names).take count).length < maxPath / 2 := by
    rw [List.length_nil, List.length_take]
    unfold maxPath
    omega
  have cutEq : ∀ {comps}, splitLoop [] [] ((joined ((lowestNames names).take count)).take
      (maxPath - 2)) = some comps → cutNames bufSize names = comps := by
    intro comps split
    unfold cutNames
    rw [path, show maxPath - 1 = maxPath - 2 + 1 from rfl, List.take_succ_cons]
    show (splitLoop [] [] _).getD [] = comps
    rw [split]
    rfl
  refine ⟨_, (getAbsPath_eq sound named bufSize).trans path, ?_⟩
  show splitLoop [] [] _ = _ ∧ _
  rcases Nat.lt_or_ge (maxPath - 2) (joined ((lowestNames names).take count)).length with
    long | fitting
  · -- the walk cuts the path off
    obtain ⟨index, name, part, at', shorter, low, split⟩ := splitLoop_cut taken room long
    have inside : index < count := by
      have bound := (List.getElem?_eq_some_iff.mp at').1
      rw [List.length_take] at bound
      omega
    rw [List.getElem?_take_of_lt inside] at at'
    rw [List.nil_append, List.take_take, Nat.min_eq_left (Nat.le_of_lt inside)] at split
    refine ⟨by rw [cutEq split, split], .inr ⟨?_, index, name, part, at', shorter, ?_, cutEq split⟩⟩
    · rintro ⟨all, less⟩
      rw [whole.mpr all, List.take_of_length_le (Nat.le_refl _)] at long
      omega
    · unfold maxPath maxFilename at low
      omega
  · rw [List.take_of_length_le fitting] at cutEq ⊢
    have split := splitLoop_joined taken room
    rw [List.nil_append] at split
    refine ⟨by rw [cutEq split, split], ?_⟩
    rcases Nat.eq_or_lt_of_le within with all | less
    · refine .inl ⟨?_, whole.mp all, ?_⟩
      · rw [cutEq split, List.take_of_length_le (Nat.le_of_eq all.symm)]
      · rw [List.take_of_length_le (Nat.le_of_eq all.symm)] at fitting
        unfold maxPath at fitting ⊢
        omega
    · have inside := List.getElem?_eq_getElem less
      have filled := (components _ (List.getElem_mem less)).1
      refine .inr ⟨fun both => absurd (whole.mpr both.1) (by omega), count, _, [], inside,
        List.length_pos_of_ne_nil filled, .inl rfl, ?_⟩
      rw [cutEq split, if_pos rfl, List.append_nil]

/-- The path of a node leads back to it under this condition exactly. -/
theorem leadsBack_iff (sound : TreeSound nodes) (short : ShortNames nodes) {node : Nat}
    {names : List Name} (named : Named nodes node names) (bufSize : Nat) :
    (walkPath caller nodes (getAbsPath nodes (some node) bufSize).2 true).1 = .ok node ↔
      LeadsBack caller nodes bufSize node names := by
  obtain ⟨rest, path, split, cases⟩ := cutNames_cases sound short named bufSize
  rw [path, walkPath_abs, walkFrom_succ split]
  have elsewhere : ∀ {result : Except Int Nat}, result ≠ .ok node →
      (walkComps caller true 0 nodes 0 (cutNames bufSize names)).1 = .found result →
      ¬ (match walkComps caller true 0 nodes 0 (cutNames bufSize names) with
        | (.found result, after) => (result, after)
        | (.restart again hops, after) =>
          walkFrom caller true symlinkHopsMax after again hops).1 = .ok node := by
    intro result other found
    cases walked : walkComps caller true 0 nodes 0 (cutNames bufSize names) with
    | mk walk after =>
      rw [walked] at found
      dsimp only at found
      rw [found]
      exact other
  rcases Nat.lt_or_ge 16 names.length with deep | shallow
  · -- the path holds too few names: only a link can lead to the node
    have few : (cutNames bufSize names).length ≤ 16 := by
      have bound := lowestNames_length names
      rcases cases with ⟨all, _⟩ | ⟨_, count, name, part, at', _, _, is⟩
      · rw [all]
        omega
      · have inside := (List.getElem?_eq_some_iff.mp at').1
        rw [is, List.length_append, List.length_take]
        split
        · rw [List.length_nil]
          omega
        · rw [List.length_singleton]
          omega
    unfold LeadsBack
    cases met : firstLink nodes 0 (cutNames bufSize names) with
    | none =>
      obtain ⟨result, found, other⟩ := @walkComps_far nodes caller sound node 0 0 names []
        (cutNames bufSize names) named .root (by rw [List.length_nil]; omega) met
      refine iff_of_false (elsewhere other found) ?_
      rintro (⟨shallow, _⟩ | ⟨_, link, target, is, _⟩)
      · omega
      · exact absurd is (by simp)
    | some link =>
      rw [walkComps_link met (by decide)]
      cases target : linkPath nodes link with
      | none =>
        refine iff_of_false (by simp) ?_
        rintro (⟨shallow, _⟩ | ⟨_, _, _, is, found, _⟩)
        · omega
        · obtain rfl := Option.some.inj is
          rw [target] at found
          exact absurd found (by simp)
      | some again =>
        refine ⟨fun back => .inr ⟨deep, link, again, rfl, target, back⟩, ?_⟩
        rintro (⟨shallow, _⟩ | ⟨_, _, _, is, found, back⟩)
        · omega
        · obtain rfl := Option.some.inj is
          rw [target] at found
          obtain rfl := Option.some.inj found
          exact back
  · have low : lowestNames names = names := by
      unfold lowestNames
      rw [show names.length - 16 = 0 by omega, List.drop_zero]
    rw [low] at cases
    rcases cases with ⟨all, fit, less⟩ | ⟨lacks, count, name, part, at', cut, deep, is⟩
    · have whole := @walkComps_whole nodes caller sound node names 0 named
      rw [all]
      refine iff_of_true ?_ (.inl ⟨shallow, fit, less⟩)
      cases walked : walkComps caller true 0 nodes 0 names with
      | mk walk after =>
        rw [walked] at whole
        dsimp only at whole
        rw [whole]
    · obtain ⟨result, found, other⟩ := @walkComps_short nodes caller sound node count 0 names name
        part named at' cut deep
      rw [← is] at found
      refine iff_of_false (elsewhere other found) ?_
      rintro (⟨_, fit, less⟩ | ⟨far, _⟩)
      · exact lacks ⟨fit, less⟩
      · omega

end MectovOS.Vfs
