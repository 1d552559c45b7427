/-
This file relates the paths of src/sys/vfs.c to the names on the way from the
root to a node: the way that the parent links name, the path that joins the
names, and what `split_path` makes of such a path, also of one that was cut off.
-/

import MectovOS.Vfs.Tree

namespace MectovOS.Vfs

variable {nodes : Nodes}

/-! ### The names above a node -/

/-- The names on the way from the root to a node. -/
inductive Named (nodes : Nodes) : Nat → List Name → Prop
  | root : Named nodes 0 []
  | child {node parent : Nat} {names : List Name} : node ≠ 0 → ParentOf nodes node parent →
      Named nodes parent names → Named nodes node (names ++ [(nodes node).name])

/-- The names of the nodes in use fit into their slots. -/
def ShortNames (nodes : Nodes) : Prop :=
  ∀ node, (nodes node).inUse = true → (nodes node).name.length < maxFilename

/-- A component that `split_path` can give back. -/
def IsComponent (name : Name) : Prop := name ≠ [] ∧ '/' ∉ name ∧ name.length < maxFilename

theorem TreeSound.exists_named (sound : TreeSound nodes) {node : Nat}
    (used : (nodes node).inUse = true) : ∃ names, Named nodes node names := by
  have way := sound.rooted node used
  clear used
  induction way using Relation.ReflTransGen.head_induction_on with
  | refl => exact ⟨[], .root⟩
  | @head child parent link _ inductionHypothesis =>
    obtain ⟨names, named⟩ := inductionHypothesis
    refine ⟨_, .child ?_ link named⟩
    rintro rfl
    rw [ParentOf, sound.root.2.2] at link
    exact absurd link.2 (by simp)

/-- A node has one way. -/
theorem Named.unique {node : Nat} {first second : List Name} (one : Named nodes node first)
    (other : Named nodes node second) : first = second := by
  induction one generalizing second with
  | root =>
    cases other with
    | root => rfl
    | child notRoot _ _ => exact absurd rfl notRoot
  | child notRoot link _ inductionHypothesis =>
    cases other with
    | root => exact absurd rfl notRoot
    | child _ link' rest =>
      obtain rfl := Option.some.inj (link.2.symm.trans link'.2)
      rw [inductionHypothesis rest]

theorem Named.used (sound : TreeSound nodes) {node : Nat} {names : List Name}
    (named : Named nodes node names) : (nodes node).inUse = true := by
  cases named with
  | root => exact sound.root.1
  | child _ link _ => exact link.1

/-- Every name on a way is a component. -/
theorem Named.components (sound : TreeSound nodes) (short : ShortNames nodes) {node : Nat}
    {names : List Name} (named : Named nodes node names) :
    ∀ name ∈ names, IsComponent name := by
  induction named with
  | root => exact fun name member => absurd member (by simp)
  | @child node parent names notRoot link _ inductionHypothesis =>
    intro name member
    rcases List.mem_append.mp member with member | member
    · exact inductionHypothesis name member
    · obtain rfl := List.mem_singleton.mp member
      obtain ⟨filled, plain⟩ := sound.named node notRoot link.1
      exact ⟨filled, plain, short node link.1⟩

/-- The first names of a way lead to a node above, which is a directory unless it is the end. -/
theorem Named.take (sound : TreeSound nodes) {node : Nat} {names : List Name}
    (named : Named nodes node names) {count : Nat} (within : count ≤ names.length) :
    ∃ above, Named nodes above (names.take count) ∧
      (count < names.length → isDirType (nodes above).type = true) := by
  induction named generalizing count with
  | root => exact ⟨0, by rw [List.take_nil]; exact .root, fun _ => sound.root.2.1⟩
  | @child node parent names notRoot link rest inductionHypothesis =>
    rw [List.length_append, List.length_singleton] at within ⊢
    rcases Nat.lt_or_ge names.length count with full | less
    · rw [List.take_of_length_le (by rw [List.length_append, List.length_singleton]; omega)]
      exact ⟨node, .child notRoot link rest, fun before => absurd before (by omega)⟩
    · rw [List.take_append_of_le_length less]
      rcases Nat.lt_or_ge count names.length with before | whole
      · obtain ⟨above, way, dir⟩ := inductionHypothesis less
        exact ⟨above, way, fun _ => dir before⟩
      · rw [List.take_of_length_le whole]
        obtain ⟨above, is, _, dir⟩ := sound.parent node notRoot link.1
        obtain rfl := Option.some.inj (link.2.symm.trans is)
        exact ⟨parent, rest, fun _ => dir⟩

/-! ### Joined names -/

/-- The names with slashes between them. -/
def joined : List Name → Name
  | [] => []
  | [name] => name
  | name :: next :: rest => name ++ '/' :: joined (next :: rest)

/-- One round of the loop that joins the names. -/
def addName (path name : Name) : Name := (if 1 < path.length then path ++ ['/'] else path) ++ name

theorem joined_ne_nil {names : List Name} (components : ∀ name ∈ names, IsComponent name)
    (filled : names ≠ []) : joined names ≠ [] := by
  match names, filled with
  | [name], _ => exact (components name List.mem_cons_self).1
  | name :: next :: rest, _ => exact List.append_ne_nil_of_right_ne_nil _ (by simp)

theorem joined_concat {names : List Name} (filled : names ≠ []) (name : Name) :
    joined (names ++ [name]) = joined names ++ '/' :: name := by
  induction names with
  | nil => exact absurd rfl filled
  | cons head rest inductionHypothesis =>
    cases rest with
    | nil => rfl
    | cons next more =>
      have tail := inductionHypothesis (by simp)
      show head ++ '/' :: joined (next :: more ++ [name]) = _
      rw [tail]
      show _ = (head ++ '/' :: joined (next :: more)) ++ '/' :: name
      rw [List.append_assoc, List.cons_append]

theorem addName_joined {names : List Name} (components : ∀ name ∈ names, IsComponent name)
    (name : Name) : addName ('/' :: joined names) name = '/' :: joined (names ++ [name]) := by
  unfold addName
  rcases eq_or_ne names [] with rfl | filled
  · rw [if_neg (by simp [joined])]
    rfl
  · have long := List.length_pos_of_ne_nil (joined_ne_nil components filled)
    rw [if_pos (by rw [List.length_cons]; omega), joined_concat filled]
    simp

/-- Do all names fit into the buffer, one behind the other? -/
def fits (bufSize : Nat) : Name → List Name → Bool
  | _, [] => true
  | path, name :: rest =>
    decide (path.length + name.length < bufSize - 1) && fits bufSize (addName path name) rest

/-- The loop joins the first names, and all of them exactly if they fit. -/
theorem joinPath_joined (bufSize : Nat) {before names : List Name}
    (components : ∀ name ∈ before ++ names, IsComponent name) :
    ∃ count ≤ names.length,
      joinPath bufSize ('/' :: joined before) names =
        '/' :: joined (before ++ names.take count) ∧
      (count = names.length ↔ fits bufSize ('/' :: joined before) names = true) := by
  induction names generalizing before with
  | nil => exact ⟨0, Nat.le_refl _, by simp [joinPath], by simp [fits]⟩
  | cons name rest inductionHypothesis =>
    unfold joinPath fits
    split
    · rename_i full
      refine ⟨0, Nat.zero_le _, by rw [List.take_zero, List.append_nil], ?_⟩
      rw [decide_eq_false (by omega), Bool.false_and]
      simp
    · rename_i room
      have added := addName_joined (fun other member => components other
        (List.mem_append_left _ member)) name
      obtain ⟨count, within, path, whole⟩ := @inductionHypothesis (before ++ [name]) fun other
        member => components other (by simpa using member)
      rw [← added] at path whole
      refine ⟨count + 1, Nat.succ_le_succ within, ?_, ?_⟩
      · show joinPath bufSize (addName _ name) rest = _
        rw [path, List.take_succ_cons, List.append_assoc]
        rfl
      · rw [decide_eq_true (by omega), Bool.true_and, ← whole, List.length_cons]
        omega

/-! ### Splitting joined names -/

/-- A name is read to its end. -/
theorem splitLoop_name (done : List Name) (part : Name) {name rest : Name} (plain : '/' ∉ name)
    (short : part.length + name.length < maxFilename) :
    splitLoop done part (name ++ rest) = splitLoop done (part ++ name) rest := by
  induction name generalizing part with
  | nil => rw [List.nil_append, List.append_nil]
  | cons char more inductionHypothesis =>
    rw [List.mem_cons, not_or] at plain
    rw [List.length_cons] at short
    rw [List.cons_append, splitLoop, if_neg (Ne.symm plain.1), if_neg (by omega),
      inductionHypothesis _ plain.2 (by rw [List.length_append, List.length_singleton]; omega),
      List.append_assoc, List.singleton_append]

/-- The end of a name. -/
theorem splitLoop_end {done : List Name} {part : Name} (room : done.length + 1 < maxPath / 2) :
    splitLoop done part [] = some (done ++ if part = [] then [] else [part]) := by
  rw [splitLoop]
  split
  · rw [List.append_nil]
  · rw [if_neg (by omega)]

/-- A name with a slash behind it. -/
theorem splitLoop_slash {done : List Name} {name rest : Name} (component : IsComponent name)
    (room : done.length + 1 < maxPath / 2) :
    splitLoop done [] (name ++ '/' :: rest) = splitLoop (done ++ [name]) [] rest := by
  rw [splitLoop_name done [] component.2.1 (by rw [List.length_nil, Nat.zero_add]; exact component.2.2),
    List.nil_append, splitLoop, if_pos rfl, if_neg component.1, if_neg (by omega)]

/-- Joined names are split into the names. -/
theorem splitLoop_joined {done names : List Name} (components : ∀ name ∈ names, IsComponent name)
    (room : done.length + names.length < maxPath / 2) :
    splitLoop done [] (joined names) = some (done ++ names) := by
  match names with
  | [] =>
    rw [joined, splitLoop, if_pos rfl, List.append_nil]
  | [name] =>
    obtain ⟨filled, plain, short⟩ := components name List.mem_cons_self
    have read := @splitLoop_name done [] name [] plain (by rw [List.length_nil]; omega)
    rw [List.append_nil, List.nil_append] at read
    rw [joined, read, splitLoop_end room, if_neg filled]
  | name :: next :: rest =>
    rw [List.length_cons] at room
    rw [joined, splitLoop_slash (components name List.mem_cons_self) (by omega),
      splitLoop_joined (fun other member => components other (List.mem_cons_of_mem _ member))
        (by rw [List.length_append, List.length_singleton]; omega), List.append_assoc]
    rfl

/-- Joined names that are cut off are split into the first names and perhaps a part of the next
one. -/
theorem splitLoop_cut {done names : List Name} {length : Nat}
    (components : ∀ name ∈ names, IsComponent name)
    (room : done.length + names.length < maxPath / 2) (cut : length < (joined names).length) :
    ∃ count name part, names[count]? = some name ∧ part.length < name.length ∧
      length < maxFilename * (count + 1) ∧
      splitLoop done [] ((joined names).take length) =
        some (done ++ names.take count ++ if part = [] then [] else [part]) := by
  have first : ∀ {name : Name} {rest : List Name}, IsComponent name → length < name.length →
      done.length + 1 < maxPath / 2 → ∀ behind, ∃ count other part,
        (name :: rest)[count]? = some other ∧ part.length < other.length ∧
        length < maxFilename * (count + 1) ∧
        splitLoop done [] ((name ++ behind).take length) =
          some (done ++ (name :: rest).take count ++ if part = [] then [] else [part]) := by
    intro name rest component before space behind
    refine ⟨0, name, name.take length, rfl, ?_, ?_, ?_⟩
    · rw [List.length_take]
      omega
    · have short := component.2.2
      omega
    · have plain : '/' ∉ name.take length := fun member => component.2.1 (List.mem_of_mem_take member)
      have short : ([] : Name).length + (name.take length).length < maxFilename := by
        have within := component.2.2
        rw [List.length_nil, List.length_take]
        omega
      have read := @splitLoop_name done [] (name.take length) [] plain short
      rw [List.append_nil, List.nil_append] at read
      rw [List.take_append_of_le_length (by omega), read, splitLoop_end space, List.take_zero,
        List.append_nil]
  match names with
  | [] => exact absurd cut (by simp [joined])
  | [name] =>
    have found := @first name [] (components name List.mem_cons_self) cut
      (by rw [List.length_singleton] at room; exact room) []
    rw [List.append_nil] at found
    exact found
  | name :: next :: rest =>
    have component := components name List.mem_cons_self
    rw [List.length_cons] at room
    rcases Nat.lt_or_ge length name.length with before | behind
    · exact first component before (by omega) _
    rcases Nat.lt_or_ge name.length length with past | whole
    · -- the cut is behind the slash
      rw [joined, List.length_append, List.length_cons] at cut
      obtain ⟨count, other, part, at', shorter, low, split⟩ :=
        @splitLoop_cut (done ++ [name]) (next :: rest) (length - name.length - 1)
          (fun other member => components other (List.mem_cons_of_mem _ member))
          (by rw [List.length_append, List.length_singleton]; omega) (by omega)
      refine ⟨count + 1, other, part, at', shorter, ?_, ?_⟩
      · have short := component.2.2
        unfold maxFilename at low short ⊢
        omega
      · rw [joined, List.take_append, List.take_of_length_le (by omega),
          show length - name.length = length - name.length - 1 + 1 by omega, List.take_succ_cons,
          splitLoop_slash component (by omega), split, List.take_succ_cons]
        simp
    · -- the cut is between the name and the slash
      obtain rfl : length = name.length := by omega
      have filled := (components next (List.mem_cons_of_mem _ List.mem_cons_self)).1
      have read := @splitLoop_name done [] name [] component.2.1
        (by rw [List.length_nil, Nat.zero_add]; exact component.2.2)
      rw [List.append_nil, List.nil_append] at read
      refine ⟨1, next, [], rfl, List.length_pos_of_ne_nil filled, ?_, ?_⟩
      · have short := component.2.2
        omega
      · rw [joined, List.take_left', read, splitLoop_end (by omega), if_neg component.1]
        · simp
        · rfl
termination_by names.length

end MectovOS.Vfs
