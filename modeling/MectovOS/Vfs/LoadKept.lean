/-
This file proves when a table that `vfs_load` has read is safe to walk. The
second repair leads a node whose walk up spins to the root, one node after the
other. If the links of the root end, the walk up from the node ends from then
on, and no walk that ended before is changed; if they do not, the repair makes
the root its own parent, and nothing below it ever reaches an end.
-/

import MectovOS.Vfs.Load

namespace MectovOS.Vfs

open ByteMemory Forest Function

/-! ### The fields of a repaired node -/

theorem nodeParent_underRoot (node : Bytes) : nodeParent (underRoot node) = 0 := by
  unfold nodeParent underRoot
  rw [read32_write32_of_lt _ _ _ (by omega)]
  rfl

theorem nodeInUse_underRoot (node : Bytes) : nodeInUse (underRoot node) = nodeInUse node := by
  unfold nodeInUse underRoot
  rw [read32_write32_other _ _ _ _ (by unfold inUseOffset parentOffset; omega)]

theorem underRoot_name (node : Bytes) {index : Nat} (inside : index < maxFilename) :
    underRoot node index = node index := by
  unfold maxFilename at inside
  exact write32_other _ _ _ _ (by unfold parentOffset; omega)

theorem nodeParent_named (node : Bytes) :
    nodeParent (update node (maxFilename - 1) 0) = nodeParent node := by
  unfold nodeParent
  rw [read32_congr fun index low _ => update_of_ne (by
    unfold parentOffset at low
    unfold maxFilename
    omega) _ _]

theorem nodeInUse_named (node : Bytes) :
    nodeInUse (update node (maxFilename - 1) 0) = nodeInUse node := by
  unfold nodeInUse
  rw [read32_congr fun index low _ => update_of_ne (by
    unfold inUseOffset at low
    unfold maxFilename
    omega) _ _]

theorem nodeInUse_sanitizeNode (node : Bytes) : nodeInUse (sanitizeNode node) = nodeInUse node := by
  unfold sanitizeNode
  dsimp only
  split
  · rw [nodeInUse_underRoot, nodeInUse_named]
  · rw [nodeInUse_named]

theorem sanitizeNode_name (node : Bytes) : sanitizeNode node (maxFilename - 1) = 0 := by
  unfold sanitizeNode
  split
  · rw [underRoot_name _ (by decide), update_self]
  · rw [update_self]

/-- A parent link in the table is kept. -/
theorem nodeParent_sanitizeNode {node : Bytes} (low : -1 ≤ nodeParent node)
    (high : nodeParent node < maxNodes) : nodeParent (sanitizeNode node) = nodeParent node := by
  unfold sanitizeNode
  dsimp only
  rw [if_neg, nodeParent_named]
  rw [nodeParent_named]
  omega

/-- The parent link of a node in use that leads out of the table is set to the root. -/
theorem nodeParent_sanitizeNode_out {node : Bytes} (used : nodeInUse node = true)
    (out : nodeParent node < -1 ∨ maxNodes ≤ nodeParent node) :
    nodeParent (sanitizeNode node) = 0 := by
  unfold sanitizeNode
  dsimp only
  rw [if_pos, nodeParent_underRoot]
  rw [nodeInUse_named, nodeParent_named]
  exact ⟨used, out⟩

/-! ### Links -/

/-- The parent link of a node in use, if it leads to an index of the table. -/
def linkOf (table : NodeTable) (node : Nat) : Option Nat :=
  if nodeInUse (table node) = true ∧ 0 ≤ nodeParent (table node) ∧
      nodeParent (table node) < maxNodes then
    some (nodeParent (table node)).toNat
  else none

/-- The parent links of the nodes in use are -1 or lead to an index of the table. -/
def Ranged (table : NodeTable) : Prop :=
  ∀ node < maxNodes, nodeInUse (table node) = true →
    -1 ≤ nodeParent (table node) ∧ nodeParent (table node) < maxNodes

theorem linkOf_free {table : NodeTable} {node : Nat} (free : nodeInUse (table node) = false) :
    linkOf table node = none := by
  unfold linkOf
  rw [if_neg]
  rw [free]
  simp

theorem linkOf_some {table : NodeTable} {node next : Nat} (link : linkOf table node = some next) :
    nodeInUse (table node) = true ∧ nodeParent (table node) = next ∧ next < maxNodes := by
  unfold linkOf at link
  split at link
  · rename_i inside
    obtain ⟨used, low, high⟩ := inside
    have same := Option.some.inj link
    exact ⟨used, by omega, by omega⟩
  · exact absurd link (by simp)

/-- A node in use without a link has a parent out of the table. -/
theorem linkOf_none {table : NodeTable} {node : Nat} (used : nodeInUse (table node) = true)
    (top : linkOf table node = none) :
    nodeParent (table node) < 0 ∨ maxNodes ≤ nodeParent (table node) := by
  unfold linkOf at top
  by_contra inside
  rw [if_pos ⟨used, by omega, by omega⟩] at top
  exact absurd top (by simp)

theorem linkOf_eq {table : NodeTable} {node next : Nat} (used : nodeInUse (table node) = true)
    (parent : nodeParent (table node) = next) (inside : next < maxNodes) :
    linkOf table node = some next := by
  unfold linkOf
  rw [if_pos ⟨used, by omega, by omega⟩, parent, Int.toNat_natCast]

/-- What is above a node of the table lies in the table. -/
theorem reach_inside {table : NodeTable} {node above : Nat} (inside : node < maxNodes)
    (way : Reach (linkOf table) node above) : above < maxNodes := by
  induction way with
  | refl => exact inside
  | tail _ link _ => exact (linkOf_some link).2.2

/-- A walk up that does not end goes on in the table. -/
theorem loose_link {table : NodeTable} {node : Nat} (loose : ¬ Grounded (linkOf table) node) :
    ∃ next, linkOf table node = some next ∧ ¬ Grounded (linkOf table) next := by
  cases link : linkOf table node with
  | none => exact absurd (.of_top link) loose
  | some next => exact ⟨next, rfl, fun grounded => loose (.of_step link grounded)⟩

/-! ### The walk of the second repair -/

/-- A walk that does not end spins. -/
theorem spins_of_loose {table : NodeTable} {node above left : Nat} (inside : above < maxNodes)
    (loose : ¬ Grounded (linkOf table) above) : spins table node left above = true := by
  induction left generalizing above with
  | zero => rfl
  | succ left inductionHypothesis =>
    obtain ⟨next, link, further⟩ := loose_link loose
    obtain ⟨used, parent, within⟩ := linkOf_some link
    rw [spins, if_neg (by omega)]
    split
    · rfl
    · rw [Int.toNat_natCast, used, if_neg (by simp), parent]
      exact inductionHypothesis within further

/-- A walk that ends and does not meet the node does not spin, if it has a round for everything
above and one more. -/
theorem spins_eq_false {table : NodeTable} {node above left : Nat} {set : Finset Nat}
    (grounded : Grounded (linkOf table) above) (apart : ¬ Reach (linkOf table) above node)
    (within : ∀ upper, Reach (linkOf table) above upper → upper ∈ set)
    (enough : set.card < left) : spins table node left above = false := by
  induction left generalizing above set with
  | zero => omega
  | succ left inductionHypothesis =>
    have filled : 0 < set.card := Finset.card_pos.mpr ⟨above, within above .refl⟩
    rw [spins]
    split
    · rfl
    split
    · rename_i same
      exact absurd .refl (Int.natCast_inj.mp same ▸ apart)
    rw [Int.toNat_natCast]
    split
    · exact decide_eq_false (by omega)
    · rename_i used
      rw [Bool.not_eq_false] at used
      cases link : linkOf table above with
      | none =>
        obtain ⟨rest, rfl⟩ : ∃ rest, left = rest + 1 := ⟨left - 1, by omega⟩
        rw [spins, if_pos (linkOf_none used link)]
      | some next =>
        rw [(linkOf_some link).2.1]
        refine @inductionHypothesis next (set.erase above) (grounded.step link)
          (fun way => apart (.head link way)) (fun upper way => ?_) ?_
        · refine Finset.mem_erase.mpr ⟨?_, within upper (.head link way)⟩
          rintro rfl
          exact grounded.irrefl (Relation.TransGen.head' link way)
        · rw [Finset.card_erase_of_mem (within above .refl)]
          omega

/-! ### The second repair of a node -/

/-- A node whose walk ends is left alone. -/
theorem breakCycle_of_grounded {table : NodeTable} {node : Nat} (inside : node < maxNodes)
    (grounded : Grounded (linkOf table) node) :
    breakCycle table node = table := by
  unfold breakCycle
  split
  · rfl
  rename_i used
  rw [Bool.not_eq_false] at used
  rw [if_neg]
  rw [Bool.not_eq_true]
  cases link : linkOf table node with
  | none =>
    rw [spins, if_pos (linkOf_none used link)]
  | some next =>
    rw [(linkOf_some link).2.1]
    refine @spins_eq_false table node next (maxNodes + 1) ((Finset.range maxNodes).erase node)
      (grounded.step link) (fun way => grounded.irrefl (Relation.TransGen.head' link way))
      (fun upper way => ?_) ?_
    · refine Finset.mem_erase.mpr ⟨?_, Finset.mem_range.mpr (reach_inside inside (.head link way))⟩
      rintro rfl
      exact grounded.irrefl (Relation.TransGen.head' link way)
    · rw [Finset.card_erase_of_mem (Finset.mem_range.mpr inside), Finset.card_range]
      omega

/-- A node whose walk does not end becomes a child of the root. -/
theorem breakCycle_of_loose {table : NodeTable} {node : Nat}
    (loose : ¬ Grounded (linkOf table) node) :
    breakCycle table node = update table node (underRoot (table node)) := by
  obtain ⟨next, link, further⟩ := loose_link loose
  obtain ⟨used, parent, within⟩ := linkOf_some link
  unfold breakCycle
  rw [used, if_neg (by simp), parent, spins_of_loose within further, if_pos rfl]

theorem linkOf_breakCycle {table : NodeTable} {node : Nat}
    (loose : ¬ Grounded (linkOf table) node) :
    linkOf (breakCycle table node) = update (linkOf table) node (some 0) := by
  obtain ⟨next, link, _⟩ := loose_link loose
  rw [breakCycle_of_loose loose]
  funext other
  rcases eq_or_ne other node with rfl | different
  · rw [update_self]
    refine linkOf_eq ?_ ?_ (by decide)
    · rw [update_self, nodeInUse_underRoot]
      exact (linkOf_some link).1
    · rw [update_self, nodeParent_underRoot]
      rfl
  · rw [update_of_ne different]
    unfold linkOf
    rw [update_of_ne different]

/-- The repair changes parent links alone. -/
theorem nodeInUse_breakCycle (table : NodeTable) (node index : Nat) :
    nodeInUse (breakCycle table node index) = nodeInUse (table index) := by
  unfold breakCycle
  split
  · rfl
  split
  · rcases eq_or_ne index node with rfl | different
    · rw [update_self, nodeInUse_underRoot]
    · rw [update_of_ne different]
  · rfl

theorem breakCycle_name (table : NodeTable) (node index : Nat) {offset : Nat}
    (inside : offset < maxFilename) : breakCycle table node index offset = table index offset := by
  unfold breakCycle
  split
  · rfl
  split
  · rcases eq_or_ne index node with rfl | different
    · rw [update_self, underRoot_name _ inside]
    · rw [update_of_ne different]
  · rfl

/-- A link is kept, or it leads to the root. -/
theorem nodeParent_breakCycle (table : NodeTable) (node index : Nat) :
    nodeParent (breakCycle table node index) = nodeParent (table index) ∨
      nodeParent (breakCycle table node index) = 0 := by
  unfold breakCycle
  split
  · exact .inl rfl
  split
  · rcases eq_or_ne index node with rfl | different
    · rw [update_self, nodeParent_underRoot]
      exact .inr rfl
    · rw [update_of_ne different]
      exact .inl rfl
  · exact .inl rfl

theorem Ranged.breakCycle {table : NodeTable} (ranged : Ranged table) (node : Nat) :
    Ranged (breakCycle table node) := by
  intro index inside used
  rw [nodeInUse_breakCycle] at used
  rcases nodeParent_breakCycle table node index with same | root
  · rw [same]
    exact ranged index inside used
  · rw [root]
    exact ⟨by decide, by decide⟩

/-! ### The whole second repair -/

/-- If the links of the root end, the repair of some nodes keeps every end and gives each of the
nodes one. -/
theorem foldl_breakCycle {nodes : List Nat} {table : NodeTable}
    (root : Grounded (linkOf table) 0) (inside : ∀ node ∈ nodes, node < maxNodes) :
    (∀ node, Grounded (linkOf table) node →
      Grounded (linkOf (nodes.foldl breakCycle table)) node) ∧
    ∀ node ∈ nodes, Grounded (linkOf (nodes.foldl breakCycle table)) node := by
  induction nodes generalizing table with
  | nil => exact ⟨fun node grounded => grounded, fun node member => absurd member (by simp)⟩
  | cons head rest inductionHypothesis =>
    have step : (∀ node, Grounded (linkOf table) node →
        Grounded (linkOf (breakCycle table head)) node) ∧
        Grounded (linkOf (breakCycle table head)) head := by
      by_cases grounded : Grounded (linkOf table) head
      · rw [breakCycle_of_grounded (inside head List.mem_cons_self) grounded]
        exact ⟨fun node other => other, grounded⟩
      · rw [linkOf_breakCycle grounded]
        exact ⟨fun node other => other.redirect _ grounded, root.redirected grounded⟩
    obtain ⟨kept, given⟩ := inductionHypothesis (step.1 0 root)
      fun node member => inside node (List.mem_cons_of_mem _ member)
    rw [List.foldl_cons]
    refine ⟨fun node grounded => kept node (step.1 node grounded), fun node member => ?_⟩
    rcases List.mem_cons.mp member with rfl | member
    · exact kept node step.2
    · exact given node member

/-- A root that is its own parent stays so. -/
theorem foldl_breakCycle_root {nodes : List Nat} {table : NodeTable}
    (own : nodeParent (table 0) = 0) :
    nodeParent (nodes.foldl breakCycle table 0) = 0 := by
  induction nodes generalizing table with
  | nil => exact own
  | cons head rest inductionHypothesis =>
    rw [List.foldl_cons]
    refine inductionHypothesis ?_
    rcases nodeParent_breakCycle table head 0 with same | root
    · rw [same, own]
    · exact root

/-- If the links of the root do not end, the root becomes its own parent. -/
theorem breakCycles_root {table : NodeTable} (loose : ¬ Grounded (linkOf table) 0) :
    nodeParent (breakCycles table 0) = 0 := by
  unfold breakCycles
  rw [show maxNodes = 2047 + 1 from rfl, List.range_succ_eq_map, List.foldl_cons]
  refine foldl_breakCycle_root ?_
  rw [breakCycle_of_loose loose, update_self, nodeParent_underRoot]

theorem nodeInUse_breakCycles (table : NodeTable) (index : Nat) :
    nodeInUse (breakCycles table index) = nodeInUse (table index) := by
  unfold breakCycles
  induction List.range maxNodes generalizing table with
  | nil => rfl
  | cons head rest inductionHypothesis =>
    rw [List.foldl_cons, inductionHypothesis, nodeInUse_breakCycle]

theorem breakCycles_name (table : NodeTable) (index : Nat) {offset : Nat}
    (inside : offset < maxFilename) : breakCycles table index offset = table index offset := by
  unfold breakCycles
  induction List.range maxNodes generalizing table with
  | nil => rfl
  | cons head rest inductionHypothesis =>
    rw [List.foldl_cons, inductionHypothesis, breakCycle_name _ _ _ inside]

theorem Ranged.breakCycles {table : NodeTable} (ranged : Ranged table) :
    Ranged (breakCycles table) := by
  unfold Vfs.breakCycles
  induction List.range maxNodes generalizing table with
  | nil => exact ranged
  | cons head rest inductionHypothesis =>
    rw [List.foldl_cons]
    exact inductionHypothesis (ranged.breakCycle head)

/-! ### The first repair -/

theorem nodeInUse_sanitize (table : NodeTable) (index : Nat) :
    nodeInUse (sanitize table index) = nodeInUse (table index) := by
  unfold sanitize
  split
  · exact nodeInUse_sanitizeNode _
  · rfl

theorem sanitize_ranged (table : NodeTable) : Ranged (sanitize table) := by
  intro index inside used
  rw [nodeInUse_sanitize] at used
  unfold sanitize
  rw [if_pos inside]
  by_cases out : nodeParent (table index) < -1 ∨ maxNodes ≤ nodeParent (table index)
  · rw [nodeParent_sanitizeNode_out used out]
    exact ⟨by decide, by decide⟩
  · rw [nodeParent_sanitizeNode (by omega) (by omega)]
    omega

/-! ### Ends of walks -/

/-- The parent links from an index lead to -1 or to a free node of the table within so many
steps, and through the table. -/
def reachesEnd (table : NodeTable) : Nat → Int → Prop
  | 0, index =>
    index = -1 ∨ 0 ≤ index ∧ index < maxNodes ∧ nodeInUse (table index.toNat) = false
  | steps + 1, index =>
    index = -1 ∨ 0 ≤ index ∧ index < maxNodes ∧
      (nodeInUse (table index.toNat) = false ∨
        reachesEnd table steps (nodeParent (table index.toNat)))

/-- A node in use that is its own parent never reaches an end. -/
theorem not_reachesEnd {table : NodeTable} {steps : Nat} (used : nodeInUse (table 0) = true)
    (own : nodeParent (table 0) = 0) : ¬ reachesEnd table steps 0 := by
  induction steps with
  | zero =>
    unfold reachesEnd
    rw [Int.toNat_zero, used]
    simp
  | succ steps inductionHypothesis =>
    unfold reachesEnd
    rw [Int.toNat_zero, used, own]
    rintro (minus | ⟨_, _, free | ends⟩)
    · exact absurd minus (by decide)
    · exact absurd free (by simp)
    · exact inductionHypothesis ends

/-- An end that the links of the image reach is reached by the repaired links. -/
theorem reachesEnd.grounded {table : NodeTable} {steps node : Nat}
    (ends : reachesEnd table steps node) : Grounded (linkOf (sanitize table)) node := by
  induction steps generalizing node with
  | zero =>
    unfold reachesEnd at ends
    rw [Int.toNat_natCast] at ends
    refine .of_top (linkOf_free ?_)
    rw [nodeInUse_sanitize]
    rcases ends with minus | ⟨_, _, free⟩
    · omega
    · exact free
  | succ steps inductionHypothesis =>
    unfold reachesEnd at ends
    rw [Int.toNat_natCast] at ends
    rcases ends with minus | ⟨_, inside, free | ends⟩
    · omega
    · exact .of_top (linkOf_free (by rw [nodeInUse_sanitize, free]))
    cases link : linkOf (sanitize table) node with
    | none => exact .of_top link
    | some next =>
      obtain ⟨used, parent, within⟩ := linkOf_some link
      rw [nodeInUse_sanitize] at used
      have ranged : -1 ≤ nodeParent (table node) ∧ nodeParent (table node) < maxNodes := by
        cases steps <;> unfold reachesEnd at ends <;> omega
      unfold sanitize at parent
      rw [if_pos (by omega), nodeParent_sanitizeNode ranged.1 ranged.2] at parent
      rw [parent] at ends
      exact .of_step link (inductionHypothesis ends)

/-- Links that end reach their end within as many steps as there are elements above. The links of
a second table serve as well, where the two agree above the start. -/
theorem reachesEnd_of_grounded {table other : NodeTable} {steps node : Nat} {set : Finset Nat}
    (grounded : Grounded (linkOf other) node) (inside : node < maxNodes)
    (ranged : ∀ upper, Reach (linkOf other) node upper →
      nodeInUse (table upper) = nodeInUse (other upper) ∧
      (nodeInUse (other upper) = true → nodeParent (table upper) = nodeParent (other upper) ∧
        -1 ≤ nodeParent (other upper) ∧ nodeParent (other upper) < maxNodes))
    (within : ∀ upper, Reach (linkOf other) node upper → upper ∈ set)
    (enough : set.card ≤ steps) : reachesEnd table steps node := by
  induction steps generalizing node set with
  | zero =>
    have empty := Finset.card_eq_zero.mp (Nat.le_zero.mp enough)
    exact absurd (within node .refl) (by simp [empty])
  | succ steps inductionHypothesis =>
    obtain ⟨same, links⟩ := ranged node .refl
    unfold reachesEnd
    rw [Int.toNat_natCast, same]
    refine .inr ⟨by omega, by omega, ?_⟩
    cases used : nodeInUse (other node) with
    | false => exact .inl rfl
    | true =>
      refine .inr ?_
      obtain ⟨parent, low, high⟩ := links used
      rw [parent]
      by_cases top : nodeParent (other node) = -1
      · rw [top]
        cases steps <;> exact .inl rfl
      · obtain ⟨next, is⟩ := Int.eq_ofNat_of_zero_le (show 0 ≤ nodeParent (other node) by omega)
        have link : linkOf other node = some next := linkOf_eq used is (by omega)
        rw [is]
        refine @inductionHypothesis next (set.erase node) (grounded.step link) (by omega)
          (fun upper way => ranged upper (.head link way)) (fun upper way => ?_) ?_
        · refine Finset.mem_erase.mpr ⟨?_, within upper (.head link way)⟩
          rintro rfl
          exact grounded.irrefl (Relation.TransGen.head' link way)
        · rw [Finset.card_erase_of_mem (within node .refl)]
          omega

/-- The links of the root end after the first repair exactly if they reach an end before it. -/
theorem grounded_root_iff (table : NodeTable) :
    Grounded (linkOf (sanitize table)) 0 ↔ reachesEnd table maxNodes 0 := by
  refine ⟨fun grounded => ?_, fun ends => ?_⟩
  · refine @reachesEnd_of_grounded table (sanitize table) maxNodes 0 (Finset.range maxNodes)
      grounded (by decide) (fun upper way => ?_)
      (fun upper way => Finset.mem_range.mpr (reach_inside (by decide) way))
      (Nat.le_of_eq (Finset.card_range _))
    have inside := reach_inside (by decide) way
    rw [nodeInUse_sanitize]
    refine ⟨rfl, fun used => ?_⟩
    by_cases out : nodeParent (table upper) < -1 ∨ maxNodes ≤ nodeParent (table upper)
    · -- a link that was set to the root would close a cycle through the root
      have link : linkOf (sanitize table) upper = some 0 := by
        refine linkOf_eq (by rw [nodeInUse_sanitize, used]) ?_ (by decide)
        unfold sanitize
        rw [if_pos inside, nodeParent_sanitizeNode_out used out]
        rfl
      exact absurd (Relation.TransGen.tail' way link) grounded.irrefl
    · have kept := nodeParent_sanitizeNode (show -1 ≤ nodeParent (table upper) by omega) (by omega)
      unfold sanitize
      rw [if_pos inside, kept]
      exact ⟨rfl, by omega, by omega⟩
  · exact @reachesEnd.grounded table maxNodes 0 ends

/-! ### Walks on a loaded table -/

/-- A loop ends: its rounds lead to one that is not followed by another. -/
abbrev Ends {σ : Type} (round : σ → Option σ) (start : σ) : Prop := Grounded round start

/-- The walk of `vfs_get_abs_path` ends where the links end. -/
theorem absPath_ends {table : NodeTable} {node : Nat} (ranged : Ranged table)
    (inside : node < maxNodes) (grounded : Grounded (linkOf table) node) (names : Nat) :
    Ends (absPathRound table) ((node : Int), names) := by
  obtain ⟨root, top, way⟩ := grounded
  have bottom : ∀ {index : Int} {names : Nat}, index < 0 →
      Ends (absPathRound table) (index, names) := by
    intro index names low
    refine .of_top ?_
    unfold absPathRound
    rw [if_pos (.inl low)]
  induction way using Relation.ReflTransGen.head_induction_on generalizing names with
  | refl =>
    cases round : absPathRound table ((root : Int), names) with
    | none => exact .of_top round
    | some next =>
      refine .of_step round ?_
      unfold absPathRound at round
      split at round
      · exact absurd round (by simp)
      · rename_i goesOn
        rw [Int.toNat_natCast] at goesOn round
        obtain rfl := Option.some.inj round
        have used : nodeInUse (table root) = true := by
          rw [not_or, not_or, Bool.not_eq_false] at goesOn
          exact goesOn.2.1
        have high := (ranged root inside used).2
        refine bottom ?_
        rcases linkOf_none used top with low | out
        · exact low
        · omega
  | @head lower upper link _ inductionHypothesis =>
    cases round : absPathRound table ((lower : Int), names) with
    | none => exact .of_top round
    | some next =>
      refine .of_step round ?_
      unfold absPathRound at round
      split at round
      · exact absurd round (by simp)
      · rw [Int.toNat_natCast] at round
        obtain rfl := Option.some.inj round
        rw [(linkOf_some link).2.1]
        exact inductionHypothesis (linkOf_some link).2.2 _

/-- The other walks count their rounds, and end on every table. -/
theorem counted_ends {round : Int × Nat → Option (Int × Nat)} {cap : Nat}
    (counts : ∀ walk next, round walk = some next → walk.2 < cap ∧ next.2 = walk.2 + 1)
    (start : Int × Nat) : Ends round start := by
  refine @grounded_of_falling _ _ (fun walk => cap - walk.2) (fun walk next link => ?_) start
  obtain ⟨low, rises⟩ := counts walk next link
  show cap - next.2 < cap - walk.2
  omega

theorem delete_ends (table : NodeTable) (node : Nat) (start : Int × Nat) :
    Ends (deleteRound table node) start := by
  refine @counted_ends _ maxNodes (fun walk next is => ?_) start
  unfold deleteRound at is
  split at is
  · exact absurd is (by simp)
  · obtain rfl := Option.some.inj is
    exact ⟨by omega, rfl⟩

theorem rename_ends (table : NodeTable) (node : Nat) (start : Int × Nat) :
    Ends (renameRound table node) start := by
  refine @counted_ends _ (maxNodes + 1) (fun walk next is => ?_) start
  unfold renameRound at is
  split at is
  · exact absurd is (by simp)
  · obtain rfl := Option.some.inj is
    exact ⟨by omega, rfl⟩

theorem mount_ends (table : NodeTable) (mounted : Int → Bool) (start : Int × Nat) :
    Ends (mountRound table mounted) start := by
  refine @counted_ends _ (maxNodes + 1) (fun walk next is => ?_) start
  unfold mountRound at is
  dsimp only at is
  split at is
  · exact absurd is (by simp)
  split at is
  · exact absurd is (by simp)
  · obtain rfl := Option.some.inj is
    exact ⟨by omega, rfl⟩

/-! ### What a load leaves behind -/

/-- The nodes as the image has them. -/
def imageNodes (image : DiskImage) : NodeTable := fun node =>
  (image (vfsNodeStart + node)).getD fun _ => 0

theorem readNodes_true {image : DiskImage} {table read : NodeTable} {nodes : List Nat}
    (is : readNodes image table nodes = (true, read)) (node : Nat) :
    read node = if node ∈ nodes then imageNodes image node else table node := by
  induction nodes generalizing table with
  | nil =>
    obtain rfl : table = read := congrArg Prod.snd is
    rfl
  | cons head rest inductionHypothesis =>
    rw [readNodes] at is
    split at is
    · exact absurd (congrArg Prod.fst is) (by simp)
    · rename_i bytes served
      rw [inductionHypothesis is]
      by_cases later : node ∈ rest
      · rw [if_pos later, if_pos (List.mem_cons_of_mem _ later)]
      · rw [if_neg later]
        rcases eq_or_ne node head with rfl | different
        · rw [update_self, if_pos List.mem_cons_self]
          unfold imageNodes
          rw [served]
          rfl
        · rw [update_of_ne different, if_neg]
          rintro (_ | ⟨_, member⟩)
          · exact different rfl
          · exact later member

theorem readNodes_served {image : DiskImage} {nodes : List Nat}
    (served : ∀ sector, (image sector).isSome = true) (table : NodeTable) :
    (readNodes image table nodes).1 = true := by
  induction nodes generalizing table with
  | nil => rfl
  | cons head rest inductionHypothesis =>
    rw [readNodes]
    split
    · rename_i refused
      have some := served (vfsNodeStart + head)
      rw [refused] at some
      exact absurd some (by simp)
    · exact inductionHypothesis _

/-- A load that succeeds leaves the nodes of the image behind, repaired. -/
theorem vfsLoad_spec {image : DiskImage} {table : NodeTable} {currentDir : Nat}
    (loaded : (vfsLoad image table currentDir).result = true) :
    ∃ magic read, (∀ node < maxNodes, read node = imageNodes image node) ∧
      vfsLoad image table currentDir = ⟨nodeInUse (breakCycles (sanitize read) 0),
        breakCycles (sanitize read), loadedDir (breakCycles (sanitize read)) magic⟩ := by
  unfold vfsLoad at loaded ⊢
  split at loaded
  · exact absurd loaded (by simp)
  rename_i magic served
  split at loaded
  · exact absurd loaded (by simp)
  split at loaded
  · exact absurd loaded (by simp)
  rename_i marked version
  rw [if_neg marked, if_neg version]
  split at loaded
  · exact absurd loaded (by simp)
  rename_i read is
  refine ⟨magic, read, fun node inside => ?_, ?_⟩
  · rw [readNodes_true is, if_pos (List.mem_range.mpr (show node < vfsNodeSectors from inside))]
  · rfl

theorem reachesEnd_congr {table other : NodeTable} {steps : Nat} {index : Int}
    (agree : ∀ node < maxNodes, table node = other node) (ends : reachesEnd table steps index) :
    reachesEnd other steps index := by
  induction steps generalizing index with
  | zero =>
    unfold reachesEnd at ends ⊢
    rcases ends with minus | ⟨low, high, free⟩
    · exact .inl minus
    · rw [agree index.toNat (by omega)] at free
      exact .inr ⟨low, high, free⟩
  | succ steps inductionHypothesis =>
    unfold reachesEnd at ends ⊢
    rcases ends with minus | ⟨low, high, ends⟩
    · exact .inl minus
    · rw [agree index.toNat (by omega)] at ends
      exact .inr ⟨low, high, ends.imp_right inductionHypothesis⟩

/-- A table is safe to walk: every name ends in its 32 bytes, the parent links of the nodes in
use are -1 or lead to an index, they reach -1 or a free node within as many steps as there are
nodes, the current directory is in use, and the walks along them end. -/
structure SafeToWalk (table : NodeTable) (currentDir : Nat) : Prop where
  named : ∀ node < maxNodes, ∃ offset < maxFilename, table node offset = 0
  ranged : Ranged table
  ends : ∀ node < maxNodes, nodeInUse (table node) = true → reachesEnd table maxNodes node
  current : currentDir < maxNodes ∧ nodeInUse (table currentDir) = true
  absPath : ∀ node < maxNodes, nodeInUse (table node) = true →
    Ends (absPathRound table) ((node : Int), 0)
  deletes : ∀ (node : Nat) (start : Int), Ends (deleteRound table node) (start, 0)
  renames : ∀ (node : Nat) (start : Int), Ends (renameRound table node) (start, 0)
  mounts : ∀ (mounted : Int → Bool) (start : Int), Ends (mountRound table mounted) (start, 0)

/-- Where the links of the root end after the first repair, the second one makes the table safe. -/
theorem breakCycles_safe {read : NodeTable} {magic : Bytes}
    (used : nodeInUse (breakCycles (sanitize read) 0) = true)
    (root : Grounded (linkOf (sanitize read)) 0) :
    SafeToWalk (breakCycles (sanitize read)) (loadedDir (breakCycles (sanitize read)) magic) := by
  have ranged := (sanitize_ranged read).breakCycles
  have grounded : ∀ node < maxNodes, Grounded (linkOf (breakCycles (sanitize read))) node :=
    fun node inside => (foldl_breakCycle root fun other member =>
      List.mem_range.mp member).2 node (List.mem_range.mpr inside)
  refine ⟨fun node inside => ⟨maxFilename - 1, by decide, ?_⟩, ranged, fun node inside _ => ?_, ?_,
    fun node inside _ => absPath_ends ranged inside (grounded node inside) 0,
    fun node start => delete_ends _ node _, fun node start => rename_ends _ node _,
    fun mounted start => mount_ends _ mounted _⟩
  · rw [breakCycles_name _ _ (by decide)]
    unfold sanitize
    rw [if_pos inside, sanitizeNode_name]
  · refine @reachesEnd_of_grounded _ _ maxNodes node (Finset.range maxNodes) (grounded node inside)
      inside (fun upper way => ⟨rfl, fun inUse => ?_⟩)
      (fun upper way => Finset.mem_range.mpr (reach_inside inside way))
      (Nat.le_of_eq (Finset.card_range _))
    obtain ⟨low, high⟩ := ranged upper (reach_inside inside way) inUse
    exact ⟨rfl, low, high⟩
  · unfold loadedDir
    dsimp only
    split
    · exact ⟨by decide, used⟩
    · rename_i taken
      rw [not_or, Bool.not_eq_false] at taken
      exact ⟨by omega, taken.2⟩

/-- Where they do not, it does not. -/
theorem breakCycles_unsafe {read : NodeTable} {currentDir : Nat}
    (used : nodeInUse (breakCycles (sanitize read) 0) = true)
    (loose : ¬ Grounded (linkOf (sanitize read)) 0) :
    ¬ SafeToWalk (breakCycles (sanitize read)) currentDir := fun safe =>
  not_reachesEnd used (breakCycles_root loose) (safe.ends 0 (by decide) used)

/-- A load leaves a table behind that is safe to walk exactly if the parent links of the image
reach -1 or a free node from the root, through the table. -/
theorem vfsLoad_safe_iff (image : DiskImage) (table : NodeTable) (currentDir : Nat)
    (loaded : (vfsLoad image table currentDir).result = true) :
    SafeToWalk (vfsLoad image table currentDir).table
        (vfsLoad image table currentDir).currentDir ↔
      reachesEnd (imageNodes image) maxNodes 0 := by
  obtain ⟨magic, read, agree, is⟩ := vfsLoad_spec loaded
  rw [is] at loaded ⊢
  dsimp only at loaded ⊢
  have same : reachesEnd read maxNodes 0 ↔ reachesEnd (imageNodes image) maxNodes 0 :=
    ⟨reachesEnd_congr agree, reachesEnd_congr fun node inside => (agree node inside).symm⟩
  rw [← same, ← grounded_root_iff]
  refine ⟨fun safe => ?_, breakCycles_safe loaded⟩
  by_contra loose
  exact breakCycles_unsafe loaded loose safe

/-- A disk with one node, the root, whose parent link is the given word. -/
def rootDisk (parent : Nat) : DiskImage := fun sector => some <|
  if sector = vfsMagicSector then fun offset =>
    if offset = 8 then 5 else magicBytes.getD offset 0
  else if sector = vfsNodeStart then
    write32 (write32 (fun _ => 0) inUseOffset 1) parentOffset parent
  else fun _ => 0

theorem rootDisk_loads (parent : Nat) :
    (vfsLoad (rootDisk parent) (fun _ _ => 0) 0).result = true := by
  have served : (readNodes (rootDisk parent) (fun _ _ => 0) (List.range vfsNodeSectors)).1 = true :=
    readNodes_served (fun sector => rfl) _
  unfold vfsLoad
  rw [show rootDisk parent vfsMagicSector = some fun offset =>
    if offset = 8 then 5 else magicBytes.getD offset 0 from rfl]
  dsimp only
  rw [if_neg (by decide), if_neg (by decide)]
  split
  · rename_i partly is
    rw [is] at served
    exact absurd served (by simp)
  · rename_i read is
    dsimp only
    rw [nodeInUse_breakCycles, nodeInUse_sanitize, readNodes_true is,
      if_pos (List.mem_range.mpr (by decide))]
    show nodeInUse (write32 (write32 (fun _ => 0) inUseOffset 1) parentOffset parent) = true
    unfold nodeInUse
    rw [read32_write32_other _ _ _ _ (by decide), read32_write32_of_lt _ _ _ (by decide)]
    rfl

/-- A root without a parent is a safe start. -/
theorem vfsLoad_safe_root :
    SafeToWalk (vfsLoad (rootDisk 0xFFFFFFFF) (fun _ _ => 0) 0).table
      (vfsLoad (rootDisk 0xFFFFFFFF) (fun _ _ => 0) 0).currentDir :=
  (vfsLoad_safe_iff _ _ _ (rootDisk_loads _)).mpr (.inr ⟨by decide, by decide, .inr (.inl rfl)⟩)

/-- A root that names itself as its parent is loaded, and the table is not safe. -/
theorem vfsLoad_safe_own : ¬ ∀ (image : DiskImage) (table : NodeTable) (currentDir : Nat),
    (vfsLoad image table currentDir).result = true →
      SafeToWalk (vfsLoad image table currentDir).table
        (vfsLoad image table currentDir).currentDir := by
  intro safe
  have always := safe (rootDisk 0) (fun _ _ => 0) 0 (rootDisk_loads 0)
  obtain ⟨magic, read, agree, is⟩ := vfsLoad_spec (rootDisk_loads 0)
  have used := rootDisk_loads 0
  rw [is] at always used
  dsimp only at always used
  refine breakCycles_unsafe used (fun grounded => ?_) always
  have link : linkOf (sanitize read) 0 = some 0 := by
    refine linkOf_eq ?_ ?_ (by decide)
    · rw [nodeInUse_sanitize, ← nodeInUse_sanitize, ← nodeInUse_breakCycles]
      exact used
    · unfold sanitize
      rw [if_pos (by decide), agree 0 (by decide), nodeParent_sanitizeNode (by decide) (by decide)]
      decide
  exact grounded.irrefl (.single link)

end MectovOS.Vfs
