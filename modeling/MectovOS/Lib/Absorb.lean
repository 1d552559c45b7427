/-
This file is a library of stream functions that take whole blocks and keep the
rest for later. A text handed over in pieces of any lengths leaves the same state
and the same rest as the text at once.
-/

import Mathlib

namespace Absorb

variable {Symbol State : Type*} (size : Nat) (step : State → List Symbol → State)

/-- Take some blocks from the front of a text. -/
def blocks : Nat → State → List Symbol → State
  | 0, state, _ => state
  | count + 1, state, text => blocks count (step state (text.take size)) (text.drop size)

/-- Take the whole blocks of a text. -/
def whole (state : State) (text : List Symbol) : State :=
  blocks size step (text.length / size) state text

/-- What is behind the whole blocks. -/
def rest (text : List Symbol) : List Symbol := text.drop (text.length / size * size)

/-- Take a piece: fill the block that is begun, take the whole blocks behind it and keep the rest. -/
def update (sponge : State × List Symbol) (piece : List Symbol) : State × List Symbol :=
  if sponge.2 = [] then (whole size step sponge.1 piece, rest size piece)
  else
    let need := size - sponge.2.length
    let filled := sponge.2 ++ piece.take need
    if filled.length = size then
      (whole size step (step sponge.1 filled) (piece.drop need), rest size (piece.drop need))
    else (sponge.1, filled)

variable {size} {step}

theorem rest_length (text : List Symbol) :
    (rest size text).length = text.length % size := by
  unfold rest
  rw [List.length_drop, Nat.mod_eq_sub, Nat.mul_comm]

theorem rest_short {text : List Symbol} (short : text.length < size) : rest size text = text := by
  unfold rest
  rw [Nat.div_eq_of_lt short, Nat.zero_mul, List.drop_zero]

theorem whole_short {state : State} {text : List Symbol} (short : text.length < size) :
    whole size step state text = state := by
  unfold whole
  rw [Nat.div_eq_of_lt short]
  rfl

/-- One block in front. -/
theorem whole_step (positive : 0 < size) (state : State) (text : List Symbol)
    (enough : size ≤ text.length) :
    whole size step state text = whole size step (step state (text.take size)) (text.drop size) := by
  unfold whole
  rw [List.length_drop, Nat.div_eq_sub_div positive enough]
  rfl

theorem rest_step (positive : 0 < size) (text : List Symbol) (enough : size ≤ text.length) :
    rest size text = rest size (text.drop size) := by
  unfold rest
  rw [List.drop_drop, List.length_drop, Nat.div_eq_sub_div positive enough, Nat.add_one_mul,
    Nat.add_comm]

theorem whole_block (positive : 0 < size) (state : State) {block : List Symbol}
    (exactly : block.length = size) (text : List Symbol) :
    whole size step state (block ++ text) = whole size step (step state block) text := by
  rw [whole_step positive state _ (by rw [List.length_append]; omega), List.take_left' exactly,
    List.drop_left' exactly]

theorem rest_block (positive : 0 < size) {block : List Symbol} (exactly : block.length = size)
    (text : List Symbol) : rest size (block ++ text) = rest size text := by
  rw [rest_step positive _ (by rw [List.length_append]; omega), List.drop_left' exactly]

/-- A text takes another behind it as its rest does, with its whole blocks taken. -/
theorem append_rest (positive : 0 < size) (state : State) (text behind : List Symbol) :
    whole size step state (text ++ behind) =
        whole size step (whole size step state text) (rest size text ++ behind) ∧
      rest size (text ++ behind) = rest size (rest size text ++ behind) := by
  induction counted : text.length / size generalizing state text with
  | zero =>
    have short : text.length < size := (Nat.div_eq_zero_iff_lt positive).mp counted
    rw [rest_short short, whole_short short]
    exact ⟨rfl, rfl⟩
  | succ count induction =>
    have enough : size ≤ text.length := by
      by_contra short
      rw [Nat.div_eq_of_lt (by omega)] at counted
      exact absurd counted (by omega)
    have fewer : (text.drop size).length / size = count := by
      rw [Nat.div_eq_sub_div positive enough] at counted
      rw [List.length_drop]
      omega
    have front : (text.take size).length = size := by
      rw [List.length_take]
      omega
    have cut : text ++ behind = text.take size ++ (text.drop size ++ behind) := by
      rw [← List.append_assoc, List.take_append_drop]
    rw [cut, whole_block positive state front, rest_block positive front,
      whole_step positive state text enough, rest_step positive text enough]
    exact induction (step state (text.take size)) (text.drop size) fewer

/-- The rest of a text is shorter than a block. -/
theorem rest_lt (positive : 0 < size) (text : List Symbol) : (rest size text).length < size := by
  rw [rest_length]
  exact Nat.mod_lt _ positive

/-- A piece behind a text. -/
theorem update_behind (positive : 0 < size) (state : State) (text piece : List Symbol) :
    update size step (whole size step state text, rest size text) piece =
      (whole size step state (text ++ piece), rest size (text ++ piece)) := by
  obtain ⟨states, rests⟩ := @append_rest _ _ size step positive state text piece
  have short := rest_lt positive text
  rw [states, rests]
  unfold update
  dsimp only
  by_cases empty : rest size text = []
  · rw [if_pos empty, empty, List.nil_append]
  rw [if_neg empty]
  by_cases full : (rest size text ++ piece.take (size - (rest size text).length)).length = size
  · rw [if_pos full]
    have cut : rest size text ++ piece = rest size text ++
        piece.take (size - (rest size text).length) ++
          piece.drop (size - (rest size text).length) := by
      rw [List.append_assoc, List.take_append_drop]
    rw [cut, whole_block positive _ full, rest_block positive full]
  · rw [if_neg full]
    rw [List.length_append, List.length_take] at full
    have all : piece.length ≤ size - (rest size text).length := by omega
    have still : (rest size text ++ piece).length < size := by
      rw [List.length_append]
      omega
    rw [List.take_of_length_le all, whole_short still, rest_short still]

/-- A text in pieces. -/
theorem update_pieces (positive : 0 < size) (state : State) (pieces : List (List Symbol)) :
    pieces.foldl (update size step) (state, []) =
      (whole size step state pieces.flatten, rest size pieces.flatten) := by
  have start : (state, ([] : List Symbol)) = (whole size step state [], rest size []) := by
    rw [whole_short (by exact positive), rest_short (by exact positive)]
  suffices grown : ∀ text, pieces.foldl (update size step)
      (whole size step state text, rest size text) =
        (whole size step state (text ++ pieces.flatten), rest size (text ++ pieces.flatten)) by
    rw [start, grown, List.nil_append]
  induction pieces with
  | nil =>
    intro text
    rw [List.flatten_nil, List.append_nil]
    rfl
  | cons piece pieces induction =>
    intro text
    rw [List.foldl_cons, update_behind positive, induction, List.flatten_cons, List.append_assoc]

/-- The whole blocks one by one, each where it stands in the text. -/
theorem whole_foldl (state : State) (text : List Symbol) :
    whole size step state text = (List.range (text.length / size)).foldl
      (fun state index => step state ((text.drop (index * size)).take size)) state := by
  unfold whole
  generalize text.length / size = count
  induction count generalizing state text with
  | zero => rfl
  | succ count induction =>
    rw [List.range_succ_eq_map, List.foldl_cons, List.foldl_map, Nat.zero_mul, List.drop_zero]
    show blocks size step count _ _ = _
    rw [induction]
    refine List.foldl_ext _ _ _ fun state index _ => ?_
    rw [List.drop_drop, Nat.succ_mul, Nat.add_comm size]

end Absorb
