/-
This file is a small library of framed streams: frames of a head of fixed length
that tells the length of a body. It proves that a stream is cut into frames in one
way only, so that two readers that keep what they have not used yet agree.
-/

import Mathlib.Data.List.Basic

namespace Framing

variable {Symbol : Type}

/-- A head and a body. -/
structure Frame (Symbol : Type) where
  head : List Symbol
  body : List Symbol
  deriving DecidableEq

def Frame.flat (frame : Frame Symbol) : List Symbol := frame.head ++ frame.body

/-- The stream of frames. -/
def flatten (frames : List (Frame Symbol)) : List Symbol := (frames.map Frame.flat).flatten

theorem flatten_cons (frame : Frame Symbol) (frames : List (Frame Symbol)) :
    flatten (frame :: frames) = frame.head ++ (frame.body ++ flatten frames) := by
  unfold flatten Frame.flat
  rw [List.map_cons, List.flatten_cons, List.append_assoc]

theorem flatten_append (first second : List (Frame Symbol)) :
    flatten (first ++ second) = flatten first ++ flatten second := by
  unfold flatten
  rw [List.map_append, List.flatten_append]

variable (headLength : Nat) (bodyLength : List Symbol → Option Nat)

/-- A frame is whole: its head tells the length of its body. -/
structure Frame.Whole (frame : Frame Symbol) : Prop where
  head : frame.head.length = headLength
  body : bodyLength frame.head = some frame.body.length

/-- A frame is under way: its head is short, or refused, or its body is short. -/
def Frame.Open (frame : Frame Symbol) : Prop :=
  (frame.head.length < headLength ∧ frame.body = []) ∨
    (frame.head.length = headLength ∧
      match bodyLength frame.head with
      | none => frame.body = []
      | some length => frame.body.length < length)

variable {headLength : Nat} {bodyLength : List Symbol → Option Nat}

/-- A whole frame in front of a stream is no frame under way. -/
theorem Frame.Open.not_whole {frame whole : Frame Symbol} {rest : List Symbol}
    (under : frame.Open headLength bodyLength) (is : whole.Whole headLength bodyLength)
    (same : frame.flat = whole.flat ++ rest) : False := by
  unfold Frame.flat at same
  have lengths := congrArg List.length same
  rw [List.length_append, List.length_append, List.length_append, is.head] at lengths
  rcases under with ⟨short, empty⟩ | ⟨full, rest'⟩
  · rw [empty, List.length_nil] at lengths
    omega
  · rw [List.append_assoc] at same
    have head := List.append_inj_left same (full.trans is.head.symm)
    rw [head, is.body] at rest'
    have short : frame.body.length < whole.body.length := rest'
    omega

/-- A stream is cut in one way: into whole frames, and one that is under way. -/
theorem unique {first second : List (Frame Symbol)} {last other : Frame Symbol}
    (whole : ∀ frame ∈ first, frame.Whole headLength bodyLength)
    (whole' : ∀ frame ∈ second, frame.Whole headLength bodyLength)
    (under : last.Open headLength bodyLength) (under' : other.Open headLength bodyLength)
    (same : flatten first ++ last.flat = flatten second ++ other.flat) :
    first = second ∧ last.flat = other.flat := by
  induction first generalizing second with
  | nil =>
    cases second with
    | nil => exact ⟨rfl, same⟩
    | cons frame rest =>
      rw [flatten_cons, ← List.append_assoc frame.head, List.append_assoc] at same
      exact (under.not_whole (whole' frame List.mem_cons_self) same).elim
  | cons frame rest inductionHypothesis =>
    have is := whole frame List.mem_cons_self
    cases second with
    | nil =>
      rw [flatten_cons, ← List.append_assoc frame.head, List.append_assoc] at same
      exact (under'.not_whole is same.symm).elim
    | cons frame' rest' =>
      have is' := whole' frame' List.mem_cons_self
      rw [flatten_cons, flatten_cons, List.append_assoc, List.append_assoc, List.append_assoc,
        List.append_assoc] at same
      obtain ⟨head, bodies⟩ := List.append_inj same (is.head.trans is'.head.symm)
      have length : frame.body.length = frame'.body.length := by
        have told := is.body
        rw [head, is'.body] at told
        exact (Option.some.inj told).symm
      obtain ⟨body, later⟩ := List.append_inj bodies length
      obtain ⟨rests, lasts⟩ := inductionHypothesis
        (fun frame member => whole frame (List.mem_cons_of_mem _ member))
        (fun frame member => whole' frame (List.mem_cons_of_mem _ member)) later
      obtain ⟨head1, body1⟩ := frame
      obtain ⟨head2, body2⟩ := frame'
      obtain rfl : head1 = head2 := head
      obtain rfl : body1 = body2 := body
      exact ⟨by rw [rests], lasts⟩

/-- A frame under way is told by its symbols. -/
theorem Frame.Open.eq_of_flat {last other : Frame Symbol}
    (under : last.Open headLength bodyLength) (under' : other.Open headLength bodyLength)
    (same : last.flat = other.flat) : last = other := by
  obtain ⟨head, body⟩ := last
  obtain ⟨head', body'⟩ := other
  have lengths := congrArg List.length same
  unfold Frame.flat at same lengths
  rw [List.length_append, List.length_append] at lengths
  dsimp only at same lengths
  rcases under with ⟨short, empty⟩ | ⟨full, -⟩
  · rcases under' with ⟨short', empty'⟩ | ⟨full', -⟩
    · dsimp only at empty empty'
      rw [empty, empty', List.append_nil, List.append_nil] at same
      rw [same, empty, empty']
    · dsimp only at short empty full'
      rw [empty, List.length_nil] at lengths
      omega
  · rcases under' with ⟨short', empty'⟩ | ⟨full', -⟩
    · dsimp only at short' empty' full
      rw [empty', List.length_nil] at lengths
      omega
    · obtain ⟨rfl, rfl⟩ := List.append_inj same (full.trans full'.symm)
      rfl

end Framing
