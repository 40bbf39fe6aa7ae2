import Mathlib.Data.List.Basic

/-!
# Lines of a file

A file is read line by line: a separator ends a line, and what stands behind the last separator
is a line of its own, unless nothing does. So appending to a file appends lines only if its last
line is ended; otherwise what is appended continues that line.

## Main definitions

* `Lines.lines` — the lines of a file
* `Lines.Ended` — the last line has its separator, if there is a line

## Main results

* `Lines.lines_append` — what is appended to a file whose last line is ended
-/

namespace Lines

variable {α : Type*} [DecidableEq α] {a : α} {x y l : List α}

/-- The lines that are read, without their separators. -/
def lines (a : α) : List α → List (List α)
  | [] => []
  | c :: rest =>
    if c = a then [] :: lines a rest
    else
      match lines a rest with
      | [] => [[c]]
      | l :: ls => (c :: l) :: ls

/-- Nothing stands behind the last separator. -/
def Ended (a : α) (x : List α) : Prop := x = [] ∨ ∃ y, x = y ++ [a]

omit [DecidableEq α] in
theorem ended_nil : Ended a [] := .inl rfl

omit [DecidableEq α] in
theorem ended_line (x l : List α) : Ended a (x ++ (l ++ [a])) :=
  .inr ⟨x ++ l, (List.append_assoc x l [a]).symm⟩

/-- A separator ends the first line. -/
theorem lines_line (plain : a ∉ l) (rest : List α) :
    lines a (l ++ a :: rest) = l :: lines a rest := by
  induction l with
  | nil => exact if_pos rfl
  | cons c l ih =>
    obtain ⟨other, others⟩ := List.ne_and_not_mem_of_not_mem_cons plain
    rw [List.cons_append, lines, if_neg other.symm, ih others]

/-- What no separator ends is one line. -/
theorem lines_rest (plain : a ∉ l) (some : l ≠ []) : lines a l = [l] := by
  induction l with
  | nil => exact absurd rfl some
  | cons c l ih =>
    obtain ⟨other, others⟩ := List.ne_and_not_mem_of_not_mem_cons plain
    rw [lines, if_neg other.symm]
    cases l with
    | nil => rfl
    | cons d l => rw [ih others (List.cons_ne_nil d l)]

/-- A file that is not empty has a line. -/
theorem lines_ne_nil (some : x ≠ []) : lines a x ≠ [] := by
  cases x with
  | nil => exact absurd rfl some
  | cons c x =>
    rw [lines]
    split
    · exact List.cons_ne_nil _ _
    · split <;> exact List.cons_ne_nil _ _

/-- What is appended to a file whose last line is ended begins a new line. -/
theorem lines_append (ended : Ended a x) (y : List α) :
    lines a (x ++ y) = lines a x ++ lines a y := by
  rcases ended with rfl | ⟨x, rfl⟩
  · rfl
  · induction x with
    | nil => simp [lines]
    | cons c x ih =>
      rw [List.cons_append, List.cons_append, lines, lines, ih]
      split
      · rfl
      · -- the rest is not empty, so it has a line that `c` comes before
        cases rest : lines a (x ++ [a]) with
        | nil => exact absurd rest (lines_ne_nil (by simp))
        | cons l ls => rfl

end Lines
