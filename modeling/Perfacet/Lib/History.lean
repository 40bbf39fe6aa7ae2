import Mathlib.Data.List.Infix
import Mathlib.Data.List.Count

/-!
# Lawful histories

A log of events, newest first, is lawful if every event obeys a law about the events before
it. What must hold at the moment something happens ("no attempt after an answer") is such a
law, and a program that only ever appends lawful events has a lawful log.

A piece of code is described by what it adds to the log.

## Main definitions

* `Lawful` — every event obeys a law about the events before it
* `Grows` — events with a property were added

## Main results

* `Lawful.cons` — appending a lawful event
* `Lawful.of_append` — the law of an event in the middle of a log
* `Lawful.countP_le` — a law that numbers events of a kind bounds how many there are
-/

/-- Every event obeys the law about the events before it. -/
def Lawful {α : Type*} (law : α → List α → Prop) (log : List α) : Prop :=
  ∀ e old, (e :: old) <:+ log → law e old

namespace Lawful

variable {α : Type*} {law : α → List α → Prop} {log new old : List α} {e : α}

theorem nil : Lawful law [] := by
  intro e old suffix
  cases List.suffix_nil.mp suffix

theorem cons (h : Lawful law log) (obeys : law e log) : Lawful law (e :: log) := by
  intro e' old suffix
  rcases List.suffix_cons_iff.mp suffix with same | suffix
  · cases same
    exact obeys
  · exact h e' old suffix

theorem of_append (h : Lawful law (new ++ e :: old)) : law e old :=
  h e old (List.suffix_append new (e :: old))

theorem tail (h : Lawful law (e :: log)) : Lawful law log := fun e' old suffix =>
  h e' old (suffix.trans (List.suffix_cons e log))

/-- If no event of a kind comes after another of its kind, there is at most one. -/
theorem unique {p : α → Prop} {e' : α} (h : Lawful law log)
    (first : ∀ e old, law e old → p e → ∀ e' ∈ old, ¬ p e') (member : e ∈ log)
    (member' : e' ∈ log) (kind : p e) (kind' : p e') : e = e' := by
  induction log with
  | nil => cases member
  | cons last log ih =>
    have lone := first last log (h last log List.suffix_rfl)
    rcases List.mem_cons.mp member with rfl | older <;>
      rcases List.mem_cons.mp member' with rfl | older'
    · rfl
    · exact absurd kind' (lone kind e' older')
    · exact absurd kind (lone kind' e older)
    · exact ih h.tail older older'

/-- If every event of a kind comes after fewer than `n` others of its kind, there are at most
`n` of them. -/
theorem countP_le {p : α → Bool} {n : ℕ} (h : Lawful law log)
    (bound : ∀ e old, law e old → p e = true → old.countP p < n) : log.countP p ≤ n := by
  induction log with
  | nil => exact Nat.zero_le n
  | cons e log ih =>
    rw [List.countP_cons]
    split
    · next kind => exact bound e log (h e log List.suffix_rfl) kind
    · exact ih h.tail

end Lawful

/-- Only events with a property were added to a log. -/
def Grows {α : Type*} (p : α → Prop) (old new : List α) : Prop :=
  ∃ events, new = events ++ old ∧ ∀ e ∈ events, p e

namespace Grows

variable {α : Type*} {p q : α → Prop} {old new log : List α} {e : α}

theorem refl (log : List α) : Grows p log log := ⟨[], rfl, by simp⟩

theorem cons (h : Grows p old new) (kind : p e) : Grows p old (e :: new) := by
  obtain ⟨events, rfl, all⟩ := h
  exact ⟨e :: events, rfl, List.forall_mem_cons.mpr ⟨kind, all⟩⟩

theorem trans (h : Grows p old new) (more : Grows p new log) : Grows p old log := by
  obtain ⟨events, rfl, all⟩ := h
  obtain ⟨events', rfl, all'⟩ := more
  exact ⟨events' ++ events, (List.append_assoc ..).symm, List.forall_mem_append.mpr ⟨all', all⟩⟩

theorem mono (h : Grows p old new) (weaker : ∀ e, p e → q e) : Grows q old new := by
  obtain ⟨events, rfl, all⟩ := h
  exact ⟨events, rfl, fun e member => weaker e (all e member)⟩

/-- What is in the new log was there before or has the property. -/
theorem mem (h : Grows p old new) (member : e ∈ new) : p e ∨ e ∈ old := by
  obtain ⟨events, rfl, all⟩ := h
  exact (List.mem_append.mp member).imp_left (all e)

theorem suffix (h : Grows p old new) : old <:+ new := by
  obtain ⟨events, rfl, -⟩ := h
  exact List.suffix_append events old

end Grows
