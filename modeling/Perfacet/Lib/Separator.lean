import Mathlib.Data.List.Basic
import Mathlib.Data.List.Count

/-!
# Parts joined by a separator

A key that is built by joining texts with a separator says where one part ends only if that
part is free of the separator. A part that is free of it in every key can be read back from
the front, up to the first separator, or from the back, after the last one.

## Main results

* `Separator.front` — equal keys have equal parts before the first separator
* `Separator.back` — equal keys have equal parts after the last separator
* `Separator.plain` — if one of two equal keys of three parts has no separator inside its parts,
  neither has the other
-/

namespace Separator

variable {α : Type*} {a : α} {x x' z z' : List α}

/-- The parts before the first separator. -/
theorem front (plain : a ∉ x) (plain' : a ∉ x') (same : x ++ a :: z = x' ++ a :: z') :
    x = x' ∧ z = z' := by
  induction x generalizing x' with
  | nil =>
    cases x' with
    | nil => exact ⟨rfl, (List.cons.inj same).2⟩
    | cons b x' => exact absurd (List.mem_cons.mpr (.inl (List.cons.inj same).1)) plain'
  | cons b x ih =>
    cases x' with
    | nil => exact absurd (List.mem_cons.mpr (.inl (List.cons.inj same).1.symm)) plain
    | cons b' x' =>
      obtain ⟨rfl, rest⟩ := List.cons.inj same
      obtain ⟨rfl, rfl⟩ := ih (fun member => plain (List.mem_cons_of_mem _ member))
        (fun member => plain' (List.mem_cons_of_mem _ member)) rest
      exact ⟨rfl, rfl⟩

/-- The parts after the last separator. -/
theorem back (plain : a ∉ z) (plain' : a ∉ z') (same : x ++ a :: z = x' ++ a :: z') :
    x = x' ∧ z = z' := by
  have reversed := congrArg List.reverse same
  simp only [List.reverse_append, List.reverse_cons, List.append_assoc, List.singleton_append]
    at reversed
  obtain ⟨after, before⟩ := front (by simpa using plain) (by simpa using plain') reversed
  exact ⟨List.reverse_injective before, List.reverse_injective after⟩

/-- Equal keys have equally many separators, so their parts are free of it together. -/
theorem plain [DecidableEq α] {y y' : List α} (first : a ∉ x) (second : a ∉ y) (third : a ∉ z)
    (same : x ++ a :: (y ++ a :: z) = x' ++ a :: (y' ++ a :: z')) :
    a ∉ x' ∧ a ∉ y' ∧ a ∉ z' := by
  have counts := congrArg (List.count a) same
  simp only [List.count_append, List.count_cons_self] at counts
  rw [List.count_eq_zero.mpr first, List.count_eq_zero.mpr second,
    List.count_eq_zero.mpr third] at counts
  refine ⟨List.count_eq_zero.mp ?_, List.count_eq_zero.mp ?_, List.count_eq_zero.mp ?_⟩ <;> omega

end Separator
