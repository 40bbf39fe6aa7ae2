import Mathlib.Tactic.SplitIfs

/-!
# The largest and the smallest of some elements

A loop over a list that keeps the largest value seen so far, of those elements that count,
ends with a value that is bounded by what bounds every value and what the loop started with.
The values may be machine integers: only the core's order classes are asked for.

## Main results

* `Extremum.largest_iff` — which bounds the largest value has
* `Extremum.smallest_iff` — which bounds the smallest value has
-/

namespace Extremum

variable {α β : Type*} [LE β] [LT β] [DecidableLT β]

/-- The largest value of the elements that count, or the start. -/
def largest (counts : α → Prop) [DecidablePred counts] (value : α → β) (start : β)
    (elements : List α) : β :=
  elements.foldl
    (fun best a => if counts a then (if best < value a then value a else best) else best) start

/-- The smallest value of the elements that count, or the start. -/
def smallest (counts : α → Prop) [DecidablePred counts] (value : α → β) (start : β)
    (elements : List α) : β :=
  elements.foldl
    (fun best a => if counts a then (if value a < best then value a else best) else best) start

variable [Std.IsLinearOrder β] [Std.LawfulOrderLT β]
  {counts : α → Prop} [DecidablePred counts] {value : α → β} {start bound : β}

/-- A property that passes on to smaller values holds of the largest one if it holds of all. -/
theorem largest_iff {p : β → Prop} (down : ∀ {x y}, x ≤ y → p y → p x) (elements : List α) :
    p (largest counts value start elements) ↔
      p start ∧ ∀ a ∈ elements, counts a → p (value a) := by
  unfold largest
  induction elements generalizing start with
  | nil => simp
  | cons a rest ih =>
    rw [List.foldl_cons, ih, List.forall_mem_cons, ← and_assoc]
    refine and_congr_left fun _ => ?_
    split_ifs with counted larger
    · exact ⟨fun h => ⟨down (Std.le_of_lt larger) h, fun _ => h⟩, fun h => h.2 counted⟩
    · exact ⟨fun h => ⟨h, fun _ => down (Std.not_lt.mp larger) h⟩, And.left⟩
    · exact ⟨fun h => ⟨h, fun c => absurd c counted⟩, And.left⟩

/-- A property that passes on to larger values holds of the smallest one if it holds of all. -/
theorem smallest_iff {p : β → Prop} (up : ∀ {x y}, x ≤ y → p x → p y) (elements : List α) :
    p (smallest counts value start elements) ↔
      p start ∧ ∀ a ∈ elements, counts a → p (value a) := by
  unfold smallest
  induction elements generalizing start with
  | nil => simp
  | cons a rest ih =>
    rw [List.foldl_cons, ih, List.forall_mem_cons, ← and_assoc]
    refine and_congr_left fun _ => ?_
    split_ifs with counted smaller
    · exact ⟨fun h => ⟨up (Std.le_of_lt smaller) h, fun _ => h⟩, fun h => h.2 counted⟩
    · exact ⟨fun h => ⟨h, fun _ => up (Std.not_lt.mp smaller) h⟩, And.left⟩
    · exact ⟨fun h => ⟨h, fun c => absurd c counted⟩, And.left⟩

theorem smallest_le {elements : List α} {a : α} (member : a ∈ elements) (counted : counts a) :
    smallest counts value start elements ≤ value a := by
  have bounds := (smallest_iff (p := (smallest counts value start elements ≤ ·))
    (fun less bounded => Std.le_trans bounded less) elements).mp (Std.le_refl _)
  exact bounds.2 a member counted

end Extremum
