import Mathlib.Data.List.Basic
import Mathlib.Data.List.Forall2

/-!
# Computations that may fail

What is known of a computation that has returned, or failed: how a sequence of two, and a loop
over a list, came to their result.

## Main results

* `Except.bind_eq_ok`, `Except.bind_eq_error` — a sequence of two computations
* `Except.foldlM_ok_iff` — a loop whose rounds fail whatever came before them
* `Except.foldlM_append` — a loop whose rounds add to a list
-/

namespace Except

variable {α β ε : Type}

theorem bind_eq_ok {x : Except ε α} {f : α → Except ε β} {b : β} :
    (x >>= f) = .ok b ↔ ∃ a, x = .ok a ∧ f a = .ok b := by
  cases x <;> simp [bind, Except.bind]

theorem bind_eq_error {x : Except ε α} {f : α → Except ε β} {e : ε} :
    (x >>= f) = .error e ↔ x = .error e ∨ ∃ a, x = .ok a ∧ f a = .error e := by
  cases x <;> simp [bind, Except.bind]

/-- If whether a round fails does not depend on what the loop has computed, the loop returns if all
its rounds do. -/
theorem foldlM_ok_iff {f : β → α → Except ε β} {fine : α → Prop}
    (round : ∀ b a, (∃ b', f b a = .ok b') ↔ fine a) (xs : List α) (b : β) :
    (∃ b', xs.foldlM f b = .ok b') ↔ ∀ a ∈ xs, fine a := by
  induction xs generalizing b with
  | nil => exact ⟨fun _ => List.forall_mem_nil _, fun _ => ⟨b, rfl⟩⟩
  | cons a xs ih =>
    rw [List.foldlM_cons, List.forall_mem_cons, ← round b a]
    constructor
    · rintro ⟨b', returned⟩
      obtain ⟨b₁, first, others⟩ := bind_eq_ok.mp returned
      exact ⟨⟨b₁, first⟩, (ih b₁).mp ⟨b', others⟩⟩
    · rintro ⟨⟨b₁, first⟩, others⟩
      obtain ⟨b', returned⟩ := (ih b₁).mpr others
      exact ⟨b', bind_eq_ok.mpr ⟨b₁, first, returned⟩⟩

/-- If every round of a loop adds one element to a list and keeps an invariant of it, the loop adds
one for each element that it goes through. -/
theorem foldlM_append {f : List β → α → Except ε (List β)} {R : α → β → Prop} {I : List β → Prop}
    (round : ∀ bs a bs', f bs a = .ok bs' → I bs → ∃ b, bs' = bs ++ [b] ∧ R a b ∧ I bs')
    {xs : List α} {bs bs' : List β} (looped : xs.foldlM f bs = .ok bs') (start : I bs) :
    ∃ new, bs' = bs ++ new ∧ List.Forall₂ R xs new ∧ I bs' := by
  induction xs generalizing bs with
  | nil =>
    obtain rfl := Except.ok.inj looped
    exact ⟨[], (List.append_nil _).symm, .nil, start⟩
  | cons a xs ih =>
    rw [List.foldlM_cons] at looped
    obtain ⟨bs₁, first, others⟩ := bind_eq_ok.mp looped
    obtain ⟨b, rfl, made, kept⟩ := round bs a bs₁ first start
    obtain ⟨new, rfl, rest, last⟩ := ih others kept
    exact ⟨b :: new, List.append_assoc _ _ _, .cons made rest, last⟩

/-- A list whose elements are computed one by one. -/
theorem mapM_eq_ok {f : α → Except ε β} {xs : List α} {ys : List β} :
    xs.mapM f = .ok ys ↔ List.Forall₂ (fun x y => f x = .ok y) xs ys := by
  induction xs generalizing ys with
  | nil =>
    rw [List.mapM_nil, List.forall₂_nil_left_iff]
    exact ⟨fun same => (Except.ok.inj same).symm, fun same => congrArg Except.ok same.symm⟩
  | cons x xs ih =>
    simp only [List.mapM_cons, bind_eq_ok, List.forall₂_cons_left_iff]
    constructor
    · rintro ⟨y, first, ys', rest, made⟩
      exact ⟨y, ys', first, ih.mp rest, (Except.ok.inj made).symm⟩
    · rintro ⟨y, ys', first, rest, rfl⟩
      exact ⟨y, first, ys', ih.mpr rest, rfl⟩

end Except
