import Mathlib.Data.List.Basic

/-!
# Machines with outputs

A machine takes inputs one by one and answers each of them. Some inputs of a sequence can be
marked as hidden: they are taken, but nobody looks at their outputs. If hidden inputs make no
difference, the visible outputs are those of the machine that never gets the hidden inputs.

Relations between two machines are indexed by the inputs that are still to come, so that a
relation can say of two states that nothing will ever tell them apart.

## Main definitions

* `Mealy.outputs`, `Mealy.visible` — the outputs, and those at inputs that are not hidden
* `Mealy.Always` — a condition on the states in which inputs are taken
* `Mealy.Lockstep`, `Mealy.Hides` — relations that two machines keep

## Main results

* `Mealy.Lockstep.outputs`, `Mealy.Hides.visible` — what such relations are good for
* `Mealy.of_visible_append` — outputs that agree also agree from some point on
* `Mealy.exists_first` — the first input that violates a condition
-/

/-- A step function with an output. -/
structure Mealy (σ ι ο : Type*) where
  step : σ → ι → σ × ο

namespace Mealy

variable {σ τ ι ο : Type*} {M : Mealy σ ι ο} {N : Mealy τ ι ο}
  {s : σ} {t : τ} {i : ι} {inputs rest : List ι} {m m' : List (ι × Bool)}

/-- The state after some inputs. -/
def after (M : Mealy σ ι ο) (s : σ) (inputs : List ι) : σ :=
  inputs.foldl (fun s i => (M.step s i).1) s

/-- The outputs, in order. -/
def outputs (M : Mealy σ ι ο) : σ → List ι → List ο
  | _, [] => []
  | s, i :: inputs => (M.step s i).2 :: M.outputs (M.step s i).1 inputs

/-- All inputs of a sequence with marks. -/
def all (m : List (ι × Bool)) : List ι := m.map Prod.fst

/-- The inputs that are not marked as hidden. -/
def kept (m : List (ι × Bool)) : List ι := (m.filter fun x => !x.2).map Prod.fst

/-- The outputs at the inputs that are not marked as hidden. -/
def visible (M : Mealy σ ι ο) : σ → List (ι × Bool) → List ο
  | _, [] => []
  | s, (i, true) :: m => M.visible (M.step s i).1 m
  | s, (i, false) :: m => (M.step s i).2 :: M.visible (M.step s i).1 m

@[simp] theorem kept_nil : kept ([] : List (ι × Bool)) = [] := rfl

@[simp] theorem kept_hidden : kept ((i, true) :: m) = kept m := rfl

@[simp] theorem kept_shown : kept ((i, false) :: m) = i :: kept m := rfl

@[simp] theorem all_cons {x : ι × Bool} : all (x :: m) = x.1 :: all m := rfl

theorem kept_append (m m' : List (ι × Bool)) : kept (m ++ m') = kept m ++ kept m' := by
  rw [kept, List.filter_append, List.map_append, kept, kept]

theorem kept_sublist (m : List (ι × Bool)) : (kept m).Sublist (all m) :=
  List.filter_sublist.map _

theorem after_append (M : Mealy σ ι ο) (s : σ) (inputs rest : List ι) :
    M.after s (inputs ++ rest) = M.after (M.after s inputs) rest := List.foldl_append

theorem outputs_append (M : Mealy σ ι ο) (s : σ) (inputs rest : List ι) :
    M.outputs s (inputs ++ rest) = M.outputs s inputs ++ M.outputs (M.after s inputs) rest := by
  induction inputs generalizing s with
  | nil => rfl
  | cons i inputs ih => exact congrArg _ (ih _)

theorem visible_append (M : Mealy σ ι ο) (s : σ) (m m' : List (ι × Bool)) :
    M.visible s (m ++ m') = M.visible s m ++ M.visible (M.after s (all m)) m' := by
  induction m generalizing s with
  | nil => rfl
  | cons x m ih =>
    obtain ⟨i, _ | _⟩ := x
    · exact congrArg _ (ih _)
    · exact ih _

theorem length_outputs (M : Mealy σ ι ο) (s : σ) (inputs : List ι) :
    (M.outputs s inputs).length = inputs.length := by
  induction inputs generalizing s with
  | nil => rfl
  | cons i inputs ih => exact congrArg _ (ih _)

theorem length_visible (M : Mealy σ ι ο) (s : σ) (m : List (ι × Bool)) :
    (M.visible s m).length = (kept m).length := by
  induction m generalizing s with
  | nil => rfl
  | cons x m ih =>
    obtain ⟨i, _ | _⟩ := x
    · exact congrArg _ (ih _)
    · exact ih _

/-- Outputs that agree also agree from some point on. -/
theorem of_visible_append (same : M.visible s (m ++ m') = N.outputs t (kept (m ++ m'))) :
    M.visible (M.after s (all m)) m' = N.outputs (N.after t (kept m)) (kept m') := by
  rw [visible_append, kept_append, outputs_append] at same
  exact (List.append_inj same ((length_visible ..).trans (length_outputs ..).symm)).2

/-- What is visible is part of the outputs. -/
theorem visible_congr (same : M.outputs s (all m) = N.outputs t (all m)) :
    M.visible s m = N.visible t m := by
  induction m generalizing s t with
  | nil => rfl
  | cons x m ih =>
    obtain ⟨i, hidden⟩ := x
    obtain ⟨first, others⟩ := List.cons.inj same
    cases hidden with
    | false => exact congrArg₂ List.cons first (ih others)
    | true => exact ih others

/-! ## Conditions on the states in which inputs are taken -/

/-- Every input is taken in a state that allows it. -/
def Always (M : Mealy σ ι ο) (p : σ → ι → Prop) (s : σ) (inputs : List ι) : Prop :=
  ∀ earlier i later, inputs = earlier ++ i :: later → p (M.after s earlier) i

variable {p : σ → ι → Prop} {q : τ → ι → Prop}

theorem always_nil : M.Always p s [] := fun earlier i later split => by
  cases List.append_ne_nil_of_right_ne_nil earlier (List.cons_ne_nil i later) split.symm

theorem always_cons :
    M.Always p s (i :: inputs) ↔ p s i ∧ M.Always p (M.step s i).1 inputs := by
  constructor
  · intro h
    refine ⟨h [] i inputs rfl, fun earlier i' later split => ?_⟩
    exact h (i :: earlier) i' later (congrArg _ split)
  · rintro ⟨first, others⟩ earlier i' later split
    cases earlier with
    | nil =>
      obtain ⟨rfl, rfl⟩ := List.cons.inj split
      exact first
    | cons i'' earlier =>
      obtain ⟨rfl, inner⟩ := List.cons.inj split
      exact others earlier i' later inner

/-- A sequence that does not always obey a condition has a first input that violates it. -/
theorem exists_first (violated : ¬ M.Always p s inputs) : ∃ earlier i later,
    inputs = earlier ++ i :: later ∧ M.Always p s earlier ∧ ¬ p (M.after s earlier) i := by
  induction inputs generalizing s with
  | nil => exact absurd always_nil violated
  | cons i inputs ih =>
    by_cases first : p s i
    · obtain ⟨earlier, i', later, rfl, obeyed, bad⟩ :=
        ih fun others => violated (always_cons.mpr ⟨first, others⟩)
      exact ⟨i :: earlier, i', later, rfl, always_cons.mpr ⟨first, obeyed⟩, bad⟩
    · exact ⟨[], i, inputs, rfl, always_nil, first⟩

/-! ## Two machines -/

/-- A relation that two machines keep when they take the same inputs, and under which they give
the same outputs. -/
structure Lockstep (M : Mealy σ ι ο) (N : Mealy τ ι ο) (R : List ι → σ → τ → Prop) : Prop where
  output : ∀ i inputs s t, R (i :: inputs) s t → (M.step s i).2 = (N.step t i).2
  next : ∀ i inputs s t, R (i :: inputs) s t → R inputs (M.step s i).1 (N.step t i).1

/-- A relation that two machines keep when the second one does not take the hidden inputs. -/
structure Hides (M : Mealy σ ι ο) (N : Mealy τ ι ο) (R : List (ι × Bool) → σ → τ → Prop) :
    Prop where
  output : ∀ i m s t, R ((i, false) :: m) s t → (M.step s i).2 = (N.step t i).2
  next : ∀ i m s t, R ((i, false) :: m) s t → R m (M.step s i).1 (N.step t i).1
  hidden : ∀ i m s t, R ((i, true) :: m) s t → R m (M.step s i).1 t

namespace Lockstep

variable {R : List ι → σ → τ → Prop}

theorem outputs (h : M.Lockstep N R) (related : R inputs s t) :
    M.outputs s inputs = N.outputs t inputs := by
  induction inputs generalizing s t with
  | nil => rfl
  | cons i inputs ih =>
    exact congrArg₂ List.cons (h.output i inputs s t related) (ih (h.next i inputs s t related))

theorem after (h : M.Lockstep N R) (related : R (inputs ++ rest) s t) :
    R rest (M.after s inputs) (N.after t inputs) := by
  induction inputs generalizing s t with
  | nil => exact related
  | cons i inputs ih => exact ih (h.next i _ s t related)

end Lockstep

namespace Hides

variable {R : List (ι × Bool) → σ → τ → Prop}

theorem visible (h : M.Hides N R) (related : R m s t) :
    M.visible s m = N.outputs t (kept m) := by
  induction m generalizing s t with
  | nil => rfl
  | cons x m ih =>
    obtain ⟨i, _ | _⟩ := x
    · exact congrArg₂ List.cons (h.output i m s t related) (ih (h.next i m s t related))
    · exact ih (h.hidden i m s t related)

/-- A condition that holds of hidden inputs, and that the relation respects at others. -/
theorem always (h : M.Hides N R) (hidden : ∀ i m s t, R ((i, true) :: m) s t → p s i)
    (shown : ∀ i m s t, R ((i, false) :: m) s t → (p s i ↔ q t i)) (related : R m s t) :
    M.Always p s (all m) ↔ N.Always q t (kept m) := by
  induction m generalizing s t with
  | nil => exact ⟨fun _ => always_nil, fun _ => always_nil⟩
  | cons x m ih =>
    obtain ⟨i, _ | _⟩ := x
    · rw [kept_shown, all_cons, always_cons, always_cons, shown i m s t related,
        ih (h.next i m s t related)]
    · rw [kept_hidden, all_cons, always_cons, ih (h.hidden i m s t related)]
      exact and_iff_right (hidden i m s t related)

end Hides

end Mealy
