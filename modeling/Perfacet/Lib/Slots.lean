import Mathlib.Data.List.Perm.Basic
import Mathlib.Logic.Function.Basic

/-!
# Slots

A fixed number of slots, each in a state of its own, and a function that reads off what a slot
holds. What all of them hold together changes with one slot by what that slot loses and gains.

## Main definitions

* `Slots.gather` — what the slots hold together

## Main results

* `Slots.gather_update` — one slot changes
* `Slots.mem_gather` — what one of the slots holds
-/

namespace Slots

variable {σ α : Type*}

/-- What the first `n` slots hold, one after the other. -/
def gather (n : ℕ) (holds : σ → List α) (slots : ℕ → σ) : List α :=
  (List.range n).flatMap fun w => holds (slots w)

variable {n w : ℕ} {holds : σ → List α} {slots : ℕ → σ} {x : σ} {a : α}

@[simp] theorem gather_zero (holds : σ → List α) (slots : ℕ → σ) : gather 0 holds slots = [] := rfl

theorem gather_succ (n : ℕ) (holds : σ → List α) (slots : ℕ → σ) :
    gather (n + 1) holds slots = gather n holds slots ++ holds (slots n) := by
  rw [gather, List.range_succ, List.flatMap_append]
  exact congrArg _ (List.append_nil _)

theorem mem_gather : a ∈ gather n holds slots ↔ ∃ w < n, a ∈ holds (slots w) := by
  simp [gather]

/-- A slot that is not among the first `n` does not matter. -/
theorem gather_update_of_le (outside : n ≤ w) :
    gather n holds (Function.update slots w x) = gather n holds slots := by
  induction n with
  | zero => rfl
  | succ n ih =>
    have other : n ≠ w := Nat.ne_of_lt (Nat.lt_of_succ_le outside)
    rw [gather_succ, gather_succ, ih (Nat.le_of_succ_le outside), Function.update_of_ne other]

/-- One slot changes: what it held is exchanged for what it holds. -/
theorem gather_update (inside : w < n) :
    (holds (slots w) ++ gather n holds (Function.update slots w x)).Perm
      (holds x ++ gather n holds slots) := by
  induction n with
  | zero => exact absurd inside (Nat.not_lt_zero w)
  | succ n ih =>
    rw [gather_succ, gather_succ]
    by_cases last : w = n
    · subst last
      rw [gather_update_of_le (Nat.le_refl w), Function.update_self]
      -- what the slots before hold stands between the two
      calc
        _ = holds (slots w) ++ gather w holds slots ++ holds x := (List.append_assoc ..).symm
        _ |>.Perm (holds x ++ (holds (slots w) ++ gather w holds slots)) := List.perm_append_comm
        _ |>.Perm _ := List.perm_append_comm.append_left _
    · have before : w < n := Nat.lt_of_le_of_ne (Nat.le_of_lt_succ inside) last
      rw [Function.update_of_ne (Ne.symm last), ← List.append_assoc, ← List.append_assoc]
      exact (ih before).append_right _

/-- A slot that held nothing. -/
theorem gather_update_of_nil (inside : w < n) (empty : holds (slots w) = []) :
    (gather n holds (Function.update slots w x)).Perm (holds x ++ gather n holds slots) := by
  have moved : (holds (slots w) ++ gather n holds (Function.update slots w x)).Perm
      (holds x ++ gather n holds slots) := gather_update inside
  rwa [empty] at moved

/-- A slot that holds as much as before. -/
theorem length_gather_update (inside : w < n) :
    (holds (slots w)).length + (gather n holds (Function.update slots w x)).length =
      (holds x).length + (gather n holds slots).length := by
  have moved : (holds (slots w) ++ gather n holds (Function.update slots w x)).Perm
      (holds x ++ gather n holds slots) := gather_update inside
  have lengths := moved.length_eq
  rwa [List.length_append, List.length_append] at lengths

end Slots
