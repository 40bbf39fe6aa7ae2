import Mathlib.Data.List.Induction
import Mathlib.Order.Nat

/-!
# Integer moving averages

An average that keeps `w` parts of its old value for one part of the new sample, with a truncating
division. The first sample is taken as it is. Whatever the weight, truncation never carries the
average outside of the samples.

## Main definitions

* `MovingAverage.next`, `MovingAverage.fold` — one sample more, and all of them
* `MovingAverage.Fits` — the sums on the way stay below a bound

## Main results

* `MovingAverage.exists_le_fold`, `MovingAverage.exists_fold_le` — the average lies between the
  least and the greatest sample
-/

namespace MovingAverage

variable {w lo hi e x : ℕ} {xs : List ℕ}

/-- The average when the sample `x` comes to the average `e`. -/
def next (w e x : ℕ) : ℕ := (w * e + x) / (w + 1)

/-- The average of a list of samples; 0 if there are none. -/
def fold (w : ℕ) : List ℕ → ℕ
  | [] => 0
  | x :: xs => xs.foldl (next w) x

@[simp] theorem fold_nil : fold w [] = 0 := rfl

@[simp] theorem fold_singleton : fold w [x] = x := rfl

theorem fold_append_singleton (nonempty : xs ≠ []) : fold w (xs ++ [x]) = next w (fold w xs) x := by
  cases xs with
  | nil => exact absurd rfl nonempty
  | cons first xs => exact List.foldl_append ..

theorem le_next (old : lo ≤ e) (new : lo ≤ x) : lo ≤ next w e x := by
  rw [next, Nat.le_div_iff_mul_le (Nat.succ_pos w)]
  calc lo * (w + 1) = w * lo + lo := by rw [Nat.mul_succ, Nat.mul_comm]
    _ ≤ w * e + x := Nat.add_le_add (Nat.mul_le_mul_left w old) new

theorem next_le (old : e ≤ hi) (new : x ≤ hi) : next w e x ≤ hi := by
  apply Nat.div_le_of_le_mul
  calc w * e + x ≤ w * hi + hi := Nat.add_le_add (Nat.mul_le_mul_left w old) new
    _ = (w + 1) * hi := (Nat.succ_mul w hi).symm

/-- Some sample is not above the average. -/
theorem exists_le_fold (w : ℕ) (nonempty : xs ≠ []) : ∃ x ∈ xs, x ≤ fold w xs := by
  induction xs using List.reverseRecOn with
  | nil => exact absurd rfl nonempty
  | append_singleton xs x ih =>
    by_cases first : xs = []
    · exact ⟨x, by simp, by rw [first, List.nil_append, fold_singleton]⟩
    obtain ⟨y, member, low⟩ := ih first
    rw [fold_append_singleton first]
    -- The least of the two stays below what is made of both.
    rcases Nat.le_total y x with old | new
    · exact ⟨y, List.mem_append_left _ member, le_next low old⟩
    · exact ⟨x, by simp, le_next (new.trans low) le_rfl⟩

/-- Some sample is not below the average. -/
theorem exists_fold_le (w : ℕ) (nonempty : xs ≠ []) : ∃ x ∈ xs, fold w xs ≤ x := by
  induction xs using List.reverseRecOn with
  | nil => exact absurd rfl nonempty
  | append_singleton xs x ih =>
    by_cases first : xs = []
    · exact ⟨x, by simp, by rw [first, List.nil_append, fold_singleton]⟩
    obtain ⟨y, member, high⟩ := ih first
    rw [fold_append_singleton first]
    rcases Nat.le_total x y with old | new
    · exact ⟨y, List.mem_append_left _ member, next_le high old⟩
    · exact ⟨x, by simp, next_le (high.trans new) le_rfl⟩

/-- No sum that is formed for a sample reaches `bound`. -/
def Fits (w bound : ℕ) (xs : List ℕ) : Prop :=
  ∀ before x, before ≠ [] → before ++ [x] <+: xs → w * fold w before + x < bound

theorem Fits.of_prefix {bound : ℕ} {ys : List ℕ} (fits : Fits w bound ys) (le : xs <+: ys) :
    Fits w bound xs :=
  fun before x nonempty here => fits before x nonempty (here.trans le)

/-- It is enough that the samples are small. -/
theorem Fits.of_forall {bound : ℕ} (small : ∀ x ∈ xs, (w + 1) * x < bound) : Fits w bound xs := by
  intro before x nonempty here
  have inside (y : ℕ) (member : y ∈ before ++ [x]) : (w + 1) * y < bound :=
    small y (here.subset member)
  obtain ⟨y, member, high⟩ := exists_fold_le w nonempty
  have sum (z : ℕ) (above : fold w before ≤ z) (above' : x ≤ z) :
      w * fold w before + x ≤ (w + 1) * z := by
    rw [Nat.succ_mul]
    exact Nat.add_le_add (Nat.mul_le_mul_left w above) above'
  rcases Nat.le_total y x with old | new
  · exact (sum x (high.trans old) le_rfl).trans_lt (inside x (by simp))
  · exact (sum y high new).trans_lt (inside y (List.mem_append_left _ member))

end MovingAverage
