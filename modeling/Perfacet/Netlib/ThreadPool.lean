import Mathlib.Data.List.Basic

/-!
# The thread pool

A queue of tasks with a bound, from which some threads take them in order. A pool that is stopped
takes no more tasks, but its threads still work off those that it has.

## Main definitions

* `ThreadPool`, `ThreadPool.add`, `ThreadPool.take` — the pool, and how a task enters and leaves it
-/

namespace Perfacet

/-- What `add` throws. -/
inductive PoolError
  | stopped | queueFull
  deriving DecidableEq, Repr

/-- The pool; `tasks` are those that no thread has taken yet. -/
structure ThreadPool (α : Type) where
  numThreads : ℕ
  maxQueue : ℕ
  tasks : List α := []
  stop : Bool := false

namespace ThreadPool

variable {α : Type}

/-- The constructor: a pool has room for a task at least. -/
def make (numThreads maxQueue : ℕ) : ThreadPool α where
  numThreads := numThreads
  maxQueue := if maxQueue = 0 then 1 else maxQueue

def full (p : ThreadPool α) : Bool := decide (p.maxQueue ≤ p.tasks.length)

def add (p : ThreadPool α) (task : α) : Except PoolError (ThreadPool α) :=
  if p.stop then .error .stopped
  else if p.full then .error .queueFull
  else .ok { p with tasks := p.tasks ++ [task] }

/-- A thread takes the next task. -/
def take (p : ThreadPool α) : Option (α × ThreadPool α) :=
  if p.numThreads = 0 then none
  else
    match p.tasks with
    | [] => none
    | task :: rest => some (task, { p with tasks := rest })

/-- The tasks that are going to be worked off: without threads, none. -/
def due (p : ThreadPool α) : List α := if p.numThreads = 0 then [] else p.tasks

variable {p p' : ThreadPool α} {task : α}

theorem add_eq_ok : p.add task = .ok p' ↔
    p.stop = false ∧ p.full = false ∧ p' = { p with tasks := p.tasks ++ [task] } := by
  rw [add]
  split_ifs with stopped full
  · simp [stopped]
  · simp [full]
  · simp only [Bool.not_eq_true] at stopped full
    simp only [Except.ok.injEq, stopped, full, true_and, eq_comm]

/-- Of a pool with threads, the task that is taken is the first one due. -/
theorem due_of_take (taken : p.take = some (task, p')) :
    p.due = task :: p'.due ∧ p'.numThreads = p.numThreads := by
  rw [take] at taken
  split_ifs at taken with none
  split at taken
  · cases taken
  · next rest split =>
    cases taken
    exact ⟨by rw [due, due, if_neg none, if_neg none, split], rfl⟩

theorem due_append (p : ThreadPool α) (task : α) :
    due { p with tasks := p.tasks ++ [task] } =
      p.due ++ if p.numThreads = 0 then [] else [task] := by
  rw [due, due]
  split_ifs <;> rfl

end ThreadPool

end Perfacet
