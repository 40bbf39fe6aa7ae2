import Perfacet.Lib.Slots
import Perfacet.Lib.Transition
import Perfacet.Netlib.ThreadPool

/-!
# The threads of the pool

Each thread of a `ThreadPool` looks at the queue under the lock. It takes the first task and runs
it, or waits until it is notified. The one who adds a task notifies a thread after the lock is
released; in between, a thread may have taken the task already. The destructor stops the pool,
notifies all threads and waits until they have returned.

A thread that waits may wake up without being notified.

## Main definitions

* `Workers` — the pool, where its threads are, and the notifications on their way
* `Workers.machine` — the pool under all interleavings

## Main results

* `Workers.drained_of_run` — when the threads have returned, every task has been run once
* `Workers.not_stranded_of_run` — no task is left while all threads wait
-/

namespace Perfacet

/-- Where a thread is: about to look at the queue, in the condition variable, running a task, or
behind its loop. -/
inductive Worker (α : Type)
  | looking | waiting
  | running (task : α)
  | returned
  deriving DecidableEq, Repr

/-- The pool and its threads; `notices` are the calls of `notify_one` to come. Beside them are the
tasks that have been added, taken and finished. -/
structure Workers (α : Type) where
  pool : ThreadPool α
  workers : ℕ → Worker α := fun _ => .looking
  notices : ℕ := 0
  notified : Bool := false
  added : List α := []
  taken : List α := []
  finished : List α := []

/-- What may happen; the condition variable chooses whom it wakes up. -/
inductive WorkersInput (α : Type)
  | add (task : α)
  | notifyOne (w : Option ℕ)
  | wake (w : ℕ)
  | look (w : ℕ)
  | finish (w : ℕ)
  | stop
  | notifyAll

namespace Workers

variable {α : Type}

/-! ## The code -/

def numThreads (s : Workers α) : ℕ := s.pool.numThreads

def set (s : Workers α) (w : ℕ) (x : Worker α) : Workers α :=
  { s with workers := Function.update s.workers w x }

def isWaiting : Worker α → Bool
  | .waiting => true
  | _ => false

/-- A task that is not accepted is an exception of the caller. -/
def add (s : Workers α) (task : α) : Workers α :=
  match s.pool.add task with
  | .ok pool => { s with pool := pool, notices := s.notices + 1, added := s.added ++ [task] }
  | .error _ => s

/-- A notification is lost only if nobody waits. -/
def notifyOne (s : Workers α) (w : Option ℕ) : Option (Workers α) :=
  if s.notices = 0 then none
  else
    match w with
    | some w =>
      if w < s.numThreads ∧ isWaiting (s.workers w) then
        some { s.set w .looking with notices := s.notices - 1 }
      else none
    | none =>
      if (List.range s.numThreads).all fun w => !isWaiting (s.workers w) then
        some { s with notices := s.notices - 1 }
      else none

/-- The body of the loop, under the lock. -/
def look (s : Workers α) (w : ℕ) : Option (Workers α) :=
  match decide (w < s.numThreads), s.workers w with
  | true, .looking =>
    match s.pool.take with
    | some (task, pool) =>
      some { s.set w (.running task) with pool := pool, taken := s.taken ++ [task] }
    | none => some (s.set w (if s.pool.stop then .returned else .waiting))
  | _, _ => none

def finish (s : Workers α) (w : ℕ) : Option (Workers α) :=
  match decide (w < s.numThreads), s.workers w with
  | true, .running task => some { s.set w .looking with finished := s.finished ++ [task] }
  | _, _ => none

def step (s : Workers α) : WorkersInput α → Option (Workers α)
  | .add task => some (s.add task)
  | .notifyOne w => s.notifyOne w
  | .wake w =>
    if w < s.numThreads ∧ isWaiting (s.workers w) then some (s.set w .looking) else none
  | .look w => s.look w
  | .finish w => s.finish w
  | .stop => if s.pool.stop then none else some { s with pool := { s.pool with stop := true } }
  | .notifyAll =>
    if s.pool.stop && !s.notified then
      some { s with
        workers := fun w => if isWaiting (s.workers w) then .looking else s.workers w
        notified := true }
    else none

/-- A new pool. -/
def machine : TransitionSystem (Workers α) (WorkersInput α) where
  init s := ∃ numThreads maxQueue, s = { pool := .make numThreads maxQueue }
  step := step

/-! ## What a step does -/

/-- The effects of a step. -/
inductive Taken (s : Workers α) : WorkersInput α → Workers α → Prop
  | added (task : α) : s.pool.stop = false → s.pool.full = false →
      Taken s (.add task)
        { s with
          pool := { s.pool with tasks := s.pool.tasks ++ [task] }
          notices := s.notices + 1
          added := s.added ++ [task] }
  | refused (task : α) : Taken s (.add task) s
  | notified (w : ℕ) : s.notices ≠ 0 → w < s.numThreads → s.workers w = .waiting →
      Taken s (.notifyOne (some w)) { s.set w .looking with notices := s.notices - 1 }
  | unheard : (∀ w < s.numThreads, s.workers w ≠ .waiting) →
      Taken s (.notifyOne none) { s with notices := s.notices - 1 }
  | woke (w : ℕ) : w < s.numThreads → s.workers w = .waiting →
      Taken s (.wake w) (s.set w .looking)
  | took (w : ℕ) (task : α) (tasks : List α) : w < s.numThreads → s.workers w = .looking →
      s.pool.tasks = task :: tasks →
      Taken s (.look w)
        { s.set w (.running task) with
          pool := { s.pool with tasks := tasks }
          taken := s.taken ++ [task] }
  | returned (w : ℕ) : w < s.numThreads → s.workers w = .looking → s.pool.tasks = [] →
      s.pool.stop = true → Taken s (.look w) (s.set w .returned)
  | waits (w : ℕ) : w < s.numThreads → s.workers w = .looking → s.pool.tasks = [] →
      s.pool.stop = false → Taken s (.look w) (s.set w .waiting)
  | finished (w : ℕ) (task : α) : w < s.numThreads → s.workers w = .running task →
      Taken s (.finish w) { s.set w .looking with finished := s.finished ++ [task] }
  | stopped : s.pool.stop = false →
      Taken s .stop { s with pool := { s.pool with stop := true } }
  | allNotified : s.pool.stop = true →
      Taken s .notifyAll
        { s with
          workers := fun w => if isWaiting (s.workers w) then .looking else s.workers w
          notified := true }

variable {s s' : Workers α} {i : WorkersInput α} {w : ℕ}
  {h : List (TransitionSystem.Step (Workers α) (WorkersInput α))}

theorem isWaiting_iff {x : Worker α} : isWaiting x = true ↔ x = .waiting := by
  cases x <;> simp [isWaiting]

theorem taken_of_add (s : Workers α) (task : α) : Taken s (.add task) (s.add task) := by
  rw [add]
  split
  · next pool here =>
    obtain ⟨stop, full, rfl⟩ := ThreadPool.add_eq_ok.mp here
    exact .added task stop full
  · exact .refused task

theorem taken_of_look (taken : s.look w = some s') : Taken s (.look w) s' := by
  rw [look] at taken
  split at taken
  · next inside here =>
    have lt := of_decide_eq_true inside
    have threads : s.pool.numThreads ≠ 0 := Nat.ne_of_gt (Nat.zero_lt_of_lt lt)
    rw [ThreadPool.take, if_neg threads] at taken
    cases tasks : s.pool.tasks with
    | cons task rest =>
      rw [tasks] at taken
      obtain rfl := Option.some.inj taken
      exact .took w task rest lt here tasks
    | nil =>
      rw [tasks] at taken
      obtain rfl := Option.some.inj taken
      split
      · next stop => exact .returned w lt here tasks stop
      · next goes => exact .waits w lt here tasks (Bool.eq_false_iff.mpr goes)
  · cases taken

theorem taken_of_step (taken : s.step i = some s') : Taken s i s' := by
  cases i with
  | add task =>
    obtain rfl := Option.some.inj taken
    exact taken_of_add s task
  | notifyOne w =>
    obtain ⟨some, same⟩ := Option.ite_none_left_eq_some.mp taken
    cases w with
    | none =>
      obtain ⟨nobody, same⟩ := Option.ite_none_right_eq_some.mp same
      obtain rfl := Option.some.inj same
      refine .unheard fun w lt waits => ?_
      have silent := List.all_eq_true.mp nobody w (List.mem_range.mpr lt)
      rw [waits] at silent
      cases silent
    | some w =>
      obtain ⟨⟨lt, waits⟩, same⟩ := Option.ite_none_right_eq_some.mp same
      obtain rfl := Option.some.inj same
      exact .notified w some lt (isWaiting_iff.mp waits)
  | wake w =>
    obtain ⟨⟨lt, waits⟩, same⟩ := Option.ite_none_right_eq_some.mp taken
    obtain rfl := Option.some.inj same
    exact .woke w lt (isWaiting_iff.mp waits)
  | look w => exact taken_of_look taken
  | finish w =>
    simp only [step, finish] at taken
    split at taken
    · next task inside here =>
      obtain rfl := Option.some.inj taken
      exact .finished w task (of_decide_eq_true inside) here
    · cases taken
  | stop =>
    obtain ⟨goes, same⟩ := Option.ite_none_left_eq_some.mp taken
    obtain rfl := Option.some.inj same
    exact .stopped (Bool.eq_false_iff.mpr goes)
  | notifyAll =>
    obtain ⟨stop, same⟩ := Option.ite_none_right_eq_some.mp taken
    obtain rfl := Option.some.inj same
    exact .allNotified (Bool.and_eq_true _ _ |>.mp stop).1

/-! ## The tasks -/

/-- The task that a thread runs. -/
def busy : Worker α → List α
  | .running task => [task]
  | _ => []

/-- A thread that is about to look at the queue. -/
def looks : Worker α → List Unit
  | .looking => [()]
  | _ => []

/-- The tasks that are being run. -/
def running (s : Workers α) : List α := Slots.gather s.numThreads busy s.workers

/-- How many threads are about to look at the queue. -/
def awake (s : Workers α) : ℕ := (Slots.gather s.numThreads looks s.workers).length

/-- Tasks are taken in the order in which they have been added, and those that have been taken are
being run or have been. If a thread waits, there is a look at the queue to come for every task. A
thread has returned only if there is nothing left to do. -/
structure Kept (s : Workers α) : Prop where
  order : s.taken ++ s.pool.tasks = s.added
  work : s.taken.Perm (s.running ++ s.finished)
  looked : ∀ w < s.numThreads, s.workers w = .waiting →
    s.pool.tasks.length ≤ s.notices + s.awake
  stopped : s.notified = true → s.pool.stop = true ∧ ∀ w < s.numThreads, s.workers w ≠ .waiting
  exited : ∀ w < s.numThreads, s.workers w = .returned → s.pool.stop = true ∧ s.pool.tasks = []

theorem awake_set {x : Worker α} (inside : w < s.numThreads) :
    (looks (s.workers w)).length + (s.set w x).awake = (looks x).length + s.awake :=
  Slots.length_gather_update inside

/-- A thread that runs no task, and then runs none. -/
theorem running_set {x : Worker α} (inside : w < s.numThreads) (idle : busy (s.workers w) = [])
    (idle' : busy x = []) : (s.set w x).running.Perm s.running := by
  have moved := Slots.gather_update_of_nil (x := x) inside idle
  rwa [idle'] at moved

theorem set_workers (s : Workers α) (w w' : ℕ) (x : Worker α) :
    (s.set w x).workers w' = if w' = w then x else s.workers w' := Function.update_apply ..

/-- A thread is where it was, unless it is the one that has moved. -/
theorem state_of_set {x y : Worker α} {w' : ℕ} (other : x ≠ y)
    (here : (s.set w x).workers w' = y) : s.workers w' = y := by
  rw [set_workers] at here
  split at here
  · exact absurd here other
  · exact here

/-- A thread that does not come to wait, nor to return. -/
theorem Kept.of_set {x : Worker α} (kept : Kept s) (waits : x ≠ .waiting) (returns : x ≠ .returned)
    (inside : w < s.numThreads) (idle : busy (s.workers w) = []) (idle' : busy x = [])
    (looked : ∀ w' < s.numThreads, s.workers w' = .waiting →
      s.pool.tasks.length ≤ s.notices + (s.set w x).awake) : Kept (s.set w x) where
  order := kept.order
  work := kept.work.trans ((running_set inside idle idle').symm.append_right _)
  looked w' lt here := looked w' lt (state_of_set waits here)
  stopped all := ⟨(kept.stopped all).1, fun w' lt here =>
    (kept.stopped all).2 w' lt (state_of_set waits here)⟩
  exited w' lt here := kept.exited w' lt (state_of_set returns here)

/-- A thread that waits looks at the queue next. -/
theorem awake_of_waiting (inside : w < s.numThreads) (here : s.workers w = .waiting) :
    (s.set w .looking).awake = s.awake + 1 := by
  have more := awake_set (x := .looking) inside
  rw [here] at more
  simp only [looks, List.length_nil, List.length_singleton] at more
  omega

/-- A thread takes a task, and looks at the queue no more. -/
theorem awake_of_taking (inside : w < s.numThreads) (here : s.workers w = .looking) (task : α) :
    (s.set w (.running task)).awake + 1 = s.awake := by
  have less := awake_set (x := .running task) inside
  rw [here] at less
  simp only [looks, List.length_nil, List.length_singleton] at less
  omega

/-- A thread has finished its task, and looks at the queue again. -/
theorem awake_of_finishing {task : α} (inside : w < s.numThreads)
    (here : s.workers w = .running task) : (s.set w .looking).awake = s.awake + 1 := by
  have more := awake_set (x := .looking) inside
  rw [here] at more
  simp only [looks, List.length_nil, List.length_singleton] at more
  omega

theorem Kept.step (kept : Kept s) (taken : Taken s i s') : Kept s' := by
  cases taken with
  | added task goes _ =>
    refine ⟨?_, kept.work, fun w lt here => ?_, fun all => ?_, fun w lt here => ?_⟩
    · show s.taken ++ (s.pool.tasks ++ [task]) = s.added ++ [task]
      rw [← List.append_assoc, kept.order]
    · have before := kept.looked w lt here
      show (s.pool.tasks ++ [task]).length ≤ s.notices + 1 + s.awake
      rw [List.length_append, List.length_singleton]
      omega
    · rw [(kept.stopped all).1] at goes
      cases goes
    · rw [(kept.exited w lt here).1] at goes
      cases goes
  | refused task => exact kept
  | notified w some lt here =>
    have more := awake_of_waiting lt here
    have before := kept.looked w lt here
    have kept' : Kept (s.set w .looking) :=
      kept.of_set (by simp) (by simp) lt (by rw [here]; rfl) rfl fun _ _ _ => by omega
    refine ⟨kept'.order, kept'.work, fun w' lt' here' => ?_, kept'.stopped, kept'.exited⟩
    -- the notification has become a look
    show s.pool.tasks.length ≤ s.notices - 1 + (s.set w .looking).awake
    omega
  | unheard nobody =>
    exact ⟨kept.order, kept.work, fun w lt here => absurd here (nobody w lt), kept.stopped,
      kept.exited⟩
  | woke w lt here =>
    have more := awake_of_waiting lt here
    have before := kept.looked w lt here
    exact kept.of_set (by simp) (by simp) lt (by rw [here]; rfl) rfl fun _ _ _ => by omega
  | took w task tasks lt here first =>
    refine ⟨?_, ?_, fun w' lt' here' => ?_, fun all => ⟨(kept.stopped all).1, ?_⟩, ?_⟩
    · show s.taken ++ [task] ++ tasks = s.added
      rw [List.append_assoc, ← kept.order, first]
      rfl
    · have moved : (s.set w (.running task)).running.Perm (task :: s.running) :=
        Slots.gather_update_of_nil lt (by rw [here]; rfl)
      show (s.taken ++ [task]).Perm ((s.set w (.running task)).running ++ s.finished)
      refine (List.perm_append_singleton task s.taken).trans ?_
      exact (kept.work.cons task).trans (moved.symm.append_right _)
    · have less := awake_of_taking lt here task
      have before := kept.looked w' lt' (state_of_set (by simp) here')
      rw [first, List.length_cons] at before
      show tasks.length ≤ s.notices + (s.set w (.running task)).awake
      omega
    · exact fun w' lt' here' => (kept.stopped all).2 w' lt' (state_of_set (by simp) here')
    · intro w' lt' here'
      have empty := (kept.exited w' lt' (state_of_set (by simp) here')).2
      rw [first] at empty
      cases empty
  | returned w lt here empty stop =>
    refine ⟨kept.order, ?_, fun w' lt' here' => ?_, fun all => ⟨stop, ?_⟩,
      fun _ _ _ => ⟨stop, empty⟩⟩
    · exact kept.work.trans ((running_set lt (by rw [here]; rfl) rfl).symm.append_right _)
    · show s.pool.tasks.length ≤ _
      rw [empty]
      exact Nat.zero_le _
    · exact fun w' lt' here' => (kept.stopped all).2 w' lt' (state_of_set (by simp) here')
  | waits w lt here empty goes =>
    refine ⟨kept.order, ?_, fun w' lt' here' => ?_, fun all => ?_, fun w' lt' here' => ?_⟩
    · exact kept.work.trans ((running_set lt (by rw [here]; rfl) rfl).symm.append_right _)
    · show s.pool.tasks.length ≤ _
      rw [empty]
      exact Nat.zero_le _
    -- a thread that finds the pool stopped does not wait
    · rw [(kept.stopped all).1] at goes
      cases goes
    · exact kept.exited w' lt' (state_of_set (by simp) here')
  | finished w task lt here =>
    refine ⟨kept.order, ?_, fun w' lt' here' => ?_, fun all => ⟨(kept.stopped all).1, ?_⟩, ?_⟩
    · have moved : (busy (s.workers w) ++ (s.set w .looking).running).Perm
          (busy .looking ++ s.running) := Slots.gather_update lt
      rw [here] at moved
      have left : (task :: (s.set w .looking).running).Perm s.running := moved
      show s.taken.Perm ((s.set w .looking).running ++ (s.finished ++ [task]))
      refine kept.work.trans ((left.symm.append_right _).trans ?_)
      rw [← List.append_assoc]
      exact (List.perm_append_singleton task _).symm
    · have more := awake_of_finishing lt here
      have before := kept.looked w' lt' (state_of_set (by simp) here')
      show s.pool.tasks.length ≤ s.notices + (s.set w .looking).awake
      omega
    · exact fun w' lt' here' => (kept.stopped all).2 w' lt' (state_of_set (by simp) here')
    · exact fun w' lt' here' => kept.exited w' lt' (state_of_set (by simp) here')
  | stopped goes =>
    exact ⟨kept.order, kept.work, kept.looked, fun all => ⟨rfl, (kept.stopped all).2⟩,
      fun w lt here => ⟨rfl, (kept.exited w lt here).2⟩⟩
  | allNotified stop =>
    -- nobody waits any more, and those who run a task or have returned are where they were
    have awoken (w : ℕ) :
        (if isWaiting (s.workers w) then Worker.looking else s.workers w) ≠ .waiting := by
      split
      · simp
      · next other => exact fun here => other (isWaiting_iff.mpr here)
    have same : Slots.gather s.numThreads busy
        (fun w => if isWaiting (s.workers w) then .looking else s.workers w) = s.running := by
      refine congrArg List.flatten (List.map_congr_left fun w _ => ?_)
      cases here : s.workers w <;> simp [isWaiting, here]
      rfl
    refine ⟨kept.order, ?_, fun w _ here => absurd here (awoken w), fun _ => ⟨stop, ?_⟩, ?_⟩
    · show s.taken.Perm (Slots.gather s.numThreads busy _ ++ s.finished)
      rw [same]
      exact kept.work
    · exact fun w _ => awoken w
    · intro w lt here
      have here' : (if isWaiting (s.workers w) then Worker.looking else s.workers w) = .returned :=
        here
      split at here'
      · cases here'
      · exact kept.exited w lt here'

/-- A new pool. -/
theorem Kept.make (numThreads maxQueue : ℕ) :
    Kept ({ pool := .make numThreads maxQueue } : Workers α) := by
  refine ⟨rfl, ?_, fun w lt here => (by cases here), fun all => (by cases all),
    fun w lt here => (by cases here)⟩
  have none : running { pool := ThreadPool.make (α := α) numThreads maxQueue } = [] := by
    simp [running, Slots.gather, busy]
  rw [none]
  exact .refl _

theorem kept_of_run (run : machine.Run h s) : Kept s :=
  run.invariant
    (by
      rintro _ ⟨numThreads, maxQueue, rfl⟩
      exact .make numThreads maxQueue)
    fun _ _ _ step kept => kept.step (taken_of_step step)

/-- If every thread waits or has returned, none runs a task. -/
theorem running_of_stuck
    (stuck : ∀ w < s.numThreads, s.workers w = .waiting ∨ s.workers w = .returned) :
    s.running = [] := by
  refine List.eq_nil_iff_forall_not_mem.mpr fun task member => ?_
  obtain ⟨w, lt, here⟩ := Slots.mem_gather.mp member
  rcases stuck w lt with waits | returned
  · rw [waits] at here
    cases here
  · rw [returned] at here
    cases here

/-- If moreover no notification is on its way, there is no task. -/
theorem Kept.idle_of_stuck (kept : Kept s) (threads : 0 < s.numThreads) (quiet : s.notices = 0)
    (stuck : ∀ w < s.numThreads, s.workers w = .waiting ∨ s.workers w = .returned) :
    s.pool.tasks = [] ∧ s.running = [] := by
  refine ⟨?_, running_of_stuck stuck⟩
  have asleep : s.awake = 0 := by
    refine List.length_eq_zero_iff.mpr (List.eq_nil_iff_forall_not_mem.mpr fun u member => ?_)
    obtain ⟨w, lt, here⟩ := Slots.mem_gather.mp member
    rcases stuck w lt with waits | returned
    · rw [waits] at here
      cases here
    · rw [returned] at here
      cases here
  rcases stuck 0 threads with waits | returned
  · have looked := kept.looked 0 threads waits
    rw [quiet, asleep] at looked
    exact List.length_eq_zero_iff.mp (Nat.le_zero.mp looked)
  · exact (kept.exited 0 threads returned).2

/-! ## All runs -/

/-- When the threads of a pool have returned, which they do only when it is stopped, each task that
has been added has been taken, in the order of the calls, and run once. -/
theorem drained_of_run (run : machine.Run h s) (threads : 0 < s.numThreads)
    (joined : ∀ w < s.numThreads, s.workers w = .returned) :
    s.pool.stop = true ∧ s.taken = s.added ∧ s.finished.Perm s.added := by
  have kept := kept_of_run run
  obtain ⟨stop, empty⟩ := kept.exited 0 threads (joined 0 threads)
  have order := kept.order
  rw [empty, List.append_nil] at order
  have idle := running_of_stuck fun w lt => .inr (joined w lt)
  have work := kept.work
  rw [idle, List.nil_append, order] at work
  exact ⟨stop, order, work.symm⟩

/-- If no notification is on its way and no thread can go on by itself, there is no task left, and
when the destructor has notified the threads, they have all returned. -/
theorem not_stranded_of_run (run : machine.Run h s) (threads : 0 < s.numThreads)
    (quiet : s.notices = 0)
    (stuck : ∀ w < s.numThreads, s.workers w = .waiting ∨ s.workers w = .returned) :
    s.pool.tasks = [] ∧
      (s.notified = true → ∀ w < s.numThreads, s.workers w = .returned) := by
  have kept := kept_of_run run
  refine ⟨(kept.idle_of_stuck threads quiet stuck).1, fun all w lt => ?_⟩
  exact (stuck w lt).resolve_left ((kept.stopped all).2 w lt)

/-- Two threads, and two tasks of which the second is added when the first one is being run. -/
def twoTasks : List (WorkersInput ℕ) :=
  [.look 0, .look 1, .add 7, .notifyOne (some 1), .look 1, .add 8, .notifyOne (some 0), .look 0,
    .finish 0, .stop, .look 0, .notifyAll, .finish 1, .look 1]

theorem drained_of_run_twoTasks :
    ∃ s : Workers ℕ, s.finished = [8, 7] ∧ s.pool.stop = true ∧ s.taken = s.added ∧
      s.finished.Perm s.added := by
  have initial : machine.init ({ pool := .make 2 4 } : Workers ℕ) := ⟨2, 4, rfl⟩
  obtain ⟨h, s, run, -, reached⟩ := machine.exists_run twoTasks (fun _ _ => true)
    (fun s => s.finished = [8, 7] && s.numThreads = 2 && s.workers 0 = .returned &&
      s.workers 1 = .returned) initial (by decide)
  simp only [Bool.and_eq_true, decide_eq_true_eq] at reached
  obtain ⟨⟨⟨finished, threads⟩, first⟩, second⟩ := reached
  refine ⟨s, finished, drained_of_run run (by omega) fun w lt => ?_⟩
  obtain rfl | rfl : w = 0 ∨ w = 1 := by omega
  · exact first
  · exact second

/-- The threads wait again when the tasks are done. -/
theorem not_stranded_of_run_twoTasks :
    ∃ s : Workers ℕ, s.added = [7, 8] ∧ s.pool.tasks = [] := by
  have initial : machine.init ({ pool := .make 2 4 } : Workers ℕ) := ⟨2, 4, rfl⟩
  obtain ⟨h, s, run, -, reached⟩ := machine.exists_run
    [.look 0, .look 1, .add 7, .notifyOne (some 1), .look 1, .add 8, .notifyOne (some 0), .look 0,
      .finish 0, .look 0, .finish 1, .look 1] (fun _ _ => true)
    (fun s => s.added = [7, 8] && s.numThreads = 2 && s.notices = 0 && s.workers 0 = .waiting &&
      s.workers 1 = .waiting) initial (by decide)
  simp only [Bool.and_eq_true, decide_eq_true_eq] at reached
  obtain ⟨⟨⟨⟨added, threads⟩, quiet⟩, first⟩, second⟩ := reached
  refine ⟨s, added, (not_stranded_of_run run (by omega) quiet fun w lt => ?_).1⟩
  obtain rfl | rfl : w = 0 ∨ w = 1 := by omega
  · exact .inl first
  · exact .inl second

end Workers

end Perfacet
