import Mathlib.Data.List.Perm.Basic
import Perfacet.Lib.Transition
import Perfacet.Netlib.ThreadPool

/-!
# The export of spans

`OtlpHttpJsonTracer` hands the JSON of every span that ends to a queue, which a worker drains. The
loop kicks off a drain when there is none. The queue is locked, but a kick is submitted outside of
the lock, to a pool that may refuse it.

## Main definitions

* `SpanExporter.machine` — the loop, the pool and its workers, in any order
* `SpanExporter.Accounted` — every payload is in the queue, taken, or counted as dropped
* `SpanExporter.Attended` — somebody is going to look at what is in the queue
* `SpanExporter.Smooth` — a step that neither finds the pool full nor fails to post

## Main results

* `SpanExporter.accounted_of_run` — both hold in every run of smooth steps
-/

namespace Perfacet

/-- A task of the pool that the tracer shares with others. -/
inductive PoolTask
  | drain | other
  deriving DecidableEq, Repr

/-- What happens to payloads; a payload is dropped when `otlp_dropped` is counted up for it. -/
inductive ExportEvent
  | enqueued (json : String)
  | dropped (json : String)
  | taken (json : String)
  deriving DecidableEq, Repr

/-- The tracer's queue, and who works on it: `kick` is the payload for which the loop is about to
submit a drain, and of the drains that have begun some look at the queue and some post. -/
structure SpanExporter where
  queueMax : ℕ
  pool : ThreadPool PoolTask
  q : List String := []
  draining : Bool := false
  kick : Option String := none
  looking : ℕ := 0
  posting : ℕ := 0
  otlpDropped : ℕ := 0
  log : List ExportEvent := []

/-- The lock sections of `enqueue` and `drain`, and what the pool and its workers do. -/
inductive ExportInput
  | enqueue (json : String)
  | submit
  | add
  | stop
  | take
  | drain
  | posted
  | threw
  deriving DecidableEq, Repr

namespace SpanExporter

/-! ## The code -/

/-- `enqueue` up to the end of its lock section. -/
def enqueue (s : SpanExporter) (json : String) : SpanExporter :=
  if s.queueMax ≤ s.q.length then
    { s with otlpDropped := s.otlpDropped + 1, log := .dropped json :: .enqueued json :: s.log }
  else
    let s := { s with q := s.q ++ [json], log := .enqueued json :: s.log }
    if s.draining then s else { s with draining := true, kick := some json }

/-- The rest of `enqueue`: the kick. -/
def submit (s : SpanExporter) (json : String) : SpanExporter :=
  match s.pool.add .drain with
  | .ok pool => { s with pool := pool, kick := none }
  -- the payload is counted, although it stays in the queue
  | .error _ =>
    { s with
      draining := false
      kick := none
      otlpDropped := s.otlpDropped + 1
      log := .dropped json :: s.log }

/-- The lock section of `drain`. -/
def drain (s : SpanExporter) : SpanExporter :=
  match s.q with
  -- the flag is taken back under the lock under which the queue was found empty
  | [] => { s with draining := false, looking := s.looking - 1 }
  | item :: q =>
    { s with
      q := q
      looking := s.looking - 1
      posting := s.posting + 1
      log := .taken item :: s.log }

/-- A worker takes a task. -/
def take (s : SpanExporter) : Option SpanExporter :=
  match s.pool.take with
  | none => none
  | some (.drain, pool) => some { s with pool := pool, looking := s.looking + 1 }
  | some (.other, pool) => some { s with pool := pool }

/-- The loop is in `enqueue` until it has submitted its kick. An exception of `postOne` ends its
drain, and goes to the task's future. -/
def step (s : SpanExporter) : ExportInput → Option SpanExporter
  | .enqueue json => if s.kick = none then some (s.enqueue json) else none
  | .submit => s.kick.map s.submit
  | .add => if s.kick = none then (s.pool.add .other).toOption.map ({ s with pool := · }) else none
  | .stop => some { s with pool := { s.pool with stop := true } }
  | .take => s.take
  | .drain => if 0 < s.looking then some s.drain else none
  | .posted =>
    if 0 < s.posting then some { s with posting := s.posting - 1, looking := s.looking + 1 }
    else none
  | .threw => if 0 < s.posting then some { s with posting := s.posting - 1 } else none

/-- A new tracer, over a pool that may have other things to do. -/
def machine : TransitionSystem SpanExporter ExportInput where
  init s := ∃ queueMax pool, s = { queueMax := queueMax, pool := pool } ∧ .drain ∉ pool.tasks
  step := step

/-! ## Accounts -/

def enqueuedOf (log : List ExportEvent) : List String :=
  log.filterMap fun | .enqueued json => some json | _ => none

def droppedOf (log : List ExportEvent) : List String :=
  log.filterMap fun | .dropped json => some json | _ => none

def takenOf (log : List ExportEvent) : List String :=
  log.filterMap fun | .taken json => some json | _ => none

/-- Every payload has been taken once or counted once, not both, or is still in the queue. -/
structure Accounted (s : SpanExporter) : Prop where
  payloads : (enqueuedOf s.log).Perm (takenOf s.log ++ droppedOf s.log ++ s.q)
  counter : s.otlpDropped = (droppedOf s.log).length

/-- What is in the queue has a drain that is running or in the pool, or is about to be. -/
def Attended (s : SpanExporter) : Prop :=
  s.q ≠ [] → 0 < s.looking + s.posting ∨ .drain ∈ s.pool.tasks ∨ s.kick.isSome

/-- A kick that the pool takes, and a post that does not throw. -/
def Smooth (t : TransitionSystem.Step SpanExporter ExportInput) : Prop :=
  (t.input = .submit → t.pre.pool.stop = false ∧ t.pre.pool.full = false) ∧ t.input ≠ .threw

variable {s s' : SpanExporter} {i : ExportInput}

/-! ## One step -/

theorem Accounted.enqueue (accounted : Accounted s) (json : String) :
    Accounted (s.enqueue json) := by
  obtain ⟨payloads, counter⟩ := accounted
  rw [SpanExporter.enqueue]
  split
  · refine ⟨?_, ?_⟩
    · show (json :: enqueuedOf s.log).Perm (takenOf s.log ++ json :: droppedOf s.log ++ s.q)
      rw [List.append_assoc, List.cons_append]
      refine (payloads.cons json).trans ?_
      rw [List.append_assoc]
      exact List.perm_middle.symm
    · exact congrArg (· + 1) counter
  · have pushed : (json :: enqueuedOf s.log).Perm
        (takenOf s.log ++ droppedOf s.log ++ (s.q ++ [json])) := by
      rw [← List.append_assoc]
      exact (payloads.cons json).trans (List.perm_append_singleton _ _).symm
    dsimp only
    split
    · exact ⟨pushed, counter⟩
    · exact ⟨pushed, counter⟩

theorem Accounted.drain (accounted : Accounted s) : Accounted s.drain := by
  obtain ⟨payloads, counter⟩ := accounted
  rw [SpanExporter.drain]
  split
  · exact ⟨payloads, counter⟩
  · next item q split =>
    refine ⟨?_, counter⟩
    show (enqueuedOf s.log).Perm (item :: takenOf s.log ++ droppedOf s.log ++ q)
    rw [split] at payloads
    exact payloads.trans List.perm_middle

theorem Accounted.take (accounted : Accounted s) (taken : s.take = some s') : Accounted s' := by
  rw [SpanExporter.take] at taken
  split at taken
  · cases taken
  · obtain rfl := Option.some.inj taken
    exact ⟨accounted.payloads, accounted.counter⟩
  · obtain rfl := Option.some.inj taken
    exact ⟨accounted.payloads, accounted.counter⟩

/-- A kick that is taken. -/
theorem submit_of_room (json : String) (running : s.pool.stop = false)
    (room : s.pool.full = false) :
    s.submit json =
      { s with pool := { s.pool with tasks := s.pool.tasks ++ [.drain] }, kick := none } := by
  rw [submit, ThreadPool.add_eq_ok.mpr ⟨running, room, rfl⟩]

/-- The task that a worker takes was the first one. -/
theorem tasks_of_take {pool : ThreadPool PoolTask} {task : PoolTask}
    (taken : s.pool.take = some (task, pool)) : s.pool.tasks = task :: pool.tasks := by
  rw [ThreadPool.take] at taken
  split_ifs at taken
  split at taken
  · cases taken
  · next rest split =>
    cases taken
    exact split

/-- The drains: those that look, those that post, those in the pool and the one to be submitted. -/
def drains (s : SpanExporter) : ℕ :=
  s.looking + s.posting + s.pool.tasks.count .drain + (if s.kick.isSome then 1 else 0)

/-- There is one drain while `draining` is set and none otherwise, and none is needed then. -/
structure OneDrain (s : SpanExporter) : Prop where
  count : s.drains = if s.draining then 1 else 0
  idle : s.draining = false → s.q = []

theorem OneDrain.attended (one : OneDrain s) : Attended s := by
  intro waiting
  have draining : s.draining = true := by
    by_contra off
    exact waiting (one.idle (eq_false_of_ne_true off))
  have count := one.count
  rw [draining, if_pos rfl, drains] at count
  by_cases kick : s.kick.isSome
  · exact .inr (.inr kick)
  by_cases task : PoolTask.drain ∈ s.pool.tasks
  · exact .inr (.inl task)
  · rw [if_neg kick, List.count_eq_zero.mpr task] at count
    exact .inl (by omega)

theorem OneDrain.drains_le (one : OneDrain s) : s.drains ≤ 1 := by
  rw [one.count]
  split
  · exact Nat.le_refl 1
  · exact Nat.zero_le 1

/-- A step that neither writes to the flag nor adds to the queue, and after which there are as many
drains. -/
theorem OneDrain.keep (one : OneDrain s) (count : s'.drains = s.drains)
    (draining : s'.draining = s.draining) (q : s.q = [] → s'.q = []) : OneDrain s' := by
  refine ⟨?_, fun off => ?_⟩
  · rw [count, draining]
    exact one.count
  · exact q (one.idle (draining ▸ off))

theorem OneDrain.enqueue (one : OneDrain s) (calm : s.kick = none) (json : String) :
    OneDrain (s.enqueue json) := by
  rw [SpanExporter.enqueue]
  split
  · exact one.keep rfl rfl id
  dsimp only
  split
  · next draining =>
    refine ⟨one.count, fun off => ?_⟩
    rw [draining] at off
    cases off
  -- There is no drain, and the loop is about to submit one.
  · next idle =>
    have count := one.count
    rw [if_neg idle, drains, calm] at count
    refine ⟨?_, fun off => by cases off⟩
    show s.looking + s.posting + s.pool.tasks.count .drain + 1 = 1
    simp only [Option.isSome_none] at count
    omega

theorem OneDrain.drain (one : OneDrain s) (looking : 0 < s.looking) : OneDrain s.drain := by
  rw [SpanExporter.drain]
  split
  -- The drain that looks is the only one.
  · next empty =>
    have few := one.drains_le
    rw [drains] at few
    refine ⟨?_, fun _ => empty⟩
    show s.looking - 1 + s.posting + s.pool.tasks.count .drain +
      (if s.kick.isSome then 1 else 0) = 0
    omega
  · next item q split =>
    refine one.keep ?_ rfl fun empty => ?_
    · show s.looking - 1 + (s.posting + 1) + s.pool.tasks.count .drain +
      (if s.kick.isSome then 1 else 0) = s.drains
      rw [drains]
      omega
    · rw [split] at empty
      cases empty

theorem OneDrain.take (one : OneDrain s) (taken : s.take = some s') : OneDrain s' := by
  rw [SpanExporter.take] at taken
  split at taken
  · cases taken
  · next pool task =>
    obtain rfl := Option.some.inj taken
    refine one.keep ?_ rfl id
    have tasks := tasks_of_take task
    show s.looking + 1 + s.posting + pool.tasks.count .drain +
      (if s.kick.isSome then 1 else 0) = s.drains
    rw [drains, tasks, List.count_cons_self]
    omega
  · next pool task =>
    obtain rfl := Option.some.inj taken
    refine one.keep ?_ rfl id
    have tasks := tasks_of_take task
    show s.looking + s.posting + pool.tasks.count .drain +
      (if s.kick.isSome then 1 else 0) = s.drains
    rw [drains, tasks, List.count_cons_of_ne (by decide)]

/-- Smooth steps keep the accounts and the drain. -/
theorem accounted_step (accounted : Accounted s) (one : OneDrain s) (taken : s.step i = some s')
    (smooth : Smooth ⟨s, i, s'⟩) : Accounted s' ∧ OneDrain s' := by
  cases i with
  | enqueue json =>
    obtain ⟨calm, same⟩ := Option.ite_none_right_eq_some.mp taken
    obtain rfl := Option.some.inj same
    exact ⟨accounted.enqueue json, one.enqueue calm json⟩
  | submit =>
    obtain ⟨json, kick, rfl⟩ := Option.map_eq_some_iff.mp taken
    obtain ⟨running, room⟩ := smooth.1 rfl
    -- the pool takes the kick, and the drain becomes one of its tasks
    rw [submit_of_room json running room]
    refine ⟨⟨accounted.payloads, accounted.counter⟩, one.keep ?_ rfl id⟩
    show s.looking + s.posting + (s.pool.tasks ++ [PoolTask.drain]).count .drain + 0 = s.drains
    rw [drains, kick, List.count_append]
    rfl
  | add =>
    obtain ⟨calm, same⟩ := Option.ite_none_right_eq_some.mp taken
    cases added : s.pool.add .other with
    | error e =>
      rw [added] at same
      cases same
    | ok pool =>
      rw [added] at same
      obtain rfl := Option.some.inj same
      obtain ⟨-, -, rfl⟩ := ThreadPool.add_eq_ok.mp added
      refine ⟨⟨accounted.payloads, accounted.counter⟩, one.keep ?_ rfl id⟩
      show s.looking + s.posting + (s.pool.tasks ++ [PoolTask.other]).count .drain +
        (if s.kick.isSome then 1 else 0) = s.drains
      rw [drains, List.count_append]
      rfl
  | stop =>
    obtain rfl := Option.some.inj taken
    exact ⟨⟨accounted.payloads, accounted.counter⟩, one.keep rfl rfl id⟩
  | take => exact ⟨accounted.take taken, one.take taken⟩
  | drain =>
    obtain ⟨looking, same⟩ := Option.ite_none_right_eq_some.mp taken
    obtain rfl := Option.some.inj same
    exact ⟨accounted.drain, one.drain looking⟩
  | posted =>
    obtain ⟨posting, same⟩ := Option.ite_none_right_eq_some.mp taken
    obtain rfl := Option.some.inj same
    refine ⟨⟨accounted.payloads, accounted.counter⟩, one.keep ?_ rfl id⟩
    show s.looking + 1 + (s.posting - 1) + s.pool.tasks.count .drain +
      (if s.kick.isSome then 1 else 0) = s.drains
    rw [drains]
    omega
  | threw => exact absurd rfl smooth.2

/-! ## All runs -/

/-- If the pool takes every kick and no post throws, every payload is taken once or counted once,
and never both, and what waits in the queue is always going to be looked at. -/
theorem accounted_of_run {h : List (TransitionSystem.Step SpanExporter ExportInput)}
    (run : machine.Run h s) (steps : ∀ t ∈ h, Smooth t) : Accounted s ∧ Attended s := by
  have all : Accounted s ∧ OneDrain s := by
    refine run.invariant_where (C := Smooth) (I := fun s => Accounted s ∧ OneDrain s) ?_ ?_ steps
    · rintro _ ⟨queueMax, pool, rfl, apart⟩
      refine ⟨⟨.nil, rfl⟩, ?_, fun _ => rfl⟩
      show 0 + 0 + pool.tasks.count .drain + 0 = 0
      rw [List.count_eq_zero.mpr apart]
    · rintro ⟨s, i, s'⟩ taken smooth ⟨accounted, one⟩
      exact accounted_step accounted one taken smooth
  exact ⟨all.1, all.2.attended⟩

/-- Whether a step is smooth. -/
def smooth (s : SpanExporter) : ExportInput → Bool
  | .submit => !s.pool.stop && !s.pool.full
  | .threw => false
  | _ => true

theorem smooth_of_checked {t : TransitionSystem.Step SpanExporter ExportInput}
    (checked : smooth t.pre t.input = true) : Smooth t := by
  refine ⟨fun submit => ?_, fun threw => ?_⟩
  · rw [submit] at checked
    simpa [smooth] using checked
  · rw [threw] at checked
    cases checked

/-- Two payloads are enqueued, one is taken, and the other one waits for the same drain. -/
theorem accounted_of_run_two :
    ∃ s : SpanExporter, s.q = ["b"] ∧ takenOf s.log = ["a"] ∧ Accounted s ∧ Attended s := by
  obtain ⟨h, s, run, checked, reached⟩ := machine.exists_run
    [.enqueue "a", .submit, .enqueue "b", .take, .drain] smooth
    (fun s => s.q = ["b"] && takenOf s.log = ["a"]) ⟨4, .make 1 1, rfl, by decide⟩ (by decide)
  simp only [Bool.and_eq_true, decide_eq_true_eq] at reached
  exact ⟨s, reached.1, reached.2,
    accounted_of_run run fun t member => smooth_of_checked (checked t member)⟩

/-- The pool is full when the drain for the first payload is submitted. The payload is counted as
dropped and stays in the queue; when the next one is enqueued, it is taken. -/
theorem refused_kick_counts_twice :
    (∃ h s, machine.Run h s ∧ droppedOf s.log = ["a"] ∧ takenOf s.log = ["a"]) ∧
      ¬ ∀ h s, machine.Run h s → Accounted s ∧ Attended s := by
  obtain ⟨h, s, run, -, reached⟩ := machine.exists_run
    [.add, .enqueue "a", .submit, .take, .enqueue "b", .submit, .take, .drain] (fun _ _ => true)
    (fun s => droppedOf s.log = ["a"] && takenOf s.log = ["a"] &&
      (enqueuedOf s.log).length = 2 && s.q = ["b"])
    ⟨4, .make 1 1, rfl, by decide⟩ (by decide)
  simp only [Bool.and_eq_true, decide_eq_true_eq] at reached
  obtain ⟨⟨⟨dropped, taken⟩, enqueued⟩, q⟩ := reached
  refine ⟨⟨h, s, run, dropped, taken⟩, fun holds => ?_⟩
  -- Two payloads cannot be three.
  have payloads := (holds h s run).1.payloads.length_eq
  rw [enqueued, taken, dropped, q] at payloads
  cases payloads

/-- Until then nobody is going to look at it. -/
theorem refused_kick_is_unattended : ∃ h s, machine.Run h s ∧ ¬ Attended s := by
  obtain ⟨h, s, run, -, reached⟩ := machine.exists_run
    [.add, .enqueue "a", .submit, .take] (fun _ _ => true)
    (fun s => s.q = ["a"] && s.looking + s.posting = 0 && s.pool.tasks = [] && s.kick = none)
    ⟨4, .make 1 1, rfl, by decide⟩ (by decide)
  simp only [Bool.and_eq_true, decide_eq_true_eq] at reached
  obtain ⟨⟨⟨q, begun⟩, tasks⟩, kick⟩ := reached
  refine ⟨h, s, run, fun attended => ?_⟩
  have looked := attended (by rw [q]; exact List.cons_ne_nil _ _)
  rw [begun, tasks, kick] at looked
  simp at looked

/-- The same when a post throws, and then `draining` stays set, so that there is no other kick. -/
theorem failed_post_is_unattended :
    ∃ h s, machine.Run h s ∧ s.draining = true ∧ ¬ Attended s := by
  obtain ⟨h, s, run, -, reached⟩ := machine.exists_run
    [.enqueue "a", .submit, .take, .drain, .threw, .enqueue "b"] (fun _ _ => true)
    (fun s => s.draining && s.q = ["b"] && s.looking + s.posting = 0 && s.pool.tasks = [] &&
      s.kick = none)
    ⟨4, .make 1 1, rfl, by decide⟩ (by decide)
  simp only [Bool.and_eq_true, decide_eq_true_eq] at reached
  obtain ⟨⟨⟨⟨draining, q⟩, begun⟩, tasks⟩, kick⟩ := reached
  refine ⟨h, s, run, draining, fun attended => ?_⟩
  have looked := attended (by rw [q]; exact List.cons_ne_nil _ _)
  rw [begun, tasks, kick] at looked
  simp at looked

end SpanExporter

end Perfacet
