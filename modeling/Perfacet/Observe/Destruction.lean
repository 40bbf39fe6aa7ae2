import Perfacet.Observe.Export

/-!
# The destruction of the tracer

A drain runs on a worker and uses the tracer, so that the destructor has to wait for it. It closes
the tracer and empties the queue, and then looks again and again whether `draining_` has been taken
back. The pool outlives the tracer.

An exception of `postOne`, as for an endpoint whose port is no number, ends a drain that has not
taken the flag back.

## Main definitions

* `TracerLife` — the exporter and its destructor
* `TracerLife.machine` — the loop, the pool, its workers and the destructor, in any order
* `TracerLife.Still` — nothing of this can go on

## Main results

* `TracerLife.outlived_of_run` — when the destructor returns, and that nothing uses the tracer then
-/

namespace Perfacet

/-- The exporter; `usedAfter` is set when something uses it after its destructor has returned. -/
structure TracerLife where
  exporter : SpanExporter
  closed : Bool := false
  returned : Bool := false
  usedAfter : Bool := false

/-- What happens to the exporter, and the lock sections of its destructor: the first one, and the
one that finds the flag taken back. -/
inductive TracerInput
  | exporter (i : ExportInput)
  | close
  | look
  deriving DecidableEq, Repr

/-- The steps that use the tracer, on whatever thread; `enqueue` is the caller's. -/
def ExportInput.uses : ExportInput → Bool
  | .submit | .drain | .posted | .threw => true
  | .enqueue _ | .add | .stop | .take => false

namespace TracerLife

/-! ## The code -/

/-- The lock section of `drain`. -/
def drain (s : TracerLife) : SpanExporter :=
  if s.closed then { s.exporter with draining := false, looking := s.exporter.looking - 1 }
  else s.exporter.drain

/-- The lock section of `enqueue`; a tracer that is closed does not count what it refuses. -/
def enqueue (s : TracerLife) (json : String) : SpanExporter :=
  if s.closed then s.exporter else s.exporter.enqueue json

/-- What happens to the exporter. That nothing is posted, since `closed_` has been set meanwhile,
is `posted` too. -/
def act (s : TracerLife) : ExportInput → Option SpanExporter
  | .enqueue json => if s.exporter.kick = none then some (s.enqueue json) else none
  | .drain => if 0 < s.exporter.looking then some s.drain else none
  | i => s.exporter.step i

/-- The first lock section of the destructor. -/
def close (s : TracerLife) : Option TracerLife :=
  if s.closed then none else some { s with closed := true, exporter := { s.exporter with q := [] } }

/-- The lock section that lets the destructor return. -/
def look (s : TracerLife) : Option TracerLife :=
  if s.closed ∧ s.returned = false ∧ s.exporter.draining = false then
    some { s with returned := true }
  else none

/-- Nobody calls `enqueue` of a tracer that is gone. -/
def step (s : TracerLife) : TracerInput → Option TracerLife
  | .exporter (.enqueue json) =>
    if s.returned then none else (s.act (.enqueue json)).map ({ s with exporter := · })
  | .exporter i => (s.act i).map fun exporter =>
    { s with exporter := exporter, usedAfter := s.usedAfter || (s.returned && i.uses) }
  | .close => s.close
  | .look => s.look

def machine : TransitionSystem TracerLife TracerInput where
  init s := ∃ exporter, SpanExporter.machine.init exporter ∧ s = { exporter := exporter }
  step := step

/-- Nothing goes on: no kick is submitted, no worker has anything to do, and the destructor does not
return. -/
def Still (s : TracerLife) : Prop :=
  s.step (.exporter .submit) = none ∧ s.step (.exporter .take) = none ∧
    s.step (.exporter .drain) = none ∧ s.step (.exporter .posted) = none ∧ s.step .look = none

end TracerLife

/-! ## The drains -/

namespace SpanExporter

variable {s s' : SpanExporter} {lost : ℕ}

/-- Of the drains for which the flag has been set, those that are left and those that have been lost
to an exception are one, while it is set. -/
def Counted (s : SpanExporter) (lost : ℕ) : Prop :=
  s.drains + lost = if s.draining then 1 else 0

/-- With a drain, the flag is set, no drain has been lost, and there is no other one. -/
theorem Counted.one (counted : s.Counted lost) (some : 0 < s.drains) :
    s.draining = true ∧ lost = 0 ∧ s.drains = 1 := by
  rw [Counted] at counted
  split at counted
  · next draining => exact ⟨draining, by omega, by omega⟩
  · omega

theorem Counted.none (counted : s.Counted lost) (off : s.draining = false) :
    s.drains = 0 ∧ lost = 0 := by
  rw [Counted, off, if_neg Bool.false_ne_true] at counted
  omega

theorem Counted.keep (counted : s.Counted lost) (count : s'.drains = s.drains)
    (draining : s'.draining = s.draining) : s'.Counted lost := by
  rw [Counted, count, draining]
  exact counted

/-- The only drain takes the flag back. -/
theorem Counted.last (counted : s.Counted lost) (some : 0 < s.drains)
    (count : s'.drains = s.drains - 1) (off : s'.draining = false) : s'.Counted lost := by
  obtain ⟨-, kept, one⟩ := counted.one some
  rw [Counted, count, off, one, kept]
  rfl

theorem drains_pos_of_looking (looking : 0 < s.looking) : 0 < s.drains := by
  rw [drains]
  omega

theorem drains_pos_of_posting (posting : 0 < s.posting) : 0 < s.drains := by
  rw [drains]
  omega

theorem Counted.enqueue (counted : s.Counted lost) (calm : s.kick = Option.none) (json : String) :
    (s.enqueue json).Counted lost := by
  rw [SpanExporter.enqueue]
  split
  · exact counted.keep rfl rfl
  dsimp only
  split
  · exact counted.keep rfl rfl
  · next idle =>
    obtain ⟨none, kept⟩ := counted.none (by simpa using idle)
    rw [drains, calm] at none
    simp only [Option.isSome_none] at none
    show s.looking + s.posting + s.pool.tasks.count .drain + 1 + lost = 1
    omega

theorem Counted.submit (counted : s.Counted lost) {json : String} (kick : s.kick = some json) :
    (s.submit json).Counted lost := by
  have one : s.drains = s.looking + s.posting + s.pool.tasks.count .drain + 1 := by
    rw [drains, kick]
    rfl
  rw [SpanExporter.submit]
  split
  · next pool added =>
    obtain ⟨-, -, rfl⟩ := ThreadPool.add_eq_ok.mp added
    refine counted.keep ?_ rfl
    show s.looking + s.posting + (s.pool.tasks ++ [PoolTask.drain]).count .drain + 0 = s.drains
    rw [one, List.count_append]
    rfl
  -- the kick is the only drain there is, and it takes the flag back itself
  · refine counted.last (by omega) ?_ rfl
    show s.looking + s.posting + s.pool.tasks.count .drain + 0 = s.drains - 1
    omega

theorem Counted.leave (counted : s.Counted lost) (looking : 0 < s.looking) :
    Counted { s with draining := false, looking := s.looking - 1 } lost := by
  refine counted.last (drains_pos_of_looking looking) ?_ rfl
  simp only [drains]
  omega

theorem Counted.drain (counted : s.Counted lost) (looking : 0 < s.looking) :
    s.drain.Counted lost := by
  rw [SpanExporter.drain]
  split
  · exact counted.leave looking
  · refine counted.keep ?_ rfl
    simp only [drains]
    omega

theorem Counted.take (counted : s.Counted lost) (taken : s.take = some s') :
    s'.Counted lost := by
  rw [SpanExporter.take] at taken
  split at taken
  · cases taken
  · next pool task =>
    obtain rfl := Option.some.inj taken
    refine counted.keep ?_ rfl
    simp only [drains, tasks_of_take task, List.count_cons_self]
    omega
  · next pool task =>
    obtain rfl := Option.some.inj taken
    refine counted.keep ?_ rfl
    have other : PoolTask.other ≠ .drain := by decide
    simp only [drains, tasks_of_take task, List.count_cons_of_ne other]

/-- The workers of a pool that has workers take what there is. -/
theorem idle_of_take (none : s.take = Option.none) :
    s.pool.numThreads = 0 ∨ s.pool.tasks = [] := by
  by_contra both
  obtain ⟨threads, some⟩ := not_or.mp both
  obtain ⟨task, rest, tasks⟩ := List.exists_cons_of_ne_nil some
  rw [SpanExporter.take, ThreadPool.take, if_neg threads, tasks] at none
  cases task <;> cases none

/-- Somebody else's task. -/
theorem eq_of_add (added : s.step .add = some s') :
    s' = { s with pool := { s.pool with tasks := s.pool.tasks ++ [.other] } } := by
  obtain ⟨-, same⟩ := Option.ite_none_right_eq_some.mp added
  cases taken : s.pool.add .other with
  | error e =>
    rw [taken] at same
    cases same
  | ok pool =>
    rw [taken] at same
    obtain rfl := Option.some.inj same
    obtain ⟨-, -, rfl⟩ := ThreadPool.add_eq_ok.mp taken
    rfl

theorem Counted.add (counted : s.Counted lost) (added : s.step .add = some s') :
    s'.Counted lost := by
  rw [eq_of_add added]
  refine counted.keep ?_ rfl
  simp only [drains, List.count_append]
  rfl

/-- The steps that a drain still has to take on a tracer that is closed; one that posts looks once
more. -/
def left (s : SpanExporter) : ℕ :=
  s.looking + 2 * s.posting + s.pool.tasks.count .drain + (if s.kick.isSome then 2 else 0)

theorem Counted.left_le (counted : s.Counted lost) : s.left ≤ 2 := by
  have few : s.drains ≤ 1 := by
    rw [Counted] at counted
    split at counted <;> omega
  rw [drains] at few
  rw [left]
  cases kick : s.kick.isSome with
  | true =>
    simp only [kick, if_true] at few ⊢
    omega
  | false =>
    simp only [kick, Bool.false_eq_true, if_false] at few ⊢
    omega

end SpanExporter

namespace TracerLife

open SpanExporter (Counted)

variable {s s' : TracerLife} {e e' : SpanExporter} {x : ExportInput} {n : ℕ}
  {h : List (TransitionSystem.Step TracerLife TracerInput)}

/-! ## One step -/

/-- The drains that have been lost to an exception. -/
def lost (h : List (TransitionSystem.Step TracerLife TracerInput)) : ℕ :=
  h.countP fun t => t.input = .exporter .threw

theorem lost_cons (t : TransitionSystem.Step TracerLife TracerInput) :
    lost (t :: h) = lost h + if t.input = .exporter .threw then 1 else 0 := by
  rw [lost, List.countP_cons, lost]
  simp only [decide_eq_true_eq]

/-- Whether a step uses a tracer that is closed. -/
def late (t : TransitionSystem.Step TracerLife TracerInput) : Bool :=
  match t.input with
  | .exporter x => t.pre.closed && x.uses
  | .close | .look => false

/-- A step of the exporter keeps the count, unless a drain is lost with it. -/
theorem counted_act (counted : s.exporter.Counted n) (acted : s.act x = some e) :
    e.Counted (if x = .threw then n + 1 else n) := by
  cases x with
  | enqueue json =>
    obtain ⟨calm, same⟩ := Option.ite_none_right_eq_some.mp acted
    obtain rfl := Option.some.inj same
    rw [if_neg (by exact ExportInput.noConfusion), enqueue]
    split
    · exact counted
    · exact counted.enqueue calm json
  | submit =>
    obtain ⟨json, kick, rfl⟩ := Option.map_eq_some_iff.mp acted
    exact counted.submit kick
  | add => exact counted.add acted
  | stop =>
    obtain rfl := Option.some.inj acted
    exact counted.keep rfl rfl
  | take => exact counted.take acted
  | drain =>
    obtain ⟨looking, same⟩ := Option.ite_none_right_eq_some.mp acted
    obtain rfl := Option.some.inj same
    rw [if_neg (by exact ExportInput.noConfusion), drain]
    split
    · exact counted.leave looking
    · exact counted.drain looking
  | posted =>
    obtain ⟨posting, same⟩ := Option.ite_none_right_eq_some.mp acted
    obtain rfl := Option.some.inj same
    refine counted.keep ?_ rfl
    simp only [SpanExporter.drains]
    omega
  | threw =>
    obtain ⟨posting, same⟩ := Option.ite_none_right_eq_some.mp acted
    obtain rfl := Option.some.inj same
    -- the flag stays set, and nobody is left to take it back
    obtain ⟨draining, none, one⟩ := counted.one (SpanExporter.drains_pos_of_posting posting)
    rw [if_pos rfl, SpanExporter.Counted, draining, if_pos rfl, none]
    simp only [SpanExporter.drains] at one ⊢
    omega

/-- A step that uses the tracer is one of a drain. -/
theorem drains_pos_of_uses (acted : s.act x = some e) (uses : x.uses = true) :
    0 < s.exporter.drains := by
  cases x with
  | submit =>
    obtain ⟨json, kick, -⟩ := Option.map_eq_some_iff.mp acted
    rw [SpanExporter.drains, kick]
    exact Nat.succ_pos _
  | drain =>
    obtain ⟨looking, -⟩ := Option.ite_none_right_eq_some.mp acted
    exact SpanExporter.drains_pos_of_looking looking
  | posted | threw =>
    obtain ⟨posting, -⟩ := Option.ite_none_right_eq_some.mp acted
    exact SpanExporter.drains_pos_of_posting posting
  | _ => cases uses

/-- Without a drain, nothing sets the flag but `enqueue`. -/
theorem draining_act (acted : s.act x = some e) (other : ∀ json, x ≠ .enqueue json)
    (unused : x.uses = false) : e.draining = s.exporter.draining := by
  cases x with
  | enqueue json => exact absurd rfl (other json)
  | add => rw [SpanExporter.eq_of_add acted]
  | stop =>
    obtain rfl := Option.some.inj acted
    rfl
  | take =>
    change s.exporter.take = some e at acted
    rw [SpanExporter.take] at acted
    split at acted
    · cases acted
    · obtain rfl := Option.some.inj acted
      rfl
    · obtain rfl := Option.some.inj acted
      rfl
  | _ => cases unused

/-- On a tracer that is closed, every step that uses it is one of those that are left. -/
theorem left_act (closed : s.closed = true) (acted : s.act x = some e) :
    e.left + (if x.uses then 1 else 0) ≤ s.exporter.left := by
  cases x with
  | enqueue json =>
    obtain ⟨-, same⟩ := Option.ite_none_right_eq_some.mp acted
    obtain rfl := Option.some.inj same
    rw [enqueue, if_pos closed]
    exact Nat.le_refl _
  | submit =>
    obtain ⟨json, kick, rfl⟩ := Option.map_eq_some_iff.mp acted
    have left : s.exporter.left = s.exporter.looking + 2 * s.exporter.posting +
        s.exporter.pool.tasks.count .drain + 2 := by
      rw [SpanExporter.left, kick]
      rfl
    rw [left, SpanExporter.submit]
    split
    · next pool added =>
      obtain ⟨-, -, rfl⟩ := ThreadPool.add_eq_ok.mp added
      simp [SpanExporter.left, ExportInput.uses]
      omega
    · simp [SpanExporter.left, ExportInput.uses]
  | add =>
    rw [SpanExporter.eq_of_add acted]
    simp [SpanExporter.left, ExportInput.uses]
  | stop =>
    obtain rfl := Option.some.inj acted
    exact Nat.le_refl _
  | take =>
    change s.exporter.take = some e at acted
    rw [SpanExporter.take] at acted
    split at acted
    · cases acted
    · next pool task =>
      obtain rfl := Option.some.inj acted
      simp only [SpanExporter.left, SpanExporter.tasks_of_take task, List.count_cons_self,
        ExportInput.uses, Bool.false_eq_true, if_false]
      omega
    · next pool task =>
      obtain rfl := Option.some.inj acted
      have other : PoolTask.other ≠ .drain := by decide
      simp only [SpanExporter.left, SpanExporter.tasks_of_take task, List.count_cons_of_ne other,
        ExportInput.uses, Bool.false_eq_true, if_false]
      omega
  | drain =>
    obtain ⟨looking, same⟩ := Option.ite_none_right_eq_some.mp acted
    obtain rfl := Option.some.inj same
    rw [drain, if_pos closed]
    simp only [SpanExporter.left, ExportInput.uses, if_true]
    omega
  | posted | threw =>
    obtain ⟨posting, same⟩ := Option.ite_none_right_eq_some.mp acted
    obtain rfl := Option.some.inj same
    simp only [SpanExporter.left, ExportInput.uses, if_true]
    omega

/-! ## All runs -/

/-- What holds after the steps of a run. -/
structure Kept (h : List (TransitionSystem.Step TracerLife TracerInput)) (s : TracerLife) :
    Prop where
  counted : s.exporter.Counted (lost h)
  returned : s.returned = true → s.closed = true ∧ s.exporter.draining = false
  unused : s.usedAfter = false
  early : s.closed = false → h.countP late = 0
  few : s.closed = true → h.countP late + s.exporter.left ≤ 2

/-- A step of the exporter. -/
theorem Kept.act (kept : Kept h s) (acted : s.act x = some e)
    (allowed : s.returned = true → ∀ json, x ≠ .enqueue json)
    (same : s' = { s with exporter := e, usedAfter := s.usedAfter || (s.returned && x.uses) }) :
    Kept (⟨s, .exporter x, s'⟩ :: h) s' := by
  have idle (returned : s.returned = true) : x.uses = false := by
    by_contra uses
    have some := drains_pos_of_uses acted (by simpa using uses)
    exact absurd (kept.counted.none (kept.returned returned).2).1 (Nat.ne_of_gt some)
  subst same
  refine ⟨?_, ?_, ?_, ?_, ?_⟩
  · have counted := counted_act kept.counted acted
    rw [lost_cons]
    split at counted
    · next threw =>
      subst threw
      exact counted
    · next other => simpa [other] using counted
  · intro returned
    refine ⟨(kept.returned returned).1, ?_⟩
    show e.draining = false
    rw [draining_act acted (allowed returned) (idle returned)]
    exact (kept.returned returned).2
  · show (s.usedAfter || (s.returned && x.uses)) = false
    rw [kept.unused]
    cases returned : s.returned with
    | false => rfl
    | true => exact idle returned
  · intro opened
    change s.closed = false at opened
    rw [List.countP_cons, kept.early opened]
    simp [late, opened]
  · intro closed
    change s.closed = true at closed
    have fewer := left_act closed acted
    have few := kept.few closed
    rw [List.countP_cons]
    simp only [late, closed, Bool.true_and]
    show _ + e.left ≤ 2
    omega

theorem Kept.step {i : TracerInput} (kept : Kept h s) (taken : s.step i = some s') :
    Kept (⟨s, i, s'⟩ :: h) s' := by
  cases i with
  | exporter x =>
    by_cases ends : ∃ json, x = .enqueue json
    · obtain ⟨json, rfl⟩ := ends
      obtain ⟨alive, same⟩ := Option.ite_none_left_eq_some.mp taken
      obtain ⟨e, acted, rfl⟩ := Option.map_eq_some_iff.mp same
      refine kept.act acted (fun returned => absurd returned alive) ?_
      simp [ExportInput.uses]
    · have other : ∀ json, x ≠ .enqueue json := fun json same => ends ⟨json, same⟩
      obtain ⟨e, acted, same⟩ : ∃ e, s.act x = some e ∧
          { s with exporter := e, usedAfter := s.usedAfter || (s.returned && x.uses) } = s' := by
        cases x with
        | enqueue json => exact absurd rfl (other json)
        | _ => exact Option.map_eq_some_iff.mp taken
      exact kept.act acted (fun _ => other) same.symm
  | close =>
    obtain ⟨opened, same⟩ := Option.ite_none_left_eq_some.mp taken
    have opened : s.closed = false := by simpa using opened
    obtain rfl := Option.some.inj same
    refine ⟨kept.counted.keep rfl rfl, fun returned => ?_, kept.unused, fun closed => ?_,
      fun _ => ?_⟩
    · have closed := (kept.returned returned).1
      rw [opened] at closed
      cases closed
    · cases closed
    · rw [List.countP_cons, kept.early opened]
      have few := kept.counted.left_le
      rwa [← Nat.zero_add s.exporter.left] at few
  | look =>
    obtain ⟨⟨closed, -, off⟩, same⟩ := Option.ite_none_right_eq_some.mp taken
    obtain rfl := Option.some.inj same
    exact ⟨kept.counted, fun _ => ⟨closed, off⟩, kept.unused, kept.early, kept.few⟩

theorem kept_of_run (run : machine.Run h s) : Kept h s := by
  induction run with
  | start first =>
    obtain ⟨_, ⟨queueMax, pool, rfl, apart⟩, rfl⟩ := first
    refine ⟨?_, nofun, rfl, fun _ => rfl, nofun⟩
    show 0 + 0 + pool.tasks.count .drain + 0 + 0 = 0
    rw [List.count_eq_zero.mpr apart]
  | next _ taken kept => exact kept.step taken

/-- What is left where nothing goes on: a drain that has no thread to run it. -/
theorem Still.drains_eq (still : s.Still) (closed : s.closed = true) :
    s.exporter.drains = s.exporter.pool.tasks.count .drain ∧
      (s.exporter.pool.numThreads = 0 ∨ s.exporter.pool.tasks = []) ∧
      (s.returned = false → s.exporter.draining = true) := by
  obtain ⟨submit, take, drain, posted, look⟩ := still
  replace submit : s.exporter.kick = none := by
    have none := Option.map_eq_none_iff.mp (Option.map_eq_none_iff.mp submit)
    exact none
  have looking : s.exporter.looking = 0 := by
    by_contra some
    have begun : s.act .drain = .some s.drain := if_pos (Nat.pos_of_ne_zero some)
    cases begun.symm.trans (Option.map_eq_none_iff.mp drain)
  have posting : s.exporter.posting = 0 := by
    by_contra some
    have begun := Option.map_eq_none_iff.mp posted
    cases (if_pos (Nat.pos_of_ne_zero some)).symm.trans begun
  refine ⟨?_, ?_, fun waits => ?_⟩
  · rw [SpanExporter.drains, looking, posting, submit]
    exact Nat.zero_add _
  · exact SpanExporter.idle_of_take (Option.map_eq_none_iff.mp take)
  · by_contra off
    have off : s.exporter.draining = false := by simpa using off
    cases (if_pos ⟨closed, waits, off⟩).symm.trans look

/-- Nothing uses the tracer after its destructor has returned, and there is no drain then. Once the
tracer is closed, a drain takes two steps at most. If nothing goes on any more, the destructor has
returned, unless a post has thrown, or a drain has no thread to run it. -/
theorem outlived_of_run (run : machine.Run h s) :
    s.usedAfter = false ∧ (s.returned = true → s.exporter.drains = 0) ∧ h.countP late ≤ 2 ∧
      (s.closed = true → s.Still →
        (s.returned = true ↔ (∀ t ∈ h, t.input ≠ .exporter .threw) ∧
          (s.exporter.pool.numThreads ≠ 0 ∨ .drain ∉ s.exporter.pool.tasks))) := by
  have kept := kept_of_run run
  refine ⟨kept.unused, fun returned => ?_, ?_, fun closed still => ?_⟩
  · exact (kept.counted.none (kept.returned returned).2).1
  · cases closed : s.closed with
    | false =>
      rw [kept.early closed]
      exact Nat.zero_le 2
    | true => exact Nat.le_trans (Nat.le_add_right ..) (kept.few closed)
  obtain ⟨count, tasks, waits⟩ := still.drains_eq closed
  constructor
  · intro returned
    obtain ⟨none, kept⟩ := kept.counted.none (kept.returned returned).2
    refine ⟨fun t member threw => ?_, .inr ?_⟩
    · exact List.countP_eq_zero.mp kept t member (decide_eq_true threw)
    · exact List.count_eq_zero.mp (count ▸ none)
  · rintro ⟨calm, worked⟩
    by_contra unreturned
    have counted := kept.counted
    have threw : lost h = 0 := List.countP_eq_zero.mpr fun t member => by
      rw [decide_eq_true_eq]
      exact calm t member
    -- the flag is set, so that there is a drain
    rw [Counted, waits (by simpa using unreturned), threw, count, if_pos rfl] at counted
    have waiting : PoolTask.drain ∈ s.exporter.pool.tasks := by
      rw [← List.count_pos_iff]
      omega
    rcases worked with threads | empty
    · rcases tasks with none | none
      · exact threads none
      · rw [none] at waiting
        cases waiting
    · exact empty waiting

/-- The tracer is closed while one payload is being posted and another one waits. -/
theorem outlived_of_run_posting :
    ∃ s : TracerLife, s.closed = true ∧ s.Still ∧ s.returned = true ∧ s.usedAfter = false := by
  obtain ⟨h, s, run, checked, reached⟩ := machine.exists_run
    [.exporter (.enqueue "a"), .exporter .submit, .exporter (.enqueue "b"), .exporter .take,
      .exporter .drain, .close, .exporter .posted, .exporter .drain, .look]
    (fun _ i => i ≠ .exporter .threw)
    (fun s => s.closed && (s.step (.exporter .submit)).isNone &&
      (s.step (.exporter .take)).isNone && (s.step (.exporter .drain)).isNone &&
      (s.step (.exporter .posted)).isNone && (s.step .look).isNone &&
      s.exporter.pool.numThreads = 1)
    ⟨_, ⟨4, .make 1 1, rfl, by decide⟩, rfl⟩ (by decide)
  simp only [Bool.and_eq_true, Option.isNone_iff_eq_none, decide_eq_true_eq] at checked reached
  obtain ⟨⟨⟨⟨⟨⟨closed, submit⟩, take⟩, drain⟩, posted⟩, look⟩, threads⟩ := reached
  obtain ⟨unused, -, -, returned⟩ := outlived_of_run run
  have still : s.Still := ⟨submit, take, drain, posted, look⟩
  have threads : s.exporter.pool.numThreads ≠ 0 := by
    rw [threads]
    decide
  exact ⟨s, closed, still, (returned closed still).mpr ⟨checked, .inl threads⟩, unused⟩

end TracerLife

end Perfacet
