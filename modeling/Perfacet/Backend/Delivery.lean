import Perfacet.Backend.HttpMcpBackend
import Perfacet.Netlib.Workers

/-!
# The answers of the calls to an upstream

`HttpMcpBackend::call` hands a call to the thread pool, whose threads do other work as well. The
thread that runs it blocks until the upstream has answered, and queues the callback in the event
loop. If the pool has no room, the callback is queued with an error. The loop runs what is queued
in that order.

`full` and `add` lock the pool one after the other, so that others can fill it in between. A call
for which `callBlocking` throws is a task that has finished without a callback.

## Main definitions

* `Delivery` — the pool, the queue of the loop, and the callbacks that have been run
* `Delivery.machine` — the calls, the threads and the loop under all interleavings

## Main results

* `Delivery.delivered_of_run` — each callback is run at most once, with an answer to its own call
-/

namespace Perfacet

/-- What the threads of the pool run: a call to the upstream, with its number, or other work. -/
inductive BackendTask
  | call (n : ℕ) (bc : BackendCall)
  | other
  deriving Repr

/-- The calls and their answers; `adding` is the call that is between `full` and `add`. -/
structure Delivery where
  workers : Workers BackendTask
  adding : Option (ℕ × BackendCall) := none
  queue : List (ℕ × Response) := []
  given : List (ℕ × Response) := []
  calls : List BackendCall := []
  thrown : List ℕ := []

/-- What may happen. -/
inductive DeliveryInput
  | call (bc : BackendCall)
  | add
  | answer (w : ℕ) (clk : Clock) (res : KeepAlivePost)
  | throws (w : ℕ)
  | serve
  | pool (i : WorkersInput BackendTask)

namespace Delivery

/-! ## The code -/

/-- `failQueue` of `HttpMcpBackend::call`. -/
def failQueue (s : Delivery) (n : ℕ) : Delivery :=
  { s with queue := s.queue ++ [(n, HttpMcpBackend.workerQueueFull)] }

/-- `HttpMcpBackend::call` until it calls `add`. -/
def call (s : Delivery) (bc : BackendCall) : Option Delivery :=
  if s.adding.isSome then none
  else
    let called := { s with calls := s.calls ++ [bc] }
    some <|
      if s.workers.pool.full then called.failQueue s.calls.length
      else { called with adding := some (s.calls.length, bc) }

/-- The rest of `HttpMcpBackend::call`. -/
def add (s : Delivery) : Option Delivery :=
  match s.adding with
  | none => none
  | some (n, bc) =>
    let added := { s with adding := none }
    some <|
      match s.workers.pool.add (.call n bc) with
      | .ok _ => { added with workers := s.workers.add (.call n bc) }
      | .error _ => added.failQueue n

/-- The task of a call, in which `callBlocking` returns. -/
def answer (parser : JsonParser) (s : Delivery) (w : ℕ) (clk : Clock) (res : KeepAlivePost) :
    Option Delivery :=
  match s.workers.workers w with
  | .running (.call n bc) => (s.workers.finish w).map fun workers =>
    { s with
      workers := workers
      queue := s.queue ++ [(n, HttpMcpBackend.callBlocking parser bc clk res)] }
  | _ => none

/-- The task of a call, in which `callBlocking` throws. -/
def throws (s : Delivery) (w : ℕ) : Option Delivery :=
  match s.workers.workers w with
  | .running (.call n _) => (s.workers.finish w).map fun workers =>
    { s with workers := workers, thrown := s.thrown ++ [n] }
  | _ => none

/-- The loop runs the callback that has been queued first. -/
def serve (s : Delivery) : Option Delivery :=
  if s.adding.isSome then none
  else
    match s.queue with
    | [] => none
    | reply :: queue => some { s with queue := queue, given := s.given ++ [reply] }

/-- The threads of the pool, and what others do with it. -/
def others (s : Delivery) : WorkersInput BackendTask → Option (Workers BackendTask)
  | .add (.call _ _) => none
  | .finish w =>
    match s.workers.workers w with
    | .running .other => s.workers.finish w
    | _ => none
  | i => s.workers.step i

def step (parser : JsonParser) (s : Delivery) : DeliveryInput → Option Delivery
  | .call bc => s.call bc
  | .add => s.add
  | .answer w clk res => s.answer parser w clk res
  | .throws w => s.throws w
  | .serve => s.serve
  | .pool i => (s.others i).map fun workers => { s with workers := workers }

/-- A new pool, before the first call. -/
def machine (parser : JsonParser) : TransitionSystem Delivery DeliveryInput where
  init s := ∃ numThreads maxQueue, s = { workers := { pool := .make numThreads maxQueue } }
  step := step parser

/-- Nothing can go on by itself: no call is being made, no callback is queued, no notification is on
its way, and the threads wait or have returned. -/
def Quiet (s : Delivery) : Prop :=
  s.adding = none ∧ s.queue = [] ∧ s.workers.notices = 0 ∧ 0 < s.workers.numThreads ∧
    ∀ w < s.workers.numThreads, s.workers.workers w = .waiting ∨ s.workers.workers w = .returned

/-- What the callback of a call may be given. -/
def Answers (parser : JsonParser) (bc : BackendCall) (r : Response) : Prop :=
  r = HttpMcpBackend.workerQueueFull ∨
    ∃ clk res, r = HttpMcpBackend.callBlocking parser bc clk res

/-! ## What each step touches -/

section
variable {parser : JsonParser} {s s' : Delivery} {w : ℕ} {bc : BackendCall}

theorem call_spec (called : s.call bc = some s') :
    s.adding = none ∧ s'.calls = s.calls ++ [bc] ∧ s'.given = s.given ∧ s'.thrown = s.thrown := by
  obtain ⟨idle, same⟩ := Option.ite_none_left_eq_some.mp called
  obtain rfl := Option.some.inj same
  refine ⟨Option.not_isSome_iff_eq_none.mp idle, ?_⟩
  split <;> exact ⟨rfl, rfl, rfl⟩

theorem add_spec (added : s.add = some s') :
    s'.adding = none ∧ s'.calls = s.calls ∧ s'.given = s.given ∧ s'.thrown = s.thrown := by
  rw [add] at added
  split at added
  · cases added
  · obtain rfl := Option.some.inj added
    split <;> exact ⟨rfl, rfl, rfl, rfl⟩

theorem answer_spec {clk : Clock} {res : KeepAlivePost}
    (answered : s.answer parser w clk res = some s') :
    s'.adding = s.adding ∧ s'.calls = s.calls ∧ s'.given = s.given ∧ s'.thrown = s.thrown := by
  rw [answer] at answered
  split at answered
  · obtain ⟨workers, -, rfl⟩ := Option.map_eq_some_iff.mp answered
    exact ⟨rfl, rfl, rfl, rfl⟩
  · cases answered

theorem serve_spec (served : s.serve = some s') : ∃ reply queue, s.adding = none ∧
    s.queue = reply :: queue ∧ s' = { s with queue := queue, given := s.given ++ [reply] } := by
  obtain ⟨idle, served⟩ := Option.ite_none_left_eq_some.mp served
  split at served
  · cases served
  · next reply queue front =>
    exact ⟨reply, queue, Option.not_isSome_iff_eq_none.mp idle, front,
      (Option.some.inj served).symm⟩

end

/-! ## The books -/

/-- The number of the call that a task is for. -/
def number : BackendTask → List ℕ
  | .call n _ => [n]
  | .other => []

/-- The numbers of the calls that have left the pool or not come to it. -/
def settled (s : Delivery) : List ℕ := (s.given ++ s.queue).map Prod.fst ++ s.thrown

/-- The number of the call that is being made. -/
def beingMade (s : Delivery) : List ℕ := (s.adding.map Prod.fst).toList

/-- The calls are settled, being made or in the pool; counted together with those that the threads
have finished, these are all that have been added to it. -/
structure Kept (parser : JsonParser) (s : Delivery) : Prop where
  workers : Workers.Kept s.workers
  books : (List.range s.calls.length ++ s.workers.finished.flatMap number).Perm
    (s.settled ++ s.beingMade ++ s.workers.added.flatMap number)
  added : ∀ n bc, .call n bc ∈ s.workers.added → s.calls[n]? = some bc
  adding : ∀ n bc, s.adding = some (n, bc) → s.calls[n]? = some bc
  answers : ∀ reply ∈ s.given ++ s.queue, ∃ bc, s.calls[reply.1]? = some bc ∧
    Answers parser bc reply.2

variable {parser : JsonParser} {s s' : Delivery} {i : DeliveryInput} {n w : ℕ} {bc : BackendCall}
  {h : List (TransitionSystem.Step Delivery DeliveryInput)}

theorem beingMade_of_none (none : s.adding = none) : s.beingMade = [] := by
  rw [beingMade, none]
  rfl

theorem beingMade_of_some (made : s.adding = some (n, bc)) : s.beingMade = [n] := by
  rw [beingMade, made]
  rfl

/-- A callback is queued, and its call settled. -/
theorem settled_queue (s : Delivery) (reply : ℕ × Response) :
    ((s.given ++ (s.queue ++ [reply])).map Prod.fst ++ s.thrown).Perm (reply.1 :: s.settled) := by
  rw [settled, ← List.append_assoc, List.map_append, List.append_assoc]
  exact List.perm_middle

/-- A call that is made later does not touch those before it. -/
theorem get_of_call (found : s.calls[n]? = some bc) (next : BackendCall) :
    (s.calls ++ [next])[n]? = some bc := by
  rw [List.getElem?_append_left (List.getElem?_eq_some_iff.mp found).1]
  exact found

/-- The answers after a callback has been queued. -/
theorem Kept.answers_queue (kept : Kept parser s) {reply : ℕ × Response}
    (found : s.calls[reply.1]? = some bc) (answers : Answers parser bc reply.2) :
    ∀ reply' ∈ s.given ++ (s.queue ++ [reply]), ∃ bc, s.calls[reply'.1]? = some bc ∧
      Answers parser bc reply'.2 := by
  intro reply' member
  rw [← List.append_assoc, List.mem_append, List.mem_singleton] at member
  rcases member with before | rfl
  · exact kept.answers reply' before
  · exact ⟨bc, found, answers⟩

/-- The task that a thread runs has been added. -/
theorem Kept.mem_added (kept : Kept parser s) {task : BackendTask}
    (inside : w < s.workers.numThreads) (here : s.workers.workers w = .running task) :
    task ∈ s.workers.added := by
  have running : task ∈ s.workers.running :=
    Slots.mem_gather.mpr ⟨w, inside, by rw [here]; exact List.mem_singleton_self task⟩
  rw [← kept.workers.order]
  exact List.mem_append_left _
    (kept.workers.work.mem_iff.mpr (List.mem_append_left _ running))

/-- A new call, which is to be settled at once or being made. -/
theorem Kept.call (kept : Kept parser s) (called : s.call bc = some s') : Kept parser s' := by
  obtain ⟨idle, same⟩ := Option.ite_none_left_eq_some.mp called
  obtain rfl := Option.some.inj same
  have none : s.adding = none := Option.not_isSome_iff_eq_none.mp idle
  have books := kept.books
  rw [beingMade_of_none none, List.append_nil] at books
  have range : (List.range (s.calls ++ [bc]).length ++ s.workers.finished.flatMap number).Perm
      (s.calls.length :: (s.settled ++ s.workers.added.flatMap number)) := by
    rw [List.length_append, List.length_singleton, List.range_succ, List.append_assoc]
    exact List.perm_middle.trans (books.cons _)
  have last : (s.calls ++ [bc])[s.calls.length]? = some bc := List.getElem?_concat_length
  split
  · refine ⟨kept.workers, ?_, fun n bc' member => get_of_call (kept.added n bc' member) bc, ?_, ?_⟩
    · have same : beingMade (failQueue { s with calls := s.calls ++ [bc] } s.calls.length) = [] :=
        beingMade_of_none none
      rw [same, List.append_nil]
      exact range.trans ((settled_queue s (_, _)).symm.append_right _)
    · exact fun n bc' made => get_of_call (kept.adding n bc' made) bc
    · intro reply member
      rw [failQueue, ← List.append_assoc, List.mem_append, List.mem_singleton] at member
      rcases member with before | rfl
      · obtain ⟨bc', found, answers⟩ := kept.answers reply before
        exact ⟨bc', get_of_call found bc, answers⟩
      · exact ⟨bc, last, .inl rfl⟩
  · refine ⟨kept.workers, ?_, fun n bc' member => get_of_call (kept.added n bc' member) bc, ?_, ?_⟩
    · rw [beingMade_of_some rfl, List.append_assoc]
      exact range.trans List.perm_middle.symm
    · rintro n bc' ⟨⟩
      exact last
    · intro reply member
      obtain ⟨bc', found, answers⟩ := kept.answers reply member
      exact ⟨bc', get_of_call found bc, answers⟩

/-- The call that is being made comes to the pool, or is settled. -/
theorem Kept.add (kept : Kept parser s) (taken : s.add = some s') : Kept parser s' := by
  rw [Delivery.add] at taken
  split at taken
  · cases taken
  next n bc here =>
  have found := kept.adding n bc here
  have books := kept.books
  rw [beingMade_of_some here, List.append_assoc] at books
  obtain rfl := Option.some.inj taken
  have workers' := Workers.taken_of_add s.workers (.call n bc)
  split
  · next pool accepted =>
    have added : (s.workers.add (.call n bc)).added = s.workers.added ++ [.call n bc] := by
      rw [Workers.add, accepted]
    have finished : (s.workers.add (.call n bc)).finished = s.workers.finished := by
      rw [Workers.add, accepted]
    refine ⟨kept.workers.step workers', ?_, ?_, (by rintro n bc ⟨⟩), kept.answers⟩
    · dsimp only
      rw [added, finished, beingMade_of_none rfl, List.append_nil, List.flatMap_append]
      refine books.trans (List.Perm.append_left _ ?_)
      exact (List.perm_append_singleton n _).symm
    · dsimp only
      intro n' bc' member
      rw [added, List.mem_append, List.mem_singleton] at member
      rcases member with before | same
      · exact kept.added n' bc' before
      · obtain ⟨rfl, rfl⟩ := BackendTask.call.inj same
        exact found
  · refine ⟨kept.workers, ?_, kept.added, (by rintro n bc ⟨⟩),
      kept.answers_queue found (.inl rfl)⟩
    have same : beingMade (failQueue { s with adding := none } n) = [] := beingMade_of_none rfl
    rw [same, List.append_nil]
    exact books.trans (List.perm_middle.trans ((settled_queue s (_, _)).symm.append_right _))

/-- A thread has finished the task of a call. -/
theorem finished_of_finish {workers : Workers BackendTask} {task : BackendTask}
    (here : s.workers.workers w = .running task) (taken : s.workers.finish w = some workers) :
    w < s.workers.numThreads ∧ Workers.Taken s.workers (.finish w) workers ∧
      workers.added = s.workers.added ∧ workers.finished = s.workers.finished ++ [task] := by
  have step : Workers.Taken s.workers (.finish w) workers := Workers.taken_of_step taken
  cases step with
  | finished w task' inside here' =>
    obtain rfl := Worker.running.inj (here.symm.trans here')
    exact ⟨inside, .finished w task inside here, rfl, rfl⟩

/-- The books when the task of a call has finished. -/
theorem Kept.books_of_finish (kept : Kept parser s) (n : ℕ) (bc : BackendCall) :
    (List.range s.calls.length ++
      (s.workers.finished ++ [BackendTask.call n bc]).flatMap number).Perm
      (n :: s.settled ++ s.beingMade ++ s.workers.added.flatMap number) := by
  rw [List.flatMap_append, ← List.append_assoc]
  exact (List.perm_append_singleton n _).trans (kept.books.cons n)

theorem Kept.answer (kept : Kept parser s) {clk : Clock} {res : KeepAlivePost}
    (taken : s.answer parser w clk res = some s') : Kept parser s' := by
  rw [Delivery.answer] at taken
  split at taken
  · next n bc here =>
    obtain ⟨workers, finish, rfl⟩ := Option.map_eq_some_iff.mp taken
    obtain ⟨inside, step, added, finished⟩ := finished_of_finish here finish
    have found := kept.added n bc (kept.mem_added inside here)
    refine ⟨kept.workers.step step, ?_, ?_, kept.adding,
      kept.answers_queue found (.inr ⟨clk, res, rfl⟩)⟩
    · dsimp only
      rw [added, finished]
      refine (kept.books_of_finish n bc).trans
        (List.Perm.append_right _ (List.Perm.append_right _ ?_))
      exact (settled_queue s (_, _)).symm
    · dsimp only
      rw [added]
      exact kept.added
  · cases taken

theorem Kept.throws (kept : Kept parser s) (taken : s.throws w = some s') : Kept parser s' := by
  rw [Delivery.throws] at taken
  split at taken
  · next n bc here =>
    obtain ⟨workers, finish, rfl⟩ := Option.map_eq_some_iff.mp taken
    obtain ⟨inside, step, added, finished⟩ := finished_of_finish here finish
    refine ⟨kept.workers.step step, ?_, ?_, kept.adding, kept.answers⟩
    · dsimp only
      rw [added, finished]
      refine (kept.books_of_finish n bc).trans
        (List.Perm.append_right _ (List.Perm.append_right _ ?_))
      rw [settled, settled, ← List.append_assoc]
      exact (List.perm_append_singleton n _).symm
    · dsimp only
      rw [added]
      exact kept.added
  · cases taken

theorem Kept.serve (kept : Kept parser s) (taken : s.serve = some s') : Kept parser s' := by
  obtain ⟨-, served⟩ := Option.ite_none_left_eq_some.mp taken
  split at served
  · cases served
  next reply queue here =>
  obtain rfl := Option.some.inj served
  have same : s.given ++ [reply] ++ queue = s.given ++ s.queue := by
    rw [here, List.append_assoc]
    rfl
  refine ⟨kept.workers, ?_, kept.added, kept.adding, ?_⟩
  · have settled : settled { s with queue := queue, given := s.given ++ [reply] } = s.settled := by
      rw [Delivery.settled, Delivery.settled]
      exact congrArg (·.map Prod.fst ++ s.thrown) same
    rw [settled]
    exact kept.books
  · dsimp only
    rw [same]
    exact kept.answers

/-- What others do in the pool is none of the calls. -/
theorem others_spec {workers : Workers BackendTask} {i : WorkersInput BackendTask}
    (taken : s.others i = some workers) :
    Workers.Taken s.workers i workers ∧
      workers.finished.flatMap number = s.workers.finished.flatMap number ∧
      workers.added.flatMap number = s.workers.added.flatMap number ∧
      ∀ n bc, .call n bc ∈ workers.added → .call n bc ∈ s.workers.added := by
  have step : s.workers.step i = some workers := by
    unfold others at taken
    split at taken
    · cases taken
    · split at taken
      · exact taken
      · cases taken
    · exact taken
  refine ⟨Workers.taken_of_step step, ?_⟩
  cases Workers.taken_of_step step with
  | added task _ _ =>
    cases task with
    | call n bc => cases taken
    | other =>
      refine ⟨rfl, ?_, fun n bc member => ?_⟩
      · rw [List.flatMap_append]
        exact List.append_nil _
      · rcases List.mem_append.mp member with before | last
        · exact before
        · cases List.mem_singleton.mp last
  | finished w task inside here =>
    simp only [others, here] at taken
    split at taken
    · next other =>
      obtain rfl := Worker.running.inj other
      refine ⟨?_, rfl, fun _ _ member => member⟩
      rw [List.flatMap_append]
      exact List.append_nil _
    · cases taken
  | _ => exact ⟨rfl, rfl, fun _ _ member => member⟩

theorem Kept.step (kept : Kept parser s) (taken : (machine parser).step s i = some s') :
    Kept parser s' := by
  cases i with
  | call bc => exact kept.call taken
  | add => exact kept.add taken
  | answer w clk res => exact kept.answer taken
  | throws w => exact kept.throws taken
  | serve => exact kept.serve taken
  | pool i =>
    obtain ⟨workers, others, rfl⟩ := Option.map_eq_some_iff.mp taken
    obtain ⟨step, finished, added, before⟩ := others_spec others
    refine ⟨kept.workers.step step, ?_, fun n bc member => kept.added n bc (before n bc member),
      kept.adding, kept.answers⟩
    dsimp only
    rw [finished, added]
    exact kept.books

theorem kept_of_run (run : (machine parser).Run h s) : Kept parser s :=
  run.invariant
    (by
      rintro _ ⟨numThreads, maxQueue, rfl⟩
      exact ⟨.make numThreads maxQueue, .refl _, fun _ _ member => (by cases member),
        fun _ _ made => (by cases made), fun _ member => (by cases member)⟩)
    fun _ _ _ step kept => kept.step step

/-- Each call has been answered or is about to be, has thrown, is being made, or is in the pool. -/
theorem Kept.perm (kept : Kept parser s) : (List.range s.calls.length).Perm
    (s.settled ++ s.beingMade ++ (s.workers.running ++ s.workers.pool.tasks).flatMap number) := by
  have pool : s.workers.added.Perm
      (s.workers.finished ++ (s.workers.running ++ s.workers.pool.tasks)) := by
    rw [← kept.workers.order, ← List.append_assoc]
    exact (kept.workers.work.trans List.perm_append_comm).append_right _
  refine (List.perm_append_right_iff (s.workers.finished.flatMap number)).mp ?_
  refine kept.books.trans ?_
  rw [List.append_assoc (s.settled ++ s.beingMade)]
  refine List.Perm.append_left _ ((pool.flatMap_right number).trans ?_)
  rw [List.flatMap_append]
  exact List.perm_append_comm

/-- A call is answered once. -/
theorem Kept.nodup (kept : Kept parser s) : ((s.given ++ s.queue).map Prod.fst).Nodup := by
  have distinct := kept.perm.nodup List.nodup_range
  rw [settled, List.append_assoc, List.append_assoc] at distinct
  exact distinct.of_append_left

/-- When nothing is left to do, all calls have been answered, or have thrown. -/
theorem Kept.perm_of_quiet (kept : Kept parser s) (quiet : s.Quiet) :
    (s.given.map Prod.fst ++ s.thrown).Perm (List.range s.calls.length) := by
  obtain ⟨none, empty, still, threads, stuck⟩ := quiet
  have books := kept.perm
  obtain ⟨tasks, idle⟩ := kept.workers.idle_of_stuck threads still stuck
  rw [beingMade_of_none none, tasks, idle, settled, empty] at books
  simpa using books.symm

/-! ## All runs -/

/-- The callback of a call is run at most once, and given an answer to the request of that call, or
the error of a pool that is full. When nothing is left to do, it has been run for all calls but
those for which `callBlocking` has thrown. -/
theorem delivered_of_run (run : (machine parser).Run h s) :
    (∀ n r, (n, r) ∈ s.given → ∃ bc, s.calls[n]? = some bc ∧ Answers parser bc r) ∧
      (s.given.map Prod.fst).Nodup ∧
      (s.Quiet → (s.given.map Prod.fst ++ s.thrown).Perm (List.range s.calls.length)) := by
  have kept := kept_of_run run
  refine ⟨fun n r member => kept.answers (n, r) (List.mem_append_left _ member), ?_,
    kept.perm_of_quiet⟩
  have distinct := kept.nodup
  rw [List.map_append] at distinct
  exact distinct.of_append_left

/-- A thread and room for one task: the second call is refused, and answered first. -/
theorem delivered_of_run_full :
    ∃ s : Delivery, s.given.map Prod.fst = [1, 0] ∧
      (s.given.map Prod.fst ++ s.thrown).Perm (List.range s.calls.length) := by
  let parser : JsonParser := ⟨fun _ => none, fun parsed => (by cases parsed)⟩
  let bc : BackendCall := ⟨"tools/call", "t", .null, .null, 0, ⟨"", "", ""⟩⟩
  have initial : (machine parser).init { workers := { pool := .make 1 1 } } := ⟨1, 1, rfl⟩
  obtain ⟨h, s, run, -, reached⟩ := (machine parser).exists_run
    [.call bc, .add, .call bc, .serve, .pool (.look 0), .pool (.notifyOne none),
      .answer 0 (fun _ => 0) {}, .serve, .pool (.look 0)] (fun _ _ => true)
    (fun s => s.given.map Prod.fst = [1, 0] && s.adding.isNone && s.queue.isEmpty &&
      s.workers.notices = 0 && s.workers.numThreads = 1 &&
      Workers.isWaiting (s.workers.workers 0)) initial (by decide)
  simp only [Bool.and_eq_true, decide_eq_true_eq, Option.isNone_iff_eq_none, List.isEmpty_iff]
    at reached
  obtain ⟨⟨⟨⟨⟨given, none⟩, empty⟩, quiet⟩, threads⟩, waits⟩ := reached
  refine ⟨s, given, (delivered_of_run run).2.2 ⟨none, empty, quiet, by omega, fun w lt => ?_⟩⟩
  obtain rfl : w = 0 := by omega
  exact .inl (Workers.isWaiting_iff.mp waits)

end Delivery

end Perfacet
