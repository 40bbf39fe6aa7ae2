import Mathlib.Data.Option.Basic
import Perfacet.Backend.Delivery
import Perfacet.Pipeline.Limits
import Perfacet.Pipeline.Postings

/-!
# The way of an attempt to its upstream and back

The pipeline sends an attempt by calling its backend, which hands it to the thread pool. A thread
blocks until the upstream has answered and queues the callback in the loop, where it continues the
call that has sent the attempt. Here the pipeline and the delivery of its attempts run together,
under all interleavings of the loop with the threads. What the pipeline by itself has to assume of
its backends is proved of them.

A backend calls nothing back before it returns, so that nothing happens in the pipeline meanwhile.
The closure of a callback is destroyed some time after it has been called, with the other tasks that
the loop has taken out of its queue. Left out are the calls of which `callBlocking` throws: their
callbacks are destroyed on the threads of the pool.

## Main definitions

* `RoundTrip` — the pipeline, and the delivery of its attempts
* `RoundTrip.machine` — the loop and the threads under all interleavings
* `RoundTrip.onTheWay` — the attempts that have been sent and not been answered

## Main results

* `RoundTrip.heard_of_run` — every attempt is answered to its own call, which is there to hear it
* `RoundTrip.settled_of_run` — when nothing is left to do, nothing is held, and all requests have
  been answered
* `RoundTrip.loaded_of_run` — the attempts on the way are no more than the limits of the governor
-/

namespace Perfacet

/-- The pipeline and the delivery of its attempts. While the loop is in a backend, `called` says
whether its `call` has been entered. The callback that was passed to the `n`-th `call` belongs to
the `n`-th of `owners`. -/
structure RoundTrip where
  pipeline : PipelineState
  delivery : Delivery
  called : Bool := false
  owners : List ℕ := []

/-- What may happen: the loop does something that is no callback of a backend, or goes on with a
`call` of a backend; it calls the callback that was queued first, or destroys one; a thread gets an
answer; or something else happens in the pool. -/
inductive RoundTripInput
  | loop (i : PipelineInput)
  | call
  | add
  | returns
  | serve (clk : Clock)
  | drop (c : ℕ)
  | answer (w : ℕ) (clk : Clock) (res : KeepAlivePost)
  | pool (i : WorkersInput BackendTask)

/-- A request comes in. -/
def RoundTripInput.asks : RoundTripInput → Bool
  | .loop i => i.asks
  | _ => false

namespace RoundTrip

section
variable (env : Env) (parser : JsonParser)

def loop (s : RoundTrip) (i : PipelineInput) : Option RoundTrip :=
  if i.ofBackend then none
  else (s.pipeline.step env i).map fun pipeline => { s with pipeline := pipeline }

/-- `fireAttempt` enters `HttpMcpBackend::call`. -/
def call (s : RoundTrip) : Option RoundTrip :=
  match s.called, s.pipeline.stack with
  | false, .inBackend c :: _ =>
    match s.pipeline.calls.lookup c with
    | some call => (s.delivery.call (PipelineState.makeBackendCall call)).map fun delivery =>
      { s with delivery := delivery, called := true, owners := s.owners ++ [c] }
    | none => none
  | _, _ => none

def add (s : RoundTrip) : Option RoundTrip :=
  s.delivery.add.map fun delivery => { s with delivery := delivery }

/-- `HttpMcpBackend::call` returns. -/
def returns (s : RoundTrip) : Option RoundTrip :=
  if s.called && s.delivery.adding.isNone then
    (s.pipeline.step env .backendReturns).map fun pipeline =>
      { s with pipeline := pipeline, called := false }
  else none

/-- The loop takes the callback out of its queue that was queued first, and calls it. -/
def serve (s : RoundTrip) (clk : Clock) : Option RoundTrip :=
  match s.pipeline.idle, s.delivery.queue with
  | true, (n, r) :: _ =>
    match s.owners[n]?, s.delivery.serve with
    | some c, some delivery => (s.pipeline.step env (.upstream c r clk)).map fun pipeline =>
      { s with pipeline := pipeline, delivery := delivery }
    | _, _ => none
  | _, _ => none

def drop (s : RoundTrip) (c : ℕ) : Option RoundTrip :=
  if s.pipeline.idle then
    (s.pipeline.step env (.drop c)).map fun pipeline => { s with pipeline := pipeline }
  else none

def step (s : RoundTrip) : RoundTripInput → Option RoundTrip
  | .loop i => s.loop env i
  | .call => s.call
  | .add => s.add
  | .returns => s.returns env
  | .serve clk => s.serve env clk
  | .drop c => s.drop env c
  | .answer w clk res => (s.delivery.answer parser w clk res).map fun delivery =>
    { s with delivery := delivery }
  | .pool i => (s.delivery.others i).map fun workers =>
    { s with delivery := { s.delivery with workers := workers } }

/-- The gateway before its first request, with a new pool. -/
def machine : TransitionSystem RoundTrip RoundTripInput where
  init s := (Pipeline.machine env).init s.pipeline ∧ (Delivery.machine parser).init s.delivery ∧
    s.called = false ∧ s.owners = []
  step := step env parser

end

/-- What the pipeline has sent. -/
def sent (s : RoundTrip) : List (ℕ × BackendCall) := s.pipeline.postings.sent

/-- Which call has sent an attempt. -/
def sender (s : RoundTrip) (n : ℕ) : Option ℕ := (s.sent[n]?).map Prod.fst

/-- The attempts that have been sent and not been answered: their callback is in the queue of the
loop, they are in the pool or with one of its threads, or `call` has still to hand them over. -/
def onTheWay (s : RoundTrip) : List ℕ :=
  s.delivery.queue.map Prod.fst ++
    (s.delivery.workers.running ++ s.delivery.workers.pool.tasks).flatMap Delivery.number ++
      (s.delivery.beingMade ++ (List.range s.sent.length).drop s.delivery.calls.length)

/-- Nothing is left to do: nothing runs, no thread has work, no callback waits to be called or to
be destroyed, and no timer is armed for a call or a request in a queue. -/
structure AtRest (s : RoundTrip) : Prop where
  delivery : s.delivery.Quiet
  stack : s.pipeline.stack = []
  calls : ∀ c call, s.pipeline.calls.lookup c = some call →
    call.promoteArmed = false ∧ call.spent = 0
  queues : ∀ ts, s.pipeline.gov.queue ts = []

variable {env : Env} {parser : JsonParser} {s s' : RoundTrip} {i : RoundTripInput} {n c : ℕ}
  {r : Response} {h : List (TransitionSystem.Step RoundTrip RoundTripInput)}

/-! ## The parts -/

/-- The pipeline takes a step of its own, or none. -/
theorem pipeline_of_step (taken : (machine env parser).step s i = some s') :
    s'.pipeline = s.pipeline ∨ ∃ k, k.asks = i.asks ∧
      (Pipeline.machine env).step s.pipeline k = some s'.pipeline := by
  cases i with
  | loop i =>
    obtain ⟨-, stepped⟩ := Option.ite_none_left_eq_some.mp taken
    obtain ⟨pipeline, step, rfl⟩ := Option.map_eq_some_iff.mp stepped
    exact .inr ⟨i, rfl, step⟩
  | call =>
    simp only [machine, step, call] at taken
    split at taken
    · split at taken
      · obtain ⟨delivery, -, rfl⟩ := Option.map_eq_some_iff.mp taken
        exact .inl rfl
      · cases taken
    · cases taken
  | add =>
    obtain ⟨delivery, -, rfl⟩ := Option.map_eq_some_iff.mp taken
    exact .inl rfl
  | returns =>
    obtain ⟨-, stepped⟩ := Option.ite_none_right_eq_some.mp taken
    obtain ⟨pipeline, step, rfl⟩ := Option.map_eq_some_iff.mp stepped
    exact .inr ⟨.backendReturns, rfl, step⟩
  | serve clk =>
    simp only [machine, step, serve] at taken
    split at taken
    · next n r _ _ _ =>
      split at taken
      · next c delivery _ _ =>
        obtain ⟨pipeline, step, rfl⟩ := Option.map_eq_some_iff.mp taken
        exact .inr ⟨.upstream c r clk, rfl, step⟩
      · cases taken
    · cases taken
  | drop c =>
    obtain ⟨-, stepped⟩ := Option.ite_none_right_eq_some.mp taken
    obtain ⟨pipeline, step, rfl⟩ := Option.map_eq_some_iff.mp stepped
    exact .inr ⟨.drop c, rfl, step⟩
  | answer w clk res =>
    obtain ⟨delivery, -, rfl⟩ := Option.map_eq_some_iff.mp taken
    exact .inl rfl
  | pool i =>
    obtain ⟨workers, -, rfl⟩ := Option.map_eq_some_iff.mp taken
    exact .inl rfl

/-- The delivery takes a step of its own, or none. -/
theorem delivery_of_step (taken : (machine env parser).step s i = some s') :
    s'.delivery = s.delivery ∨
      ∃ k, (Delivery.machine parser).step s.delivery k = some s'.delivery := by
  cases i with
  | loop i =>
    obtain ⟨-, stepped⟩ := Option.ite_none_left_eq_some.mp taken
    obtain ⟨pipeline, -, rfl⟩ := Option.map_eq_some_iff.mp stepped
    exact .inl rfl
  | call =>
    simp only [machine, step, call] at taken
    split at taken
    · split at taken
      · next call _ =>
        obtain ⟨delivery, step, rfl⟩ := Option.map_eq_some_iff.mp taken
        exact .inr ⟨.call (PipelineState.makeBackendCall call), step⟩
      · cases taken
    · cases taken
  | add =>
    obtain ⟨delivery, step, rfl⟩ := Option.map_eq_some_iff.mp taken
    exact .inr ⟨.add, step⟩
  | returns =>
    obtain ⟨-, stepped⟩ := Option.ite_none_right_eq_some.mp taken
    obtain ⟨pipeline, -, rfl⟩ := Option.map_eq_some_iff.mp stepped
    exact .inl rfl
  | serve clk =>
    simp only [machine, step, serve] at taken
    split at taken
    · split at taken
      · next c delivery _ served =>
        obtain ⟨pipeline, -, rfl⟩ := Option.map_eq_some_iff.mp taken
        exact .inr ⟨.serve, served⟩
      · cases taken
    · cases taken
  | drop c =>
    obtain ⟨-, stepped⟩ := Option.ite_none_right_eq_some.mp taken
    obtain ⟨pipeline, -, rfl⟩ := Option.map_eq_some_iff.mp stepped
    exact .inl rfl
  | answer w clk res =>
    obtain ⟨delivery, step, rfl⟩ := Option.map_eq_some_iff.mp taken
    exact .inr ⟨.answer w clk res, step⟩
  | pool i =>
    obtain ⟨workers, others, rfl⟩ := Option.map_eq_some_iff.mp taken
    refine .inr ⟨.pool i, ?_⟩
    change (s.delivery.others i).map _ = _
    rw [others]
    rfl

theorem pipeline_of_run (run : (machine env parser).Run h s) :
    ∃ h', (Pipeline.machine env).Run h' s.pipeline :=
  run.project (f := pipeline) (fun _ first => first.1) fun _ _ _ taken =>
    (pipeline_of_step taken).imp_right fun ⟨k, _, step⟩ => ⟨k, step⟩

theorem ok_of_run (run : (machine env parser).Run h s) : (s.pipeline.core .empty).Ok env := by
  obtain ⟨h', projected⟩ := pipeline_of_run run
  exact PipelineState.ok_of_run projected

theorem kept_of_run (run : (machine env parser).Run h s) : Delivery.Kept parser s.delivery := by
  obtain ⟨h', projected⟩ := run.project (f := delivery) (fun _ first => first.2.1)
    fun _ _ _ taken => delivery_of_step taken
  exact Delivery.kept_of_run projected

/-! ## What is kept -/

/-- The attempts that have been handed to the backends. -/
def handed (s : RoundTrip) : List (ℕ × BackendCall) := s.owners.zip s.delivery.calls

/-- The calls whose callbacks have been called. -/
def heard (s : RoundTrip) : List (Option ℕ) := s.delivery.given.map fun reply => s.owners[reply.1]?

/-- Where the loop is: in no backend, about to enter one, or in it. -/
inductive Place (s : RoundTrip) : Prop
  | outside : s.pipeline.postings.entered = [] → s.called = false → s.delivery.adding = none →
      s.sent = s.handed → Place s
  | entering (c : ℕ) (call : Call) (below : List PipelineFrame) :
      s.pipeline.stack = .inBackend c :: below → s.pipeline.calls.lookup c = some call →
      s.pipeline.postings.entered = [c] → s.called = false → s.delivery.adding = none →
      s.sent = s.handed ++ [(c, PipelineState.makeBackendCall call)] → Place s
  | inside (c : ℕ) (below : List PipelineFrame) : s.pipeline.stack = .inBackend c :: below →
      s.pipeline.postings.entered = [c] → s.called = true → s.sent = s.handed → Place s

/-- A call waits for as many callbacks as it has sent attempts and not heard of. -/
def Balances (b : Postings) (heard : List (Option ℕ)) : Prop :=
  ∀ c, (b.sent.map Prod.fst).count c = heard.count (some c) + b.pending c

structure Linked (s : RoundTrip) : Prop where
  lengths : s.owners.length = s.delivery.calls.length
  place : s.Place
  calm : s.delivery.thrown = []
  balance : Balances s.pipeline.postings s.heard

section
variable {b : Postings} {heard : List (Option ℕ)}

theorem Balances.post (balances : Balances b heard) (c : ℕ) (bc : BackendCall) :
    Balances (b.post c bc) heard := by
  intro c'
  have before := balances c'
  simp only [Postings.post, List.map_append, List.count_append, List.map_singleton,
    Function.update_apply]
  by_cases same : c' = c
  · rw [same] at before ⊢
    rw [List.count_singleton_self, if_pos rfl]
    omega
  · rw [List.count_singleton, if_neg (by simpa using Ne.symm same), if_neg same]
    omega

theorem Balances.hear (balances : Balances b heard) (waits : 0 < b.pending c) :
    Balances (b.hear c) (heard ++ [some c]) := by
  intro c'
  have before := balances c'
  simp only [Postings.hear, Postings.wait, List.count_append, Function.update_apply]
  by_cases same : c' = c
  · rw [same] at before ⊢
    rw [List.count_singleton_self, if_pos rfl]
    omega
  · rw [List.count_singleton, if_neg (by simpa using Ne.symm same), if_neg same]
    omega

theorem Balances.of_posts {p p' : PipelineState} (balances : Balances p.postings heard)
    (posts : p.Posts p') : Balances p'.postings heard := by
  rcases posts with same | ⟨c, call, below, -, -, same⟩
  · rw [same]
    exact balances
  · rw [same]
    exact balances.post c _

end

/-- The loop is in no backend while its stack is empty. -/
theorem Place.outside_of (place : s.Place)
    (free : ∀ c below, s.pipeline.stack ≠ .inBackend c :: below) :
    s.pipeline.postings.entered = [] ∧ s.called = false ∧ s.delivery.adding = none ∧
      s.sent = s.handed := by
  cases place with
  | outside entered called adding sent => exact ⟨entered, called, adding, sent⟩
  | entering c call below top | inside c below top => exact absurd top (free c below)

/-- After the pipeline has done something, the loop is in no backend or about to enter one. -/
theorem place_of_posts {p : PipelineState} (entered : p.postings.entered = [])
    (called : s.called = false) (adding : s.delivery.adding = none)
    (sent : p.postings.sent = s.handed) (posts : p.Posts s.pipeline) : s.Place := by
  rcases posts with same | ⟨c, call, below, stored, top, same⟩
  · exact .outside (same ▸ entered) called adding ((congrArg Postings.sent same).trans sent)
  · refine .entering c call below top stored ?_ called adding ?_
    · rw [same, Postings.post, entered]
    · rw [RoundTrip.sent, same, Postings.post, sent]

theorem Linked.loop (linked : s.Linked) (ok : (s.pipeline.core .empty).Ok env)
    {k : PipelineInput} (taken : s.loop env k = some s') : s'.Linked := by
  obtain ⟨own, stepped⟩ := Option.ite_none_left_eq_some.mp taken
  obtain ⟨pipeline, step, rfl⟩ := Option.map_eq_some_iff.mp stepped
  obtain ⟨free, posts⟩ := PipelineState.posts_step ok (by simpa using own) step
  obtain ⟨entered, called, adding, sent⟩ := linked.place.outside_of free
  exact ⟨linked.lengths, place_of_posts (s := { s with pipeline := pipeline }) entered called adding
    sent posts, linked.calm, linked.balance.of_posts posts⟩

theorem Linked.call (linked : s.Linked) (kept : Delivery.Kept parser s.delivery)
    (taken : s.call = some s') : s'.Linked := by
  unfold RoundTrip.call at taken
  split at taken
  case h_2 => cases taken
  next c below uncalled top =>
  split at taken
  case h_2 => cases taken
  next call stored =>
  obtain ⟨delivery, step, rfl⟩ := Option.map_eq_some_iff.mp taken
  obtain ⟨-, calls, given, thrown⟩ := Delivery.call_spec step
  cases linked.place with
  | outside entered =>
    change List.filterMap PipelineFrame.entered s.pipeline.stack = [] at entered
    rw [top] at entered
    cases entered
  | inside _ _ _ _ called =>
    rw [called] at uncalled
    cases uncalled
  | entering c' call' below' top' stored' entered _ _ sent =>
    obtain ⟨⟨rfl⟩, rfl⟩ := List.cons.inj (top.symm.trans top')
    obtain rfl := Option.some.inj (stored.symm.trans stored')
    refine ⟨?_, .inside c below top entered rfl ?_, thrown.trans linked.calm, ?_⟩
    · dsimp only
      rw [calls, List.length_append, List.length_append, linked.lengths]
      rfl
    · refine sent.trans ?_
      rw [handed, handed, calls, List.zip_append linked.lengths]
      rfl
    · -- the callbacks that have been called belong to earlier calls
      have same : RoundTrip.heard { s with
          delivery := delivery, called := true, owners := s.owners ++ [c] } = s.heard := by
        simp only [RoundTrip.heard, given]
        refine List.map_congr_left fun reply member => ?_
        obtain ⟨bc, found, -⟩ := kept.answers reply (List.mem_append_left _ member)
        refine List.getElem?_append_left ?_
        rw [linked.lengths]
        exact (List.getElem?_eq_some_iff.mp found).1
      rw [same]
      exact linked.balance

/-- The delivery goes on, and nothing is called. -/
theorem Linked.deliver (linked : s.Linked) {delivery : Delivery}
    (adding : delivery.adding = none ∨ delivery.adding = s.delivery.adding)
    (calls : delivery.calls = s.delivery.calls) (given : delivery.given = s.delivery.given)
    (thrown : delivery.thrown = s.delivery.thrown) : Linked { s with delivery := delivery } := by
  have same : handed { s with delivery := delivery } = s.handed := by
    rw [handed, handed, calls]
  refine ⟨linked.lengths.trans (congrArg List.length calls.symm), ?_, thrown.trans linked.calm, ?_⟩
  · cases linked.place with
    | outside entered called idle sent =>
      refine .outside entered called ?_ (sent.trans same.symm)
      exact adding.elim id fun kept => kept.trans idle
    | entering c call below top stored entered called idle sent =>
      refine .entering c call below top stored entered called ?_ ?_
      · exact adding.elim id fun kept => kept.trans idle
      · rw [same]
        exact sent
    | inside c below top entered called sent =>
      exact .inside c below top entered called (sent.trans same.symm)
  · have heard : RoundTrip.heard { s with delivery := delivery } = s.heard := by
      simp only [RoundTrip.heard, given]
    rw [heard]
    exact linked.balance

theorem Linked.returns (linked : s.Linked) (taken : s.returns env = some s') : s'.Linked := by
  obtain ⟨done, stepped⟩ := Option.ite_none_right_eq_some.mp taken
  obtain ⟨pipeline, step, rfl⟩ := Option.map_eq_some_iff.mp stepped
  obtain ⟨called, idle⟩ := Bool.and_eq_true _ _ |>.mp done
  obtain ⟨c, below, top, rfl⟩ := PipelineState.stack_of_returns step
  cases linked.place with
  | outside _ uncalled | entering _ _ _ _ _ _ uncalled =>
    rw [uncalled] at called
    cases called
  | inside c' below' top' entered _ sent =>
    change List.filterMap PipelineFrame.entered s.pipeline.stack = [c'] at entered
    rw [top] at entered
    refine ⟨linked.lengths, .outside ?_ rfl (Option.isNone_iff_eq_none.mp idle) sent, linked.calm,
      linked.balance⟩
    exact (List.cons.inj entered).2

/-- Nothing runs, so the loop is in no backend. -/
theorem free_of_idle (idle : s.pipeline.idle = true) :
    ∀ c below, s.pipeline.stack ≠ .inBackend c :: below := by
  intro c below top
  rw [PipelineState.idle, top] at idle
  cases idle

theorem Linked.serve (linked : s.Linked) {clk : Clock} (taken : s.serve env clk = some s') :
    s'.Linked := by
  unfold RoundTrip.serve at taken
  split at taken
  case h_2 => cases taken
  next n r queue idle front =>
  split at taken
  case h_2 => cases taken
  next c delivery owner served =>
  obtain ⟨pipeline, step, rfl⟩ := Option.map_eq_some_iff.mp taken
  obtain ⟨reply, queue', _, front', rfl⟩ := Delivery.serve_spec served
  obtain ⟨rfl, rfl⟩ := List.cons.inj (front.symm.trans front')
  obtain ⟨entered, called, adding, sent⟩ := linked.place.outside_of (free_of_idle idle)
  obtain ⟨waits, p, hears, _, posts⟩ := PipelineState.posts_upstream step
  refine ⟨linked.lengths, place_of_posts ?_ called adding ?_ posts, linked.calm, ?_⟩
  · rw [hears]
    exact entered
  · rw [hears]
    exact sent
  · have balance := linked.balance.hear waits
    rw [← hears] at balance
    have heard : RoundTrip.heard { s with
        pipeline := pipeline
        delivery := { s.delivery with queue := queue, given := s.delivery.given ++ [(n, r)] } } =
        s.heard ++ [some c] := by
      rw [RoundTrip.heard, List.map_append, ← owner]
      rfl
    rw [heard]
    exact balance.of_posts posts

theorem Linked.drop (linked : s.Linked) {c : ℕ} (taken : s.drop env c = some s') : s'.Linked := by
  obtain ⟨idle, stepped⟩ := Option.ite_none_right_eq_some.mp taken
  obtain ⟨pipeline, step, rfl⟩ := Option.map_eq_some_iff.mp stepped
  have same := PipelineState.postings_drop step
  obtain ⟨entered, called, adding, sent⟩ := linked.place.outside_of (free_of_idle idle)
  exact ⟨linked.lengths, place_of_posts (s := { s with pipeline := pipeline }) entered called adding
    sent (.of_eq same), linked.calm, linked.balance.of_posts (.of_eq same)⟩

theorem Linked.step (linked : s.Linked) (ok : (s.pipeline.core .empty).Ok env)
    (kept : Delivery.Kept parser s.delivery)
    (taken : (machine env parser).step s i = some s') : s'.Linked := by
  cases i with
  | loop k => exact linked.loop ok taken
  | call => exact linked.call kept taken
  | returns => exact linked.returns taken
  | serve clk => exact linked.serve taken
  | drop c => exact linked.drop taken
  | add =>
    obtain ⟨delivery, step, rfl⟩ := Option.map_eq_some_iff.mp taken
    obtain ⟨adding, calls, given, thrown⟩ := Delivery.add_spec step
    exact linked.deliver (.inl adding) calls given thrown
  | answer w clk res =>
    obtain ⟨delivery, step, rfl⟩ := Option.map_eq_some_iff.mp taken
    obtain ⟨adding, calls, given, thrown⟩ := Delivery.answer_spec step
    exact linked.deliver (.inr adding) calls given thrown
  | pool k =>
    obtain ⟨workers, -, rfl⟩ := Option.map_eq_some_iff.mp taken
    exact linked.deliver (.inr rfl) rfl rfl rfl

theorem linked_of_run (run : (machine env parser).Run h s) : s.Linked := by
  induction run with
  | start first =>
    obtain ⟨⟨health, index, grants, fresh⟩, ⟨numThreads, maxQueue, new⟩, called, owners⟩ := first
    have posted : (PipelineState.initial env health index grants).postings = ⟨[], [], fun _ => 0⟩ :=
      rfl
    refine ⟨?_, .outside ?_ called ?_ ?_, ?_, fun c => ?_⟩
    · rw [owners, new]
      rfl
    · rw [fresh]
      rfl
    · rw [new]
    · rw [sent, handed, fresh, owners]
      rfl
    · rw [new]
    · rw [fresh, posted, RoundTrip.heard, new]
      rfl
  | next before taken ih => exact ih.step (ok_of_run before) (kept_of_run before) taken

/-! ## What is on the way -/

/-- What has been handed to the backends was sent first, in the same order. -/
theorem Linked.begins (linked : s.Linked) : s.handed <+: s.sent := by
  cases linked.place with
  | outside _ _ _ sent | inside _ _ _ _ _ sent => exact sent ▸ List.prefix_rfl
  | entering _ _ _ _ _ _ _ _ sent => exact sent ▸ List.prefix_append ..

theorem Linked.length_calls (linked : s.Linked) : s.delivery.calls.length ≤ s.sent.length := by
  have shorter := linked.begins.length_le
  rw [handed, List.length_zip, linked.lengths, Nat.min_self] at shorter
  exact shorter

/-- A call of a backend was made for an attempt. -/
theorem Linked.sent_of_call (linked : s.Linked) {bc : BackendCall}
    (found : s.delivery.calls[n]? = some bc) :
    ∃ c, s.owners[n]? = some c ∧ s.sent[n]? = some (c, bc) := by
  have within : n < s.owners.length := by
    rw [linked.lengths]
    exact (List.getElem?_eq_some_iff.mp found).1
  have both : s.handed[n]? = some (s.owners[n], bc) :=
    List.getElem?_zip_eq_some.mpr ⟨List.getElem?_eq_getElem within, found⟩
  obtain ⟨rest, same⟩ := linked.begins
  refine ⟨s.owners[n], List.getElem?_eq_getElem within, ?_⟩
  rw [← same, List.getElem?_append_left (List.getElem?_eq_some_iff.mp both).1, both]

/-- A callback belongs to the call that has sent the attempt. -/
theorem Linked.heard_eq (linked : s.Linked) (kept : Delivery.Kept parser s.delivery) :
    s.heard = (s.delivery.given.map Prod.fst).map s.sender := by
  rw [RoundTrip.heard, List.map_map]
  refine List.map_congr_left fun reply member => ?_
  obtain ⟨bc, found, -⟩ := kept.answers reply (List.mem_append_left _ member)
  obtain ⟨c, owner, sent⟩ := linked.sent_of_call found
  rw [owner, Function.comp_apply, sender, sent]
  rfl

/-- Every attempt has been answered, or is on its way, at one place. -/
theorem Linked.once (linked : s.Linked) (kept : Delivery.Kept parser s.delivery) :
    (s.delivery.given.map Prod.fst ++ s.onTheWay).Perm (List.range s.sent.length) := by
  have split : List.range s.sent.length = List.range s.delivery.calls.length ++
      (List.range s.sent.length).drop s.delivery.calls.length := by
    have first : (List.range s.sent.length).take s.delivery.calls.length =
        List.range s.delivery.calls.length := by
      rw [List.take_range, Nat.min_eq_left linked.length_calls]
    rw [← first, List.take_append_drop]
  have books := kept.perm
  rw [Delivery.settled, linked.calm, List.append_nil, List.map_append] at books
  rw [split, onTheWay]
  refine List.Perm.trans ?_ (books.symm.append_right _)
  simp only [List.append_assoc]
  refine List.Perm.append_left _ (List.Perm.append_left _ ?_)
  rw [← List.append_assoc, ← List.append_assoc]
  exact List.perm_append_comm.append_right _

/-- A call waits for the attempts that it has on the way. -/
theorem Linked.pending (linked : s.Linked) (kept : Delivery.Kept parser s.delivery) (c : ℕ) :
    s.pipeline.postings.pending c = (s.onTheWay.map s.sender).count (some c) := by
  have all : (List.range s.sent.length).map s.sender = (s.sent.map Prod.fst).map some := by
    refine List.ext_getElem (by simp) fun n _ within => ?_
    rw [List.length_map, List.length_map] at within
    simp [sender, List.getElem?_eq_getElem within]
  have counted := ((linked.once kept).map s.sender).count_eq (some c)
  rw [all, List.count_map_of_injective _ _ (Option.some_injective ℕ), List.map_append,
    List.count_append, ← linked.heard_eq kept] at counted
  have balance : (s.sent.map Prod.fst).count c = _ := linked.balance c
  omega

/-- A callback that waits in the queue of the loop is that of a call which waits for it. -/
theorem Linked.alive (linked : s.Linked) (kept : Delivery.Kept parser s.delivery)
    (queued : (n, r) ∈ s.delivery.queue) : ∃ c bc call, s.sent[n]? = some (c, bc) ∧
      Delivery.Answers parser bc r ∧ s.pipeline.calls.lookup c = some call ∧ 0 < call.pending := by
  obtain ⟨bc, found, answers⟩ := kept.answers (n, r) (List.mem_append_right _ queued)
  obtain ⟨c, -, sent⟩ := linked.sent_of_call found
  have member : some c ∈ s.onTheWay.map s.sender := by
    refine List.mem_map.mpr ⟨n, ?_, by rw [sender, sent]; rfl⟩
    refine List.mem_append_left _ (List.mem_append_left _ ?_)
    exact List.mem_map_of_mem queued
  have waits : 0 < s.pipeline.postings.pending c := by
    rw [linked.pending kept]
    exact List.count_pos_iff.mpr member
  cases stored : s.pipeline.calls.lookup c with
  | none =>
    rw [PipelineState.pending_of_absent stored] at waits
    cases waits
  | some call =>
    rw [PipelineState.pending_of_lookup stored] at waits
    exact ⟨c, bc, call, sent, answers, stored, waits⟩

/-- Every attempt is at one place, its answer is one to it, and whoever has sent it waits for it. -/
structure Returns (parser : JsonParser) (s : RoundTrip) : Prop where
  once : (s.delivery.given.map Prod.fst ++ s.onTheWay).Perm (List.range s.sent.length)
  given : ∀ n r, (n, r) ∈ s.delivery.given → ∃ c bc, s.sent[n]? = some (c, bc) ∧
    Delivery.Answers parser bc r
  queued : ∀ n r, (n, r) ∈ s.delivery.queue → ∃ c bc call, s.sent[n]? = some (c, bc) ∧
    Delivery.Answers parser bc r ∧ s.pipeline.calls.lookup c = some call ∧ 0 < call.pending
  waits : ∀ c call, s.pipeline.calls.lookup c = some call →
    call.pending = (s.onTheWay.map s.sender).count (some c)

/-- In every run each attempt is answered once, to the call that has sent it and with an answer to
what it has sent. The call is there as long as the attempt is on its way. -/
theorem heard_of_run (run : (machine env parser).Run h s) : s.Returns parser := by
  have linked := linked_of_run run
  have kept := kept_of_run run
  refine ⟨linked.once kept, fun n r member => ?_, fun n r member => linked.alive kept member,
    fun c call stored => ?_⟩
  · obtain ⟨bc, found, answers⟩ := kept.answers (n, r) (List.mem_append_left _ member)
    obtain ⟨c, -, sent⟩ := linked.sent_of_call found
    exact ⟨c, bc, sent, answers⟩
  · rw [← PipelineState.pending_of_lookup stored]
    exact linked.pending kept c

/-! ## When nothing is left to do -/

/-- Nothing is on its way. -/
theorem Linked.onTheWay_eq (linked : s.Linked) (kept : Delivery.Kept parser s.delivery)
    (quiet : s.delivery.Quiet) (free : s.pipeline.stack = []) : s.onTheWay = [] := by
  obtain ⟨-, -, -, sent⟩ := linked.place.outside_of fun c below top => by
    rw [free] at top
    cases top
  have all := kept.perm_of_quiet quiet
  rw [linked.calm, List.append_nil] at all
  have length : s.sent.length = s.delivery.calls.length := by
    rw [sent, handed, List.length_zip, linked.lengths, Nat.min_self]
  have counted := (linked.once kept).length_eq
  rw [List.length_append, all.length_eq, List.length_range, List.length_range, length] at counted
  exact List.length_eq_zero_iff.mp (by omega)

/-- A new gateway with one thread. -/
def start : RoundTrip where
  pipeline := PipelineExample.start {}
  delivery := { workers := { pool := .make 1 1 } }

theorem allUtf8_of_noText {text : String} {j : Json}
    (parsed : (fun _ : String => (none : Option Json)) text = some j) : j.allUtf8 = true := by
  cases parsed

/-- No text is JSON. -/
def noJson : JsonParser where
  parse _ := none
  utf8 := @allUtf8_of_noText

theorem start_init : (machine (PipelineExample.gateway {}) noJson).init start :=
  ⟨PipelineExample.start_init _, ⟨1, 1, rfl⟩, rfl, rfl⟩

open PipelineExample in
/-- A request is sent upstream, which cannot be reached. -/
def unreached : List RoundTripInput :=
  [.loop (.handle (PipelineExample.call "b__t" 1) clk), .call, .add, .returns, .loop (.run clk),
    .pool (.look 0), .pool (.notifyOne none), .answer 0 clk {}]

open PipelineExample in
/-- It is tried again while the thread does not wait yet. -/
def triedAgain : List RoundTripInput :=
  unreached ++ [.serve clk, .call, .add, .returns, .drop 0, .loop (.run clk), .pool (.look 0),
    .pool (.notifyOne none), .answer 0 clk {}]

theorem heard_of_run_triedAgain : ∃ s : RoundTrip, s.sent.length = 2 ∧
    s.delivery.queue.length = 1 ∧ s.Returns noJson := by
  obtain ⟨h, s, run, -, reached⟩ := TransitionSystem.exists_run triedAgain (fun _ _ => true)
    (fun s : RoundTrip => s.sent.length = 2 && s.delivery.queue.length = 1) start_init
    (by decide +kernel)
  simp only [Bool.and_eq_true, decide_eq_true_eq] at reached
  exact ⟨s, reached.1, reached.2, heard_of_run run⟩

/-- Nobody refers to a call any more. -/
theorem Linked.calls_eq_empty (linked : s.Linked) (kept : Delivery.Kept parser s.delivery)
    (ok : (s.pipeline.core .empty).Ok env) (rest : s.AtRest) : s.pipeline.calls = ∅ := by
  refine UnorderedMap.eq_empty_iff.mpr fun c => ?_
  refine Option.eq_none_iff_forall_ne_some.mpr fun call stored => ?_
  have held : 0 < call.refs s.pipeline.stack c := ok.references.held stored
  obtain ⟨unarmed, dropped⟩ := rest.calls c call stored
  have heard : call.pending = 0 := by
    rw [← PipelineState.pending_of_lookup stored, linked.pending kept,
      linked.onTheWay_eq kept rest.delivery rest.stack]
    rfl
  simp [Call.refs, rest.stack, unarmed, heard, dropped, unrefs] at held

/-- A request that no call owns and that is in no queue has been answered. -/
theorem AtRest.answered (rest : s.AtRest) (ok : (s.pipeline.core .empty).Ok env)
    (none : s.pipeline.calls = ∅) {rid : ℕ} (known : rid < s.pipeline.nextRequest) :
    answersTo rid s.pipeline.log + throwsOf rid s.pipeline.log = 1 := by
  have places := PipelineState.places_of_ok ok rid
  have unqueued : LocalGovernor.waiting (fun w => decide (w.onDone.rid = rid))
      s.pipeline.gov = 0 := by
    refine Nat.eq_zero_of_not_pos fun some => ?_
    obtain ⟨ts, w, member, -⟩ := (LocalGovernor.waiting_pos_iff _).mp some
    rw [rest.queues ts] at member
    cases member
  rw [decide_eq_true known, unqueued, none, UnorderedMap.total_empty] at places
  exact places

/-- When nothing is left to do, no call lives, nothing is held and nothing is in the tables, and
every request has been answered once, unless its handling has thrown. -/
theorem settled_of_run (run : (machine env parser).Run h s) (rest : s.AtRest) :
    s.pipeline.Clear ∧ ∀ rid req, .request rid req ∈ s.pipeline.log →
      answersTo rid s.pipeline.log + throwsOf rid s.pipeline.log = 1 := by
  have ok := ok_of_run run
  have none := (linked_of_run run).calls_eq_empty (kept_of_run run) ok rest
  exact ⟨PipelineState.clear_of_calls ok none, fun rid req received =>
    rest.answered ok none (ok.orderly.numbered.request received)⟩

open PipelineExample in
/-- The second answer goes to the client. -/
def givenUp : List RoundTripInput :=
  triedAgain ++ [.pool (.look 0), .serve clk, .drop 0, .loop (.run clk), .loop (.run clk)]

/-- A test of whether anything is left to do: no call is kept and nobody waits in a queue. -/
def resting (s : RoundTrip) : Bool :=
  s.delivery.adding.isNone && s.delivery.queue.isEmpty && s.delivery.workers.notices = 0 &&
    0 < s.delivery.workers.numThreads &&
      (List.range s.delivery.workers.numThreads).all
        (fun w => Workers.isWaiting (s.delivery.workers.workers w)) &&
        s.pipeline.stack.isEmpty && s.pipeline.calls.entries.isEmpty &&
          s.pipeline.gov.queues.entries.isEmpty

theorem atRest_of_resting (resting : s.resting = true) : s.AtRest := by
  simp only [RoundTrip.resting, Bool.and_eq_true, decide_eq_true_eq, Option.isNone_iff_eq_none,
    List.isEmpty_iff, List.all_eq_true, List.mem_range] at resting
  obtain ⟨⟨⟨⟨⟨⟨⟨made, empty⟩, still⟩, threads⟩, waits⟩, stack⟩, gone⟩, unqueued⟩ := resting
  refine ⟨⟨made, empty, still, threads, fun w lt => .inl (Workers.isWaiting_iff.mp (waits w lt))⟩,
    stack, fun c call stored => ?_, fun ts => ?_⟩
  · have member := UnorderedMap.mem_entries_iff.mpr stored
    rw [gone] at member
    cases member
  · have none : s.pipeline.gov.queues = ∅ := AList.ext unqueued
    rw [LocalGovernor.queue, none]
    exact UnorderedMap.getD_empty ..

theorem settled_of_run_givenUp : ∃ s : RoundTrip, s.sent.length = 2 ∧ s.pipeline.Clear ∧
    answersTo 0 s.pipeline.log + throwsOf 0 s.pipeline.log = 1 := by
  obtain ⟨h, s, run, -, reached⟩ := TransitionSystem.exists_run givenUp (fun _ _ => true)
    (fun s : RoundTrip => s.sent.length = 2 && s.pipeline.log.any (·.isRequest 0) && s.resting)
    start_init (by decide +kernel)
  simp only [Bool.and_eq_true, decide_eq_true_eq] at reached
  obtain ⟨⟨twice, arrived⟩, resting⟩ := reached
  obtain ⟨req, received⟩ := exists_request arrived
  obtain ⟨clear, answered⟩ := settled_of_run run (atRest_of_resting resting)
  exact ⟨s, twice, clear, answered 0 req received⟩

/-! ## The load of the upstreams -/

/-- How many attempts are on the way that calls with a property have sent. -/
def load (s : RoundTrip) (p : Call → Bool) : ℕ :=
  (s.onTheWay.filterMap s.sender).countP fun c => (s.pipeline.calls.lookup c).any p

/-- What is on the way belongs to live calls, one attempt to each, and is no more than a
configuration allows. -/
structure Loaded (cfg : YamlConfig) (s : RoundTrip) : Prop where
  known : ∀ n ∈ s.onTheWay, ∃ c call, s.sender n = some c ∧
    s.pipeline.calls.lookup c = some call
  single : (s.onTheWay.filterMap s.sender).Nodup
  tool : ∀ ts, (s.load fun call => decide (call.key.str = ts) : ℤ) ≤ max 0 (cfg.ceiling ts)
  agent : ∀ a, (s.load fun call => decide (call.req.who.agentId = a) : ℤ) ≤
    max 0 cfg.perPrincipalConcurrency

/-- A call has no second attempt on the way. -/
theorem Linked.single (linked : s.Linked) (kept : Delivery.Kept parser s.delivery)
    (ok : (s.pipeline.core .empty).Ok env) : (s.onTheWay.filterMap s.sender).Nodup := by
  refine List.nodup_iff_count_le_one.mpr fun c => ?_
  have counted : (s.onTheWay.filterMap s.sender).count c =
      (s.onTheWay.map s.sender).count (some c) := by
    rw [List.count_filterMap, List.count_eq_countP, List.countP_map]
    rfl
  rw [counted, ← linked.pending kept]
  cases stored : s.pipeline.calls.lookup c with
  | none =>
    rw [PipelineState.pending_of_absent stored]
    exact Nat.zero_le _
  | some call =>
    rw [PipelineState.pending_of_lookup stored]
    exact (ok.orderly.underway c call stored).pending

theorem load_le_callsWhere (single : (s.onTheWay.filterMap s.sender).Nodup) (p : Call → Bool) :
    s.load p ≤ s.pipeline.callsWhere p := by
  rw [load, List.countP_eq_length_filter]
  refine UnorderedMap.length_le_total (single.filter _) fun c member => ?_
  obtain ⟨call, stored, holds⟩ := (Option.any_eq_true ..).mp (List.mem_filter.mp member).2
  exact ⟨call, stored, by rw [holds]; exact Nat.one_pos⟩

/-- Whatever is on the way has been sent by a call that waits for it. -/
theorem Linked.known (linked : s.Linked) (kept : Delivery.Kept parser s.delivery)
    (member : n ∈ s.onTheWay) : ∃ c call, s.sender n = some c ∧
      s.pipeline.calls.lookup c = some call := by
  have within : n < s.sent.length := by
    refine List.mem_range.mp ((linked.once kept).subset ?_)
    exact List.mem_append_right _ member
  have sent : s.sender n = some s.sent[n].1 := by
    rw [sender, List.getElem?_eq_getElem within]
    rfl
  have waits : 0 < s.pipeline.postings.pending s.sent[n].1 := by
    rw [linked.pending kept, ← sent]
    exact List.count_pos_iff.mpr (List.mem_map_of_mem member)
  cases stored : s.pipeline.calls.lookup s.sent[n].1 with
  | none =>
    rw [PipelineState.pending_of_absent stored] at waits
    cases waits
  | some call => exact ⟨_, call, sent, stored⟩

/-- In every run the attempts at a tool, or for a principal, that are on the way at any time are
no more than the governor grants. -/
theorem loaded_of_run (run : (machine env parser).Run h s) : s.Loaded env.cfg := by
  have linked := linked_of_run run
  have kept := kept_of_run run
  have ok := ok_of_run run
  have single := linked.single kept ok
  obtain ⟨h', projected⟩ := pipeline_of_run run
  have bounded := PipelineState.bounded_of_limited ok (PipelineState.limited_of_run projected)
  refine ⟨fun n member => linked.known kept member, single, fun ts => ?_, fun a => ?_⟩
  · exact (Int.ofNat_le.mpr (load_le_callsWhere single _)).trans (bounded.tool ts)
  · exact (Int.ofNat_le.mpr (load_le_callsWhere single _)).trans (bounded.agent a)

theorem loaded_of_run_triedAgain : ∃ s : RoundTrip,
    (s.load fun call => decide (call.req.who.agentId = "ann")) = 1 ∧ s.Loaded {} := by
  obtain ⟨h, s, run, -, reached⟩ := TransitionSystem.exists_run triedAgain (fun _ _ => true)
    (fun s : RoundTrip => (s.load fun call => decide (call.req.who.agentId = "ann")) = 1)
    start_init (by decide +kernel)
  exact ⟨s, of_decide_eq_true reached, loaded_of_run run⟩

end RoundTrip

end Perfacet
