import Perfacet.Pipeline.Facets
import Perfacet.Pipeline.Simulation.Steps

/-!
# What holds in every run

The invariant of the core, said of the pipeline: in every state of every run requests are
answered once, the tables agree with the live calls, attempts are bounded, and nothing goes
upstream that was not allowed to.

## Main results

* `answered_exactly_once` — every request has one answer once nobody keeps it
* `calls_conserved` — permits, tables and live calls agree
* `retries_restrained` — how often and when a call tries again
* `completely_mediated` — what goes upstream was allowed, and what is refused leaves no trace
-/

namespace Perfacet

variable {env : Env} {h : List (TransitionSystem.Step PipelineState PipelineInput)}
  {s s' : PipelineState} {c rid : ℕ} {req : Request}

/-! ## Answers -/

/-- Where a request that was received is. -/
theorem PipelineState.places_of_ok (ok : (s.core .empty).Ok env) (rid : ℕ) :
    answersTo rid s.log + throwsOf rid s.log +
      LocalGovernor.waiting (fun w => decide (w.onDone.rid = rid)) s.gov +
        UnorderedMap.total (fun _ call => call.owes rid) s.calls =
      (decide (rid < s.nextRequest)).toNat :=
  ok.orderly.settled rid

theorem PipelineState.answersTo_le_one (ok : (s.core .empty).Ok env) (rid : ℕ) :
    answersTo rid s.log ≤ 1 := by
  have places := places_of_ok ok rid
  have bound := Bool.toNat_le (decide (rid < s.nextRequest))
  omega

theorem throwsOf_eq_zero_iff {log : List PipelineEvent} :
    throwsOf rid log = 0 ↔ .threw rid ∉ log := by
  rw [throwsOf, List.countP_eq_zero]
  constructor
  · intro none member
    exact none _ member (decide_eq_true rfl)
  · intro returned e member thrown
    cases e with
    | threw rid' => exact returned (of_decide_eq_true thrown ▸ member)
    | _ => cases thrown

/-- Every request whose handling did not throw is answered at most once, and once it has been
answered unless it waits in a queue or a live call owns it. -/
theorem answered_exactly_once (run : (Pipeline.machine env).Run h s)
    (received : .request rid req ∈ s.log) (returned : .threw rid ∉ s.log) :
    answersTo rid s.log ≤ 1 ∧
      ((∀ ts, ∀ w ∈ s.gov.queue ts, w.cb.onDone.rid ≠ rid) →
        (∀ c call, s.calls.lookup c = some call → call.onDone.rid ≠ rid) →
        answersTo rid s.log = 1) := by
  have ok := PipelineState.ok_of_run run
  have known : rid < s.nextRequest := ok.orderly.numbered.request received
  have places := PipelineState.places_of_ok ok rid
  rw [decide_eq_true known] at places
  have quiet : throwsOf rid s.log = 0 := throwsOf_eq_zero_iff.mpr returned
  refine ⟨PipelineState.answersTo_le_one ok rid, fun unqueued unowned => ?_⟩
  -- nobody waits for the request, and no call belongs to it
  have none : LocalGovernor.waiting (fun w => decide (w.onDone.rid = rid)) s.gov = 0 := by
    refine Nat.eq_zero_of_not_pos fun some => ?_
    obtain ⟨ts, w, member, same⟩ := (LocalGovernor.waiting_pos_iff _).mp some
    exact unqueued ts w member (of_decide_eq_true same)
  have free : UnorderedMap.total (fun _ call => call.owes rid) s.calls = 0 := by
    refine UnorderedMap.total_eq_zero_iff.mpr fun c call stored => ?_
    simp [Call.owes, unowned c call stored]
  rw [quiet, none, free] at places
  simpa using places

/-- The event is the arrival of request `rid`. -/
def PipelineEvent.isRequest (rid : ℕ) : PipelineEvent → Bool
  | .request rid' _ => decide (rid' = rid)
  | _ => false

theorem exists_request {log : List PipelineEvent} (some : log.any (·.isRequest rid) = true) :
    ∃ req, .request rid req ∈ log := by
  obtain ⟨e, member, arrival⟩ := List.any_eq_true.mp some
  cases e with
  | request rid' req => exact ⟨req, of_decide_eq_true arrival ▸ member⟩
  | _ => cases arrival

open PipelineExample in
/-- One request has gone through the upstream, and another waited for it. -/
theorem answered_exactly_once_two : ∃ h s req,
    (Pipeline.machine (gateway { perToolConcurrency := 1 })).Run h s ∧ .request 1 req ∈ s.log ∧
      answersTo 1 s.log ≤ 1 ∧
      ((∀ ts, ∀ w ∈ s.gov.queue ts, w.cb.onDone.rid ≠ 1) →
        (∀ c call, s.calls.lookup c = some call → call.onDone.rid ≠ 1) →
        answersTo 1 s.log = 1) := by
  obtain ⟨h, s, run, -, reached⟩ := TransitionSystem.exists_run
    (M := Pipeline.machine (gateway { perToolConcurrency := 1 }))
    (forwarded (call "b__t" 1) ++ [.handle (call "b__t" 2) clk] ++ finished 0 ++
      [.run clk, .backendReturns, .run clk] ++ finished 1)
    (fun _ _ => true) (fun s => s.log.any (·.isRequest 1) && decide (throwsOf 1 s.log = 0))
    (start_init _) (by decide +kernel)
  obtain ⟨received, returned⟩ := Bool.and_eq_true _ _ |>.mp reached
  obtain ⟨req, received⟩ := exists_request received
  have once := answered_exactly_once run received
    (throwsOf_eq_zero_iff.mp (of_decide_eq_true returned))
  exact ⟨h, s, req, run, received, once⟩

/-! ## Calls and what they hold -/

/-- How many live calls have a property. -/
def PipelineState.callsWhere (s : PipelineState) (p : Call → Bool) : ℕ :=
  UnorderedMap.total (fun _ call => (p call).toNat) s.calls

/-- How many upstream attempts at a tool have no outcome yet. -/
def PipelineState.outstanding (s : PipelineState) (toolStr : String) : ℕ :=
  UnorderedMap.total (fun _ call => if call.key.str = toolStr then call.pending else 0) s.calls

/-- The tables and the governor's counters agree with the live calls. -/
structure PipelineState.Conserved (s : PipelineState) : Prop where
  inflight : ∀ id, s.inflight.Holds id ↔
    ∃ c call, s.calls.lookup c = some call ∧ call.inflightId = id
  live : ∀ id c, s.live.lookup id = some c ↔
    ∃ call, s.calls.lookup c = some call ∧ call.inflightId = id
  byTask : ∀ taskId c, s.byTask.lookup taskId = some c ↔
    taskId ≠ "" ∧ ∃ call, s.calls.lookup c = some call ∧ call.taskId = taskId
  permits : s.gov.permitHeld = s.callsWhere fun _ => true
  tool : ∀ ts, s.gov.toolHeld ts = s.callsWhere fun call => decide (call.permit.1.str = ts)
  agent : ∀ a, s.gov.agentHeld a = s.callsWhere fun call => decide (call.permit.2 = a)
  outstanding : ∀ ts, (s.outstanding ts : ℤ) ≤ s.gov.toolHeld ts

/-- Nothing is held and nothing is in the tables. -/
structure PipelineState.Clear (s : PipelineState) : Prop where
  calls : s.calls = ∅
  byId : s.inflight.byId = ∅
  keyToId : s.inflight.keyToId = ∅
  live : s.live = ∅
  byTask : s.byTask = ∅
  inflightHeld : s.inflight.inflightHeld = 0
  permitHeld : s.gov.permitHeld = 0
  tool : ∀ ts, s.gov.toolHeld ts = 0
  agent : ∀ a, s.gov.agentHeld a = 0

namespace PipelineState

theorem conserved_of_ok (ok : (s.core .empty).Ok env) : s.Conserved where
  inflight := fun _ => ok.tables.held.trans (exists_congr fun _ => ok.tables.alive)
  live := fun _ _ => ok.tables.alive
  byTask := fun _ _ => ok.tables.task
  permits := ok.accounts.held
  tool := ok.accounts.tool
  agent := ok.accounts.agent
  outstanding := fun ts => by
    have held : s.gov.toolHeld ts = _ := ok.accounts.tool ts
    rw [held]
    refine Int.ofNat_le.mpr (UnorderedMap.total_mono fun c call stored => ?_)
    have underway := ok.orderly.underway c call stored
    rw [underway.permit]
    split
    · next same => simpa [same] using underway.pending
    · exact Nat.zero_le _

/-- A pipeline without live calls is clear. -/
theorem clear_of_calls (ok : (s.core .empty).Ok env) (none : s.calls = ∅) : s.Clear := by
  have conserved := conserved_of_ok ok
  have absent : ∀ c, s.calls.lookup c = Option.none := by simp [none, AList.lookup_empty]
  have live : s.live = ∅ := UnorderedMap.eq_empty_iff.mpr fun id => by
    refine Option.eq_none_iff_forall_ne_some.mpr fun c found => ?_
    obtain ⟨call, stored, -⟩ := (conserved.live id c).mp found
    simp [absent] at stored
  have byTask : s.byTask = ∅ := UnorderedMap.eq_empty_iff.mpr fun id => by
    refine Option.eq_none_iff_forall_ne_some.mpr fun c found => ?_
    obtain ⟨-, call, stored, -⟩ := (conserved.byTask id c).mp found
    simp [absent] at stored
  have byId : s.inflight.byId = ∅ := UnorderedMap.eq_empty_iff.mpr fun id => by
    refine Option.eq_none_iff_forall_ne_some.mpr fun e found => ?_
    obtain ⟨c, call, stored, -⟩ := (conserved.inflight id).mp (by rw [InFlight.Holds, found]; rfl)
    simp [absent] at stored
  have zero : ∀ p, s.callsWhere p = 0 := fun p => by
    rw [callsWhere, none]
    exact UnorderedMap.total_empty
  obtain ⟨keyToId, inflightHeld⟩ := ok.tables.indexed.of_byId_empty byId
  refine ⟨none, byId, keyToId, live, byTask, inflightHeld, ?_, fun ts => ?_, fun a => ?_⟩
  · rw [conserved.permits, zero]
    rfl
  · rw [conserved.tool, zero]
    rfl
  · rw [conserved.agent, zero]
    rfl

end PipelineState

/-- In every state the tables, the permits and the live calls agree; when nothing runs and no
call has a timer or a callback left, nothing is held. -/
theorem calls_conserved (run : (Pipeline.machine env).Run h s) :
    s.Conserved ∧ (s.stack = [] →
      (∀ c call, s.calls.lookup c = some call →
        call.promoteArmed = false ∧ call.pending = 0 ∧ call.spent = 0) → s.Clear) := by
  have ok := PipelineState.ok_of_run run
  refine ⟨PipelineState.conserved_of_ok ok, fun idle quiet => ?_⟩
  refine PipelineState.clear_of_calls ok (UnorderedMap.eq_empty_iff.mpr fun c => ?_)
  refine Option.eq_none_iff_forall_ne_some.mpr fun call stored => ?_
  -- A live call is referred to by a timer, a callback or an unfinished frame.
  have held : 0 < call.refs s.stack c := ok.references.held stored
  obtain ⟨unarmed, answered, dropped⟩ := quiet c call stored
  simp [Call.refs, idle, unarmed, answered, dropped] at held

open PipelineExample in
/-- A call has come and gone, and nothing is left of it. -/
theorem calls_conserved_finished : ∃ h s, (Pipeline.machine (gateway {})).Run h s ∧
    s.nextCall = 1 ∧ s.Conserved ∧ s.Clear := by
  obtain ⟨h, s, run, -, reached⟩ := TransitionSystem.exists_run
    (M := Pipeline.machine (gateway {}))
    (forwarded (call "b__t" 1) ++ finished 0 ++ [.run clk]) (fun _ _ => true)
    (fun s => decide (s.nextCall = 1) && s.stack.isEmpty && s.calls.entries.isEmpty)
    (start_init _) (by decide +kernel)
  simp only [Bool.and_eq_true, decide_eq_true_eq, List.isEmpty_iff] at reached
  obtain ⟨⟨one, idle⟩, none⟩ := reached
  obtain ⟨conserved, clear⟩ := calls_conserved run
  refine ⟨h, s, run, one, conserved, clear idle fun c call stored => ?_⟩
  have member := UnorderedMap.mem_entries_iff.mpr stored
  rw [none] at member
  cases member

/-! ## Attempts -/

/-- A call makes a bounded number of attempts, one after the other, and none after anything
that forbids another. -/
theorem retries_restrained (run : (Pipeline.machine env).Run h s) (c : ℕ) :
    (attemptsOf c s.log : ℤ) ≤ max 1 env.cfg.retryMaxAttempts ∧
      (∀ call, s.calls.lookup c = some call → call.pending ≤ 1) ∧
      ∀ n decided backend bc circuitOpen old,
        .backendCall c n decided backend bc circuitOpen :: old <:+ s.log →
        ∃ rid req confirmed twin, .started c rid confirmed twin ∈ old ∧
          .request rid req ∈ old ∧ Restrained env old c rid req n decided := by
  have ok := PipelineState.ok_of_run run
  have lawful : Lawful (PipelineEvent.Law env) s.log := ok.orderly.lawful
  refine ⟨?_, fun call stored => (ok.orderly.underway c call stored).pending, ?_⟩
  -- every attempt was made under the bound, and they are numbered
  · have most : attemptsOf c s.log ≤ (max 1 env.cfg.retryMaxAttempts).toNat := by
      refine lawful.countP_le fun e old law attempt => ?_
      cases e with
      | backendCall c' n decided backend bc circuitOpen =>
        obtain rfl : c' = c := of_decide_eq_true attempt
        obtain ⟨rid, req, key, -, restrained, -⟩ := law
        have bound := restrained.bound
        have number : attemptsOf c' old + 1 = n := restrained.number
        change attemptsOf c' old < _
        omega
      | _ => cases attempt
    omega
  · intro n decided backend bc circuitOpen old suffix
    obtain ⟨rid, req, key, mediated, restrained, -⟩ := lawful _ old suffix
    obtain ⟨confirmed, twin, started⟩ := mediated.started
    exact ⟨rid, req, confirmed, twin, started, mediated.received, restrained⟩

open PipelineExample in
/-- A call that has tried again. -/
theorem retries_restrained_twice : ∃ h s, (Pipeline.machine (gateway {})).Run h s ∧
    attemptsOf 0 s.log = 2 ∧ (attemptsOf 0 s.log : ℤ) ≤ max 1 (gateway {}).cfg.retryMaxAttempts ∧
      (∀ call, s.calls.lookup 0 = some call → call.pending ≤ 1) ∧
      ∀ n decided backend bc circuitOpen old,
        .backendCall 0 n decided backend bc circuitOpen :: old <:+ s.log →
        ∃ rid req confirmed twin, .started 0 rid confirmed twin ∈ old ∧
          .request rid req ∈ old ∧ Restrained (gateway {}) old 0 rid req n decided := by
  obtain ⟨h, s, run, -, reached⟩ := TransitionSystem.exists_run
    (M := Pipeline.machine (gateway {})) (forwarded (call "b__t" 1) ++ [.upstream 0 failure clk])
    (fun _ _ => true) (fun s => decide (attemptsOf 0 s.log = 2)) (start_init _)
    (by decide +kernel)
  exact ⟨h, s, run, of_decide_eq_true reached, retries_restrained run 0⟩

/-! ## Mediation -/

/-- The policy allows the call that a request asks for. -/
def Request.Allowed (env : Env) (req : Request) : Prop :=
  ∃ key, ToolKey.parse req.name = some key ∧
    RankPolicy.authorizeCall env.catalog req.who key = .allow

namespace PipelineState

/-- The governor, the tables of calls and tasks, the circuit and the grants are as before. -/
structure Untouched (s s' : PipelineState) : Prop where
  gov : s'.gov = s.gov
  inflight : s'.inflight = s.inflight
  tasks : s'.tasks = s.tasks
  circuit : s'.circuit = s.circuit
  grants : s'.grants = s.grants

theorem Untouched.trans {s'' : PipelineState} (h : s.Untouched s') (h' : s'.Untouched s'') :
    s.Untouched s'' :=
  ⟨h'.gov.trans h.gov, h'.inflight.trans h.inflight, h'.tasks.trans h.tasks,
    h'.circuit.trans h.circuit, h'.grants.trans h.grants⟩

theorem untouched_endSpan (s : PipelineState) (ctx : TraceContext) (klass : FailureClass)
    (latencyMs : UInt64) : s.Untouched (s.endSpan ctx klass latencyMs) := by
  unfold endSpan
  split
  · constructor <;> rfl
  · constructor <;> rfl

theorem untouched_finish (s : PipelineState) (fin : Finish) (r : Response) (now : UInt64) :
    s.Untouched (s.finish fin r now) := by
  have ended := (untouched_endSpan s fin.gateway r.klass (now - fin.t0)).trans
    (untouched_endSpan _ fin.total r.klass (now - fin.t0))
  exact { ended with }

theorem untouched_startSpan (s : PipelineState) (req : Request) (spanName : String)
    (now : UInt64) : s.Untouched (s.startSpan env req spanName now).1 := by
  unfold startSpan
  by_cases new : req.trace.traceId.isEmpty
  · simp only [new, if_true, draw]
    constructor <;> rfl
  · simp only [new, Bool.false_eq_true, if_false, draw]
    constructor <;> rfl

theorem untouched_received (env : Env) (s : PipelineState) (req : Request) (clk : Clock) :
    s.Untouched (s.received env req clk).1 := by
  have logged : s.Untouched { s with
      nextRequest := s.nextRequest + 1, log := .request s.nextRequest req :: s.log } := by
    constructor <;> rfl
  exact (logged.trans (untouched_startSpan _ req "total" (clk 1))).trans
    (untouched_startSpan _ _ "gateway" (clk 2))

theorem handle_of_step {clk : Clock} (step : s.step env (.handle req clk) = some s') :
    s' = s.handle env req clk := by
  obtain ⟨attempt, -⟩ := Option.filter_eq_some_iff.mp step
  simp only [PipelineState.attempt] at attempt
  split at attempt
  · exact (Option.some.inj attempt).symm
  · cases attempt

/-- A call that is not allowed meets a refusal. -/
theorem refusal_of_not_allowed (refused : ¬ req.Allowed env) :
    ∃ r, r.klass = .authz ∧ refusal env.catalog req.who req.name = some r := by
  unfold refusal
  cases parsed : ToolKey.parse req.name with
  | none => exact ⟨_, rfl, rfl⟩
  | some key =>
    dsimp only
    cases decision : RankPolicy.authorizeCall env.catalog req.who key with
    | allow => exact absurd ⟨key, parsed, decision⟩ refused
    | deny => exact ⟨{ Response.ofBody denyTool with klass := .authz }, rfl, rfl⟩
    | unknown => exact ⟨{ Response.ofBody unknownTool with klass := .authz }, rfl, rfl⟩

/-- A request that is refused is answered in the step in which it comes, and nothing else
happens. -/
theorem handle_refused (s : PipelineState) (method : req.method = "tools/call")
    (refused : ¬ req.Allowed env) (clk : Clock) :
    s.Untouched (s.handle env req clk) ∧ ∃ r, r.klass = .authz ∧
      (s.handle env req clk).log =
        .answered s.nextRequest r :: .request s.nextRequest req :: s.log := by
  obtain ⟨n, opened, ⟨trace, traced⟩, rid⟩ := received_spec env s req clk .empty
  have untouched := untouched_received env s req clk
  unfold handle
  revert opened traced rid untouched
  generalize s.received env req clk = start
  obtain ⟨s₁, req₁, fin⟩ := start
  intro opened rid traced untouched
  dsimp only at opened traced rid untouched ⊢
  subst traced
  have dispatched : s₁.dispatch env { req with trace := trace } fin (clk.after 3) =
      s₁.handleCall env { req with trace := trace } fin (clk.after 3) := by
    simp [dispatch, method]
  obtain ⟨r, klass, met⟩ := refusal_of_not_allowed refused
  rw [dispatched, handleCall_of_refusal { req with trace := trace } met]
  refine ⟨untouched.trans (untouched_finish s₁ fin r _), stamp fin r (clk.after 3 0), klass, ?_⟩
  have logged := congrArg Core.log (core_finish s₁ fin r (clk.after 3 0) .empty)
  have before := congrArg Core.log opened
  rw [← rid]
  rw [← rid] at before
  exact logged.trans (congrArg (List.cons _) before)

end PipelineState

/-- Every call of a backend was made for one earlier request that was allowed, and names the
backend and the tool of that request. A `tools/call` that is not allowed is answered once,
with an authorisation failure, and changes nothing. The steps of a run are those that the process
survives: it ends when an answer cannot be written, as for a request with a `traceparent` that is
not UTF-8, and then nobody is answered. -/
theorem completely_mediated (run : (Pipeline.machine env).Run h s) :
    (∀ c n decided backend bc circuitOpen old,
      .backendCall c n decided backend bc circuitOpen :: old <:+ s.log →
      ∃! r : ℕ × Request, ∃ key, Mediated env old c r.1 r.2 key ∧ backend = key.backend ∧
        env.catalog.backend backend = true ∧ bc.name = key.tool ∧
        bc.params.field? "name" = some (.str key.tool)) ∧
      ∀ t ∈ h, ∀ req clk, t.input = .handle req clk → req.method = "tools/call" →
        ¬ req.Allowed env →
        t.pre.Untouched t.post ∧ .request t.pre.nextRequest req ∈ t.post.log ∧
          (∃ r, .answered t.pre.nextRequest r ∈ t.post.log ∧ r.klass = .authz) ∧
          answersTo t.pre.nextRequest s.log = 1 := by
  have ok := PipelineState.ok_of_run run
  have lawful : Lawful (PipelineEvent.Law env) s.log := ok.orderly.lawful
  constructor
  · intro c n decided backend bc circuitOpen old suffix
    obtain ⟨rid, req, key, mediated, -, named⟩ := lawful _ old suffix
    refine ⟨(rid, req), ⟨key, mediated, named⟩, ?_⟩
    rintro ⟨rid', req'⟩ ⟨key', mediated', -⟩
    -- the log before the call obeys the same laws
    have earlier : Lawful (PipelineEvent.Law env) old := fun e older inside =>
      lawful e older (inside.trans ((List.suffix_cons _ _).trans suffix))
    obtain ⟨rfl, rfl⟩ := mediated'.unique earlier mediated
    rfl
  · intro t member req clk input method refused
    obtain ⟨earlier, before, step, -⟩ := run.of_mem member
    rw [input] at step
    obtain ⟨untouched, r, klass, logged⟩ := t.pre.handle_refused method refused clk
    rw [← PipelineState.handle_of_step step] at untouched logged
    have received : .request t.pre.nextRequest req ∈ t.post.log := by simp [logged]
    have answered : .answered t.pre.nextRequest r ∈ t.post.log := by simp [logged]
    have kept := (PipelineState.log_of_mem run member).subset answered
    -- the answer that was logged is the only one
    have once : 0 < answersTo t.pre.nextRequest s.log :=
      List.countP_pos_iff.mpr ⟨_, kept, decide_eq_true rfl⟩
    have most := PipelineState.answersTo_le_one ok t.pre.nextRequest
    exact ⟨untouched, received, ⟨r, answered, klass⟩, by omega⟩

open PipelineExample in
/-- One call has gone upstream, and one for a backend that does not exist was refused. -/
theorem completely_mediated_refused : ∃ h s, (Pipeline.machine (gateway {})).Run h s ∧
    (attemptsOf 0 s.log = 1 ∧ answersTo 1 s.log = 1) ∧
    (∀ c n decided backend bc circuitOpen old,
      .backendCall c n decided backend bc circuitOpen :: old <:+ s.log →
      ∃! r : ℕ × Request, ∃ key, Mediated (gateway {}) old c r.1 r.2 key ∧
        backend = key.backend ∧ (gateway {}).catalog.backend backend = true ∧
        bc.name = key.tool ∧ bc.params.field? "name" = some (.str key.tool)) ∧
      ∀ t ∈ h, ∀ req clk, t.input = .handle req clk → req.method = "tools/call" →
        ¬ req.Allowed (gateway {}) →
        t.pre.Untouched t.post ∧ .request t.pre.nextRequest req ∈ t.post.log ∧
          (∃ r, .answered t.pre.nextRequest r ∈ t.post.log ∧ r.klass = .authz) ∧
          answersTo t.pre.nextRequest s.log = 1 := by
  obtain ⟨h, s, run, -, reached⟩ := TransitionSystem.exists_run
    (M := Pipeline.machine (gateway {}))
    (forwarded (call "b__t" 1) ++ [.handle (call "a__t" 1) clk]) (fun _ _ => true)
    (fun s => decide (attemptsOf 0 s.log = 1 ∧ answersTo 1 s.log = 1)) (start_init _)
    (by decide +kernel)
  exact ⟨h, s, run, of_decide_eq_true reached, completely_mediated run⟩

end Perfacet
