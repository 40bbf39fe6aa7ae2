import Perfacet.Pipeline.Attempts
import Perfacet.Pipeline.Duplicates

/-!
# The pipeline does what its core can do: calls

Each function of the pipeline is a row of moves of the core. Spans, tasks, the circuit, health
and counters are not in the core, and what the functions do to them is no move. This module
follows a call from its first attempt to its destruction.

## Main results

* `PipelineState.onPromote_moves`, `upstream_moves`, `absent_moves`, `cancelWait_moves`,
  `destroy_moves` — what happens to a call is a row of moves
-/

namespace Perfacet

variable {env : Env} {P : Promise} {hand hand' : Hand} {k k' : Core} {s s' : PipelineState}
  {c : ℕ} {call call' : Call}

/-! ## Cores -/

namespace Core

/-- An event is logged. -/
def emit (k : Core) (e : PipelineEvent) : Core := { k with log := e :: k.log }

/-- Ids are drawn. -/
def advance (k : Core) (n : ℕ) : Core := { k with draws := k.draws + n }

/-- A frame is pushed. -/
def push (k : Core) (f : PipelineFrame) : Core := { k with stack := f :: k.stack }

/-- A call is written back. -/
def put (k : Core) (c : ℕ) (call : Call) : Core := { k with calls := k.calls.insert c call }

theorem ticks (k : Core) (n : ℕ) : Moves env P k (k.advance n) := by
  induction n with
  | zero => exact .refl
  | succ n ih => exact ih.tail .tick

/-- An act of a call that was written back before. -/
theorem put_act {events : List PipelineEvent} {frames : List PipelineFrame} (k : Core)
    (act : call.Act env P k.hand c call' events frames) :
    Moves env P (k.put c call)
      (Core.put { k with log := events ++ k.log, stack := frames ++ k.stack } c call') := by
  have move := Move.act (k := k.put c call) c call call' events frames
    (AList.lookup_insert _) act
  simp only [put, AList.insert_insert] at move
  exact .single move

/-- Bookkeeping on a call that was written back before. -/
theorem put_touch (k : Core) (c : ℕ) (call : Call) (upTrace : TraceContext)
    (upSpanLive upstreamDone cancelled : Bool) (promoteTimer : Option UInt64)
    (kept : call.cancelled = true → cancelled = true) :
    Moves env P (k.put c call) (k.put c
      { call with upTrace := upTrace, upSpanLive := upSpanLive, upstreamDone := upstreamDone,
                  cancelled := cancelled, promoteTimer := promoteTimer }) :=
  k.put_act (.touch upTrace upSpanLive upstreamDone cancelled promoteTimer kept)

/-- Code that works on a call may as well write it back first. -/
theorem put_self (k : Core) (stored : k.calls.lookup c = some call) :
    Moves env P k (k.put c call) :=
  .single (.act c call call [] [] stored (.touch call.upTrace call.upSpanLive call.upstreamDone
    call.cancelled call.promoteTimer id))

end Core

namespace PipelineState

@[simp] theorem core_put (s : PipelineState) (c : ℕ) (call : Call) (hand : Hand) :
    (s.put c call).core hand = (s.core hand).put c call := rfl

@[simp] theorem core_emit (s : PipelineState) (e : PipelineEvent) (hand : Hand) :
    (s.emit e).core hand = (s.core hand).emit e := rfl

@[simp] theorem core_setSpan (s : PipelineState) (ctx : TraceContext) (key value : String)
    (hand : Hand) : (s.setSpan ctx key value).core hand = s.core hand := rfl

@[simp] theorem core_endSpan (s : PipelineState) (ctx : TraceContext) (klass : FailureClass)
    (latencyMs : UInt64) (hand : Hand) :
    (s.endSpan ctx klass latencyMs).core hand = s.core hand := by
  unfold endSpan
  split <;> rfl

/-- The response as the client gets it. -/
def stamp (f : Finish) (r : Response) (now : UInt64) : Response :=
  { r with
    gatewayMs := now - f.t0
    upstreamId := if r.upstreamId.isEmpty then f.upstreamId else r.upstreamId }

@[simp] theorem core_finish (s : PipelineState) (f : Finish) (r : Response) (now : UInt64)
    (hand : Hand) :
    (s.finish f r now).core hand = (s.core hand).emit (.answered f.rid (stamp f r now)) := by
  simp only [finish, core_emit, core_endSpan, stamp]

/-- Starting a span draws ids. -/
theorem core_startSpan (env : Env) (s : PipelineState) (req : Request) (spanName : String)
    (now : UInt64) (hand : Hand) : ∃ n, (s.startSpan env req spanName now).1.core hand =
      (s.core hand).advance n := by
  unfold startSpan
  by_cases new : req.trace.traceId.isEmpty
  · exact ⟨2, by simp [new, draw, core, Core.advance]⟩
  · exact ⟨1, by simp [new, draw, core, Core.advance]⟩

/-! ## A call by itself -/

theorem respond_moves (s : PipelineState) (call : Call) (r : Response) (clk : Clock) :
    Core.Moves env P ((s.core hand).put c call)
      (((s.respond call r clk).1.core hand).put c (s.respond call r clk).2) := by
  unfold respond
  split
  · exact .refl
  · next silent =>
    dsimp only
    rw [core_finish]
    exact Core.put_act (s.core hand) (.respond _ (by simpa using silent))

theorem respond_cancelled (s : PipelineState) (call : Call) (r : Response) (clk : Clock) :
    (s.respond call r clk).2.cancelled = call.cancelled := by
  unfold respond
  split <;> rfl

/-- What is done to the task store is no move. -/
@[simp] theorem core_tasks (s : PipelineState) (tasks : MemTaskStore) (hand : Hand) :
    { s with tasks := tasks }.core hand = s.core hand := rfl

@[simp] theorem core_circuit (s : PipelineState) (circuit : CountCircuit) (hand : Hand) :
    { s with circuit := circuit }.core hand = s.core hand := rfl

@[simp] theorem core_counters (s : PipelineState) (counters : Counters) (hand : Hand) :
    { s with counters := counters }.core hand = s.core hand := rfl

theorem respond_tasks_moves (s : PipelineState) (tasks : MemTaskStore) (call : Call) (r : Response)
    (clk : Clock) :
    Core.Moves env P ((s.core hand).put c call)
      ((({ s with tasks := tasks }.respond call r clk).1.core hand).put c
        ({ s with tasks := tasks }.respond call r clk).2) :=
  respond_moves { s with tasks := tasks } call r clk

theorem cancelWait_moves (s : PipelineState) (clk : Clock) :
    Core.Moves env P ((s.core hand).put c call) ((s.cancelWait c call clk).core hand) := by
  have flagged : Core.Moves env P ((s.core hand).put c call)
      ((s.core hand).put c { call with cancelled := true }) :=
    Core.put_touch _ c call _ _ _ true _ fun _ => rfl
  refine flagged.trans ((respond_moves s _ cancelledResponse clk).trans ?_)
  have told := respond_cancelled s { call with cancelled := true } cancelledResponse clk
  unfold cancelWait
  revert told
  generalize s.respond { call with cancelled := true } cancelledResponse clk = answered
  intro told
  dsimp only
  have logged : Core.Moves env P ((answered.1.core hand).put c answered.2) _ :=
    Core.put_act (answered.1.core hand) (.cancelled told)
  split
  · exact logged
  · exact logged

/-- A new task for a call, the id drawn just before. -/
theorem attachTask_moves (s : PipelineState) (hex : PipelineState × String)
    (drawn : hex = s.draw env 8) (tasks : MemTaskStore) (without : call.taskId = "")
    (present : env.catalog.backend call.key.backend = true) :
    Core.Moves env P ((s.core hand).put c call)
      ((({ hex.1 with tasks := tasks }.attachTask c call ("tsk_" ++ hex.2)).1.core hand).put c
        ({ hex.1 with tasks := tasks }.attachTask c call ("tsk_" ++ hex.2)).2) := by
  subst drawn
  have move : Core.Move env P ((s.core hand).put c call) _ :=
    .attach c call _ (AList.lookup_insert _) without rfl present
  simp only [Core.put, AList.insert_insert] at move
  exact .single move

theorem answerTask_core (s : PipelineState) (taskId : String) (now : UInt64) (hand : Hand) :
    (s.answerTask taskId now).1.core hand = s.core hand := by
  unfold answerTask
  dsimp only
  split <;> rfl

theorem promoteTask_moves (s : PipelineState) (clk : Clock)
    (present : env.catalog.backend call.key.backend = true) :
    Core.Moves env P ((s.core hand).put c call)
      (((s.promoteTask env c call clk).1.core hand).put c (s.promoteTask env c call clk).2.1) := by
  unfold promoteTask
  split
  · next without =>
    dsimp only [draw]
    generalize MemTaskStore.insert _ _ _ = inserted
    obtain ⟨tasks, stored⟩ := inserted
    cases stored with
    | false => exact Core.ticks _ 1
    | true => exact attachTask_moves s _ rfl tasks (String.isEmpty_iff.mp without) present
  · exact .refl

theorem onPromote_moves (s : PipelineState) (clk : Clock)
    (present : env.catalog.backend call.key.backend = true) :
    Core.Moves env P ((s.core hand).put c call) ((s.onPromote env c call clk).core hand) := by
  unfold onPromote
  split
  · exact .refl
  split
  · refine (promoteTask_moves s clk present).trans ?_
    generalize s.promoteTask env c call clk = made
    obtain ⟨s', call', stored⟩ := made
    dsimp only
    cases stored with
    | false => exact respond_moves s' call' _ _
    | true =>
      have same := answerTask_core s' call'.taskId (clk 2) hand
      rw [← same]
      exact respond_moves _ call' _ _
  · exact respond_moves s call _ clk

/-! ## Attempts and outcomes -/

theorem circuit_startSpan (env : Env) (s : PipelineState) (req : Request) (spanName : String)
    (now : UInt64) : (s.startSpan env req spanName now).1.circuit = s.circuit := by
  unfold startSpan
  by_cases new : req.trace.traceId.isEmpty <;> simp [new, draw]

/-- The first attempt of a call arms its promote timer. -/
theorem armed_eq (call : Call) (delay : UInt64) :
    (if call.attempt + 1 = 1 then
        { call with attempt := call.attempt + 1, promoteTimer := some delay, promoteArmed := true }
      else { call with attempt := call.attempt + 1 } : Call) =
      { call with
        attempt := call.attempt + 1
        promoteTimer := if call.attempt = 0 then some delay else call.promoteTimer
        promoteArmed := decide (call.attempt = 0) || call.promoteArmed } := by
  by_cases first : call.attempt = 0 <;> simp [first]

/-- An attempt at a backend that is there. -/
theorem core_fireAttempt (s : PipelineState) (c : ℕ) (call : Call)
    (present : env.catalog.backend call.key.backend = true) (decided : Option UInt64)
    (clk : Clock) (hand : Hand) :
    ∃ n delay upTrace, (s.fireAttempt env c call decided clk).core hand =
      ((((s.core hand).advance n).put c (call.fired delay upTrace)).emit
        (.backendCall c (call.attempt + 1) decided call.key.backend (makeBackendCall call)
          (s.circuit.isOpen call.key.backend (clk 1)).2)).push (.inBackend c) := by
  unfold fireAttempt
  rw [present]
  simp only [Bool.not_true, Bool.false_eq_true, if_false, armed_eq]
  obtain ⟨n, drawn⟩ := core_startSpan env s { call.req with trace := call.trace }
    "upstream" (clk 0) hand
  have circuit := circuit_startSpan env s { call.req with trace := call.trace }
    "upstream" (clk 0)
  revert drawn circuit
  generalize s.startSpan env { call.req with trace := call.trace } "upstream" (clk 0) = started
  intro drawn circuit
  refine ⟨n, s.promoteDelay env call.key.backend, started.2, ?_⟩
  rw [← drawn, ← circuit]
  rfl

/-- An attempt at a backend that is not there. -/
theorem core_fireAttempt_absent (s : PipelineState) (c : ℕ) (call : Call)
    (absent : env.catalog.backend call.key.backend = false) (decided : Option UInt64)
    (clk : Clock) (hand : Hand) : ∃ r, (s.fireAttempt env c call decided clk).core hand =
      ((s.core hand).put c call).push (.onUpstream c r) := by
  unfold fireAttempt
  rw [absent]
  exact ⟨_, rfl⟩

/-- The promote timer is put away while something else holds the call. -/
theorem disarm_moves (k : Core) (held : 0 < call.spent ∨ call.promoteArmed = false) :
    Core.Moves env P (k.put c call)
      (k.put c (if call.promoteTimer.isSome then
        { call with promoteTimer := none, promoteArmed := false } else call)) := by
  split
  · have put : Core.Moves env P (k.put c call) (k.put c { call with promoteTimer := none }) :=
      Core.put_touch k c call _ _ _ _ none id
    refine put.trans ?_
    rcases held with running | unarmed
    · have disarmed : Call.Act env P k.hand c { call with promoteTimer := none } _ _ _ :=
        .disarm running
      exact Core.put_act k disarmed
    · have same := congrArg (fun armed => { call with
        promoteTimer := none, promoteArmed := armed }) unarmed
      rw [← same]
  · exact .refl

theorem settle_moves (s : PipelineState) (call : Call)
    (held : 0 < call.spent ∨ call.promoteArmed = false)
    (r : Response) (clk : Clock) :
    Core.Moves env P ((s.core hand).put c call) ((s.settle c call r clk).core hand) := by
  have done : Core.Moves env P ((s.core hand).put c call)
      ((s.core hand).put c { call with upstreamDone := true }) :=
    Core.put_touch _ c call _ _ true _ _ id
  have unarmed : Core.Moves env P ((s.core hand).put c { call with upstreamDone := true }) _ :=
    disarm_moves (s.core hand) held
  refine done.trans (unarmed.trans ?_)
  unfold settle
  dsimp only
  generalize (if call.promoteTimer.isSome then _ else _ : Call) = unarmed
  split
  · exact respond_moves s unarmed _ _
  · exact respond_tasks_moves s _ unarmed _ _

@[simp] theorem core_report (s : PipelineState) (backend : String) (r : Response) (now : UInt64)
    (hand : Hand) : (s.report backend r now).core hand = s.core hand := by
  unfold report
  split <;> rfl

/-- The state in which an outcome has been told to the tracer and to the circuit. -/
def heard (s : PipelineState) (c : ℕ) (call : Call) (r : Response) (clk : Clock) :
    PipelineState :=
  let s := s.emit (.outcome c r.klass)
  let s := if call.upSpanLive then s.endSpan call.upTrace r.klass r.upstreamMs else s
  { s with circuit := (s.circuit.isOpen call.key.backend (clk 0)).1 }.report call.key.backend r
    (clk 1)

@[simp] theorem core_heard (s : PipelineState) (c : ℕ) (call : Call) (r : Response) (clk : Clock)
    (hand : Hand) : (s.heard c call r clk).core hand = (s.core hand).emit (.outcome c r.klass) := by
  unfold heard
  rw [core_report, core_circuit]
  split
  · rw [core_endSpan, core_emit]
  · rw [core_emit]

@[simp] theorem circuit_endSpan (s : PipelineState) (ctx : TraceContext) (klass : FailureClass)
    (latencyMs : UInt64) : (s.endSpan ctx klass latencyMs).circuit = s.circuit := by
  unfold endSpan
  split <;> rfl

/-- The span of an attempt has nothing to do with the circuit. -/
theorem circuit_closeSpan (s : PipelineState) (e : PipelineEvent) (call : Call) (r : Response) :
    (if call.upSpanLive then (s.emit e).endSpan call.upTrace r.klass r.upstreamMs
      else s.emit e).circuit = s.circuit := by
  split
  · rw [circuit_endSpan]
    rfl
  · rfl

theorem circuit_report (s : PipelineState) (backend : String) (r : Response) (now : UInt64) :
    (s.report backend r now).circuit =
      if r.klass = .ok ∧ r.isError = false then s.circuit.onSuccess backend
      else (s.circuit.onFailure backend now).1 := by
  unfold report
  split <;> rfl

theorem circuit_heard (s : PipelineState) (c : ℕ) (call : Call) (r : Response) (clk : Clock) :
    (s.heard c call r clk).circuit =
      if r.klass = .ok ∧ r.isError = false then
        (s.circuit.isOpen call.key.backend (clk 0)).1.onSuccess call.key.backend
      else
        ((s.circuit.isOpen call.key.backend (clk 0)).1.onFailure call.key.backend (clk 1)).1 := by
  unfold heard
  rw [circuit_report]
  dsimp only
  rw [circuit_closeSpan]

/-- An outcome is heard of, and the span of the attempt is closed. -/
theorem closeSpan_moves (k : Core) :
    Core.Moves env P (k.put c call) (k.put c { call with upSpanLive := false }) :=
  Core.put_touch k c call _ false _ _ _ id

/-- What `onUpstream` does with an outcome that comes after the call was cancelled. -/
theorem onUpstream_cancelled (s : PipelineState) (r : Response) (clk : Clock)
    (late : call.cancelled = true) :
    Core.Moves env P (((s.core hand).emit (.outcome c r.klass)).put c call)
      ((s.onUpstream env c call r clk).core hand) := by
  refine (closeSpan_moves _).trans ?_
  have done : Core.Moves env P
      (((s.core hand).emit (.outcome c r.klass)).put c { call with upSpanLive := false })
      (((s.core hand).emit (.outcome c r.klass)).put c
        { call with upSpanLive := false, upstreamDone := true }) :=
    Core.put_touch _ c { call with upSpanLive := false } _ _ true _ _ id
  unfold onUpstream
  dsimp only
  rw [if_pos late, core_put]
  split
  · rw [core_endSpan]
    exact done
  · exact done

/-- An outcome that is not retried settles the call. -/
theorem onUpstream_last (s : PipelineState) (c : ℕ) (r : Response) (clk : Clock)
    (runs : call.cancelled = false)
    (last : retries env call r (s.circuit.isOpen call.key.backend (clk 0)).2 (clk 2) = false) :
    s.onUpstream env c call r clk =
      (s.heard c call r clk).settle c { call with upSpanLive := false } r (clk.after 3) := by
  unfold onUpstream heard
  dsimp only
  rw [circuit_closeSpan, if_neg (by simp [runs])]
  exact if_neg (by rw [Bool.not_eq_true]; exact last)

/-- What `onUpstream` does with an outcome that is not retried. -/
theorem onUpstream_settle (s : PipelineState) (held : 0 < call.spent ∨ call.promoteArmed = false)
    (r : Response) (clk : Clock) (runs : call.cancelled = false)
    (last : retries env call r (s.circuit.isOpen call.key.backend (clk 0)).2 (clk 2) = false) :
    Core.Moves env P (((s.core hand).emit (.outcome c r.klass)).put c call)
      ((s.onUpstream env c call r clk).core hand) := by
  refine (closeSpan_moves _).trans ?_
  rw [onUpstream_last s c r clk runs last, ← core_heard s c call r clk]
  exact settle_moves (s.heard c call r clk) { call with upSpanLive := false } held r _

/-- What `onUpstream` does with an outcome that is retried. -/
theorem onUpstream_retry (s : PipelineState) (c : ℕ) (r : Response) (clk : Clock)
    (runs : call.cancelled = false)
    (again : retries env call r (s.circuit.isOpen call.key.backend (clk 0)).2 (clk 2) = true) :
    s.onUpstream env c call r clk = (s.heard c call r clk).fireAttempt env c
      { call with upSpanLive := false } (some (clk 2)) (clk.after 3) := by
  unfold onUpstream heard
  dsimp only
  rw [circuit_closeSpan, if_neg (by simp [runs])]
  exact if_pos again

/-- An upstream callback is delivered. -/
theorem upstream_moves (s : PipelineState) (stored : s.calls.lookup c = some call)
    (waits : 0 < call.pending) (present : env.catalog.backend call.key.backend = true)
    (r : Response) (clk : Clock)
    (shielded : retries env call r (s.circuit.isOpen call.key.backend (clk 0)).2 (clk 2) = true →
      P.shielded ((s.heard c call.delivered r clk).circuit.isOpen call.key.backend (clk 4)).2) :
    Core.Moves env P (s.core .empty) ((s.onUpstream env c call.delivered r clk).core .empty) := by
  have delivered : Core.Moves env P (s.core .empty)
      (((s.core .empty).emit (.outcome c r.klass)).put c call.delivered) :=
    .single (.act c call _ _ _ stored (.outcome r.klass waits))
  have held : 0 < call.delivered.spent ∨ call.delivered.promoteArmed = false :=
    .inl (Nat.succ_pos _)
  by_cases late : call.delivered.cancelled = true
  · exact delivered.trans (onUpstream_cancelled s r clk late)
  have runs : call.delivered.cancelled = false := by simpa using late
  by_cases again : retries env call.delivered r
      (s.circuit.isOpen call.delivered.key.backend (clk 0)).2 (clk 2) = true
  · rw [onUpstream_retry s c r clk runs again]
    obtain ⟨n, delay, upTrace, fired⟩ := core_fireAttempt
      (s.heard c call.delivered r clk) c { call.delivered with upSpanLive := false } present
        (some (clk 2)) (clk.after 3) .empty
    rw [fired, core_heard]
    have retried : Core.Move env P (s.core .empty) _ :=
      .act c call _ _ _ stored (.retry r _ _ (clk 2) delay upTrace rfl waits again present
        (shielded again))
    exact (Relation.ReflTransGen.single retried).trans (Core.ticks _ n)
  · exact delivered.trans (onUpstream_settle s held r clk runs (by simpa using again))

/-- The outcome of an attempt at an absent backend is handled. -/
theorem absent_moves (s : PipelineState) {below : List PipelineFrame} {r : Response}
    (top : s.stack = .onUpstream c r :: below) (stored : s.calls.lookup c = some call)
    (absent : env.catalog.backend call.key.backend = false)
    (unarmed : call.promoteArmed = false) (clk : Clock) :
    Core.Moves env P (s.core hand)
      (({ s with stack := below }.onUpstream env c call r clk).core hand) := by
  have handled : ∀ again : Option Response, Core.Moves env P (s.core hand)
      (Core.put { s.core hand with
        stack := (again.map (.onUpstream c)).toList ++ below
        log := .outcome c r.klass :: s.log } c call) := by
    intro again
    exact (Relation.ReflTransGen.single
      (.absentOutcome c call r below again top stored absent)).trans (Core.put_self _ stored)
  by_cases late : call.cancelled = true
  · exact (handled none).trans (onUpstream_cancelled { s with stack := below } r clk late)
  have runs : call.cancelled = false := by simpa using late
  by_cases again : retries env call r (s.circuit.isOpen call.key.backend (clk 0)).2 (clk 2) = true
  · rw [onUpstream_retry { s with stack := below } c r clk runs again]
    obtain ⟨r', fired⟩ := core_fireAttempt_absent
      ({ s with stack := below }.heard c call r clk) c { call with upSpanLive := false } absent
        (some (clk 2)) (clk.after 3) hand
    rw [fired, core_heard]
    exact (handled (some r')).trans (closeSpan_moves _)
  · exact (handled none).trans (onUpstream_settle { s with stack := below } (.inr unarmed) r clk
      runs (by simpa using again))

/-! ## The end of a call -/

/-- A call that is destroyed responds first, if it has not yet. -/
theorem destroy_eq (s : PipelineState) (c : ℕ) (call : Call) (clk : Clock) (hand : Hand)
    (below : List PipelineFrame) :
    ∃ k r, (k = if call.responded then s.core hand
        else (s.core hand).emit (.answered call.onDone.rid r)) ∧
      ({ s with stack := below }.destroy c call clk).core hand = k.destroyed c call below := by
  have closed : (if call.upSpanLive then
      { s with stack := below }.endSpan call.upTrace .cancelled (clk 0 - call.t0)
      else { s with stack := below }).core hand = { s with stack := below }.core hand := by
    split
    · rw [core_endSpan]
    · rfl
  unfold destroy
  revert closed
  generalize (if call.upSpanLive then _ else _ : PipelineState) = s'
  intro closed
  have erased : ∀ s'' : PipelineState,
      (({ s'' with
          inflight := s''.inflight.erase call.inflightId
          byTask := if call.taskId.isEmpty then s''.byTask else s''.byTask.erase call.taskId
          live := s''.live.erase call.inflightId
          calls := s''.calls.erase c }.emit (.destroyed c)).releasePermit call.permit).core hand =
        (s''.core hand).destroyed c call (s''.core hand).stack := fun _ => rfl
  unfold respond
  split
  · refine ⟨_, cancelledResponse, rfl, (erased s').trans ?_⟩
    rw [closed]
    rfl
  · refine ⟨_, stamp call.onDone
      { cancelledResponse with gatewayMs := clk.after 1 0 - call.t0 } (clk.after 1 1), rfl,
      (erased (s'.finish call.onDone
        { cancelledResponse with gatewayMs := clk.after 1 0 - call.t0 } (clk.after 1 1))).trans ?_⟩
    rw [core_finish, closed]
    rfl

/-- The last reference to a call goes. -/
theorem destroy_moves (s : PipelineState) {below : List PipelineFrame}
    (top : s.stack = .unref c :: below) (stored : s.calls.lookup c = some call)
    (last : call.refs below c = 0) (clk : Clock) :
    Core.Moves env P (s.core hand) (({ s with stack := below }.destroy c call clk).core hand) := by
  obtain ⟨k, r, before, destroyed⟩ := destroy_eq s c call clk hand below
  rw [destroyed, before]
  split
  · next responded => exact .single (.destroy c call below top stored responded last)
  · next silent =>
    have answered : Core.Move env P (s.core hand) _ :=
      .act c call _ _ _ stored (.respond r (by simpa using silent))
    have gone : Core.Move env P
        (((s.core hand).emit (.answered call.onDone.rid r)).put c { call with responded := true })
        _ :=
      .destroy c { call with responded := true } below top (AList.lookup_insert _) rfl last
    simp only [Core.destroyed, Core.put, UnorderedMap.erase_insert] at gone
    exact (Relation.ReflTransGen.single answered).tail gone

end PipelineState

end Perfacet
