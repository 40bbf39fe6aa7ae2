import Perfacet.Pipeline.Effects
import Perfacet.Pipeline.SpanBook

/-!
# The pipeline keeps the book of open spans

Whatever the functions of the pipeline do to the tracer, the queues and the calls is a sequence
of moves of the book: a request starts its spans when it is received and ends them when it is
answered, and a call starts a span only when none is open. A function that works on a call which
it has taken out of the table is read as if it had written the call back before.

## Main definitions

* `PipelineState.book` — the book that a state keeps
* `PipelineState.Booked` — from one state to another the book makes moves

## Main results

* `fireAttempt_booked`, `onUpstream_booked`, `destroy_booked` — the span of an attempt
* `handle_booked` — the spans of a request
-/

namespace Perfacet

variable {env : Env} {s s' : PipelineState} {fs : List Finish} {c : ℕ} {call : Call} {w : Waiting}
  {fin : Finish}

/-- What the book of spans knows of a call. -/
def Call.spanCall (call : Call) : SpanCall :=
  ⟨call.onDone, call.attempt, if call.upSpanLive then some call.upTrace.spanId else none⟩

theorem Call.onDone_of_spanCall {call' : Call} (same : call'.spanCall = call.spanCall) :
    call'.onDone = call.onDone :=
  congrArg SpanCall.onDone same

namespace PipelineState

/-- The tracer has a span open. -/
def SpanOpen (s : PipelineState) (id : String) : Prop := (s.tracer.live.lookup id).isSome

/-- The book of open spans, given the requests that were received. -/
def book (s : PipelineState) (fs : List Finish) : SpanBook where
  received := fs
  answered rid := 0 < answersTo rid s.log
  waiting f := ∃ ts w, w ∈ s.gov.queue ts ∧ w.cb.onDone = f
  calls c := (s.calls.lookup c).map Call.spanCall
  live := s.SpanOpen
  draws := s.draws
  nextRequest := s.nextRequest

/-- From one state to another the book makes moves. -/
abbrev Booked (env : Env) (fs : List Finish) (s s' : PipelineState) : Prop :=
  SpanBook.Moves (env.randomHex 8) (s.book fs) (s'.book fs)

theorem booked_of_eq (same : s'.book fs = s.book fs) : s.Booked env fs s' := by
  rw [Booked, same]

/-! ## Spans and answers -/

theorem book_calls (stored : s.calls.lookup c = some call) :
    (s.book fs).calls c = some call.spanCall := by
  change (s.calls.lookup c).map Call.spanCall = _
  rw [stored, Option.map_some]

@[simp] theorem book_put (s : PipelineState) (c : ℕ) (call : Call) :
    (s.put c call).book fs = (s.book fs).put c call.spanCall := by
  refine SpanBook.ext rfl rfl rfl (funext fun c' => ?_) rfl rfl rfl
  rw [SpanBook.calls_put]
  simp only [book, put, UnorderedMap.lookup_insert]
  split <;> rfl

/-- A call is written back as the book knows it. -/
theorem book_put_self {call' : Call} (stored : s.calls.lookup c = some call)
    (same : call'.spanCall = call.spanCall) : (s.put c call').book fs = s.book fs := by
  rw [book_put, same, SpanBook.put_self (book_calls stored)]

@[simp] theorem book_setSpan (s : PipelineState) (ctx : TraceContext) (key value : String) :
    (s.setSpan ctx key value).book fs = s.book fs := by
  refine SpanBook.ext rfl rfl rfl rfl (funext fun id => ?_) rfl rfl
  simp only [book, SpanOpen, setSpan, Tracer.set]
  split
  · rfl
  · next acc there =>
    rw [UnorderedMap.lookup_insert]
    split
    · next same => rw [same, there]; rfl
    · rfl

theorem live_endSpan (s : PipelineState) (ctx : TraceContext) (klass : FailureClass) (ms : UInt64) :
    (s.endSpan ctx klass ms).tracer.live = s.tracer.live.erase ctx.spanId := by
  have ended : (s.tracer.finish ctx klass ms).1.live = s.tracer.live.erase ctx.spanId := by
    unfold Tracer.finish
    split
    · next absent => exact (UnorderedMap.erase_of_lookup_none absent).symm
    · rfl
  unfold endSpan
  split <;> next finished => rw [← ended, finished]

@[simp] theorem book_endSpan (s : PipelineState) (ctx : TraceContext) (klass : FailureClass)
    (ms : UInt64) : (s.endSpan ctx klass ms).book fs = (s.book fs).close ctx.spanId := by
  have live : (s.endSpan ctx klass ms).SpanOpen = fun i => s.SpanOpen i ∧ i ≠ ctx.spanId := by
    funext i
    rw [SpanOpen, live_endSpan, UnorderedMap.lookup_erase]
    by_cases same : i = ctx.spanId <;> simp [same, SpanOpen]
  rw [book, live]
  unfold endSpan
  split <;> rfl

/-- Only answers are in the book. -/
theorem book_log (s : PipelineState) (e : PipelineEvent) :
    (s.emit e).book fs =
      { s.book fs with answered := fun rid => e.isAnswer rid ∨ 0 < answersTo rid s.log } := by
  refine SpanBook.ext rfl (funext fun rid => propext ?_) rfl rfl rfl rfl rfl
  change 0 < answersTo rid (e :: s.log) ↔ e.isAnswer rid ∨ 0 < answersTo rid s.log
  rw [Core.answersTo_cons]
  cases e.isAnswer rid <;> simp

theorem book_emit (s : PipelineState) {e : PipelineEvent} (silent : ∀ rid, e.isAnswer rid = false) :
    (s.emit e).book fs = s.book fs := by
  rw [book_log]
  simp only [silent, Bool.false_eq_true, false_or]
  rfl

/-- A request that is answered ends its two spans. -/
@[simp] theorem book_finish (s : PipelineState) (f : Finish) (r : Response) (now : UInt64) :
    (s.finish f r now).book fs = (s.book fs).answer f := by
  unfold finish
  generalize { r with gatewayMs := _, upstreamId := _ : Response } = r'
  dsimp only
  rw [book_log, book_endSpan, book_endSpan]
  refine SpanBook.ext rfl (funext fun rid => propext ?_) rfl rfl (funext fun i => propext ?_)
    rfl rfl
  · have same : answersTo rid ((s.endSpan f.gateway r'.klass r'.gatewayMs).endSpan f.total r'.klass
        r'.gatewayMs).log = answersTo rid s.log := by
      unfold endSpan
      split <;> split <;> rfl
    change decide (f.rid = rid) = true ∨ 0 < answersTo rid _ ↔ 0 < answersTo rid s.log ∨ rid = f.rid
    rw [same, decide_eq_true_iff, eq_comm]
    exact or_comm
  · exact and_assoc.trans (and_congr_right' not_or.symm)

theorem finish_booked (known : fin ∈ fs) (r : Response) (now : UInt64) :
    s.Booked env fs (s.finish fin r now) := by
  rw [Booked, book_finish]
  exact .single (.answer known)

/-- A span starts under a fresh id. -/
theorem book_startSpan (env : Env) (s : PipelineState) (req : Request) (spanName : String)
    (now : UInt64) (fs : List Finish) :
    let out := s.startSpan env req spanName now
    ∃ k, s.draws ≤ k ∧ out.2.spanId = env.randomHex 8 k ∧
      out.1.book fs = (s.book fs).openSpan (env.randomHex 8 k) k := by
  have started : ∀ k, (fun i => ((s.tracer.start req (env.randomHex 8 k) spanName
      now).live.lookup i).isSome = true) = fun i => s.SpanOpen i ∨ i = env.randomHex 8 k := by
    intro k
    funext i
    rw [Tracer.start, UnorderedMap.lookup_insert]
    by_cases same : i = env.randomHex 8 k <;> simp [same, SpanOpen]
  unfold startSpan
  by_cases new : req.trace.traceId.isEmpty
  · rw [if_pos new]
    refine ⟨s.draws + 1, Nat.le_succ _, rfl, SpanBook.ext rfl rfl rfl rfl ?_ rfl rfl⟩
    exact started (s.draws + 1)
  · rw [if_neg new]
    refine ⟨s.draws, le_rfl, rfl, SpanBook.ext rfl rfl rfl rfl ?_ rfl rfl⟩
    exact started s.draws

/-- A request that is received starts its two spans. -/
theorem book_received (env : Env) (s : PipelineState) (req : Request) (clk : Clock)
    (fs : List Finish) :
    let out := s.received env req clk
    SpanBook.Moves (env.randomHex 8) (s.book fs) (out.1.book (out.2.2 :: fs)) := by
  unfold received
  dsimp only
  generalize logged : ({ s with nextRequest := _, log := _ } : PipelineState) = s₀
  have before : s₀.book fs = { s.book fs with nextRequest := s.nextRequest + 1 } := by
    rw [← logged]
    exact book_emit { s with nextRequest := s.nextRequest + 1 } fun rid => rfl
  have drawn : s₀.draws = s.draws := by rw [← logged]
  obtain ⟨j, now, total, opened⟩ := book_startSpan env s₀ req "total" (clk 1) fs
  revert total opened
  generalize s₀.startSpan env req "total" (clk 1) = one
  obtain ⟨s₁, ctx⟩ := one
  intro total opened
  obtain ⟨k, now', gateway, opened'⟩ :=
    book_startSpan env s₁ { req with trace := ctx } "gateway" (clk 2) fs
  revert gateway opened'
  generalize s₁.startSpan env { req with trace := ctx } "gateway" (clk 2) = two
  obtain ⟨s₂, ctx'⟩ := two
  intro gateway opened'
  have order : s₁.draws = j + 1 := congrArg SpanBook.draws opened
  generalize named : Finish.mk _ _ _ ctx' ctx = f
  -- Opened one after the other, the two spans are those of the request.
  have both : s₂.book (f :: fs) = (s.book fs).receive f k := by
    have spans : s₂.book fs = ((s₀.book fs).openSpan (env.randomHex 8 j) j).openSpan
        (env.randomHex 8 k) k := by rw [← opened, ← opened']
    rw [before] at spans
    change { s₂.book fs with received := f :: fs } = _
    rw [spans]
    refine SpanBook.ext rfl rfl rfl rfl (funext fun i => propext ?_) rfl rfl
    change (s.SpanOpen i ∨ i = env.randomHex 8 j) ∨ i = env.randomHex 8 k ↔
      s.SpanOpen i ∨ f.HasSpan i
    rw [← total, ← gateway, ← named, or_assoc]
    exact or_congr_right or_comm
  rw [both]
  have first : s.draws ≤ j := by omega
  refine .single (.receive (j := j) first (by omega) ?_ ?_ ?_) <;> rw [← named]
  · exact total
  · exact gateway
  · rfl

/-! ## The life of a call -/

theorem book_respond (fs : List Finish) (s : PipelineState) (call : Call) (r : Response)
    (clk : Clock) :
    (s.respond call r clk).1.book fs =
        (if call.responded then s.book fs else (s.book fs).answer call.onDone) ∧
      (s.respond call r clk).2.spanCall = call.spanCall := by
  unfold respond
  split
  · exact ⟨rfl, rfl⟩
  · exact ⟨book_finish .., rfl⟩

/-- A call that responds answers its request, unless it has. -/
theorem respond_booked (known : call.onDone ∈ fs) (c : ℕ) (r : Response) (clk : Clock) :
    (s.put c call).Booked env fs
      ((s.respond call r clk).1.put c (s.respond call r clk).2) := by
  obtain ⟨answered, same⟩ := book_respond fs s call r clk
  rw [Booked, book_put, book_put, answered, same]
  split
  · exact .refl
  · exact .single (.answer known)

theorem cancelWait_booked (known : call.onDone ∈ fs) (c : ℕ) (clk : Clock) :
    (s.put c call).Booked env fs (s.cancelWait c call clk) := by
  have marked : (s.put c call).Booked env fs (s.put c { call with cancelled := true }) := by
    refine booked_of_eq ?_
    rw [book_put, book_put]
    rfl
  have known' : Call.onDone { call with cancelled := true } ∈ fs := known
  refine (marked.trans (respond_booked known' c cancelledResponse clk)).trans ?_
  unfold cancelWait
  dsimp only
  rw [book_emit _ fun _ => rfl]
  split <;> exact .refl

theorem book_attachTask (fs : List Finish) (s : PipelineState) (c : ℕ) (call : Call)
    (taskId : String) :
    (s.attachTask c call taskId).1.book fs = s.book fs ∧
      (s.attachTask c call taskId).2.spanCall = call.spanCall :=
  ⟨book_setSpan .., rfl⟩

theorem book_answerTask (fs : List Finish) (s : PipelineState) (taskId : String) (now : UInt64) :
    (s.answerTask taskId now).1.book fs = s.book fs := by
  rw [answerTask_fst]
  rfl

/-- A call that gets a task draws an id. -/
theorem book_promoteTask (env : Env) (s : PipelineState) (c : ℕ) (call : Call) (clk : Clock)
    (fs : List Finish) :
    let out := s.promoteTask env c call clk
    ∃ n, s.draws ≤ n ∧ out.1.book fs = { s.book fs with draws := n } ∧
      out.2.1.spanCall = call.spanCall := by
  unfold promoteTask
  split
  · dsimp only [draw]
    generalize MemTaskStore.insert _ _ _ = inserted
    obtain ⟨store, stored⟩ := inserted
    refine ⟨s.draws + 1, Nat.le_succ _, ?_⟩
    cases stored with
    | true => exact ⟨(book_attachTask fs _ c call _).1, rfl⟩
    | false => exact ⟨rfl, rfl⟩
  · exact ⟨s.draws, le_rfl, rfl, rfl⟩

theorem onPromote_booked (known : call.onDone ∈ fs) (c : ℕ) (clk : Clock) :
    (s.put c call).Booked env fs (s.onPromote env c call clk) := by
  unfold onPromote
  split
  · exact .refl
  split
  · obtain ⟨n, more, drawn, same⟩ := book_promoteTask env s c call clk fs
    revert drawn same
    generalize s.promoteTask env c call clk = promoted
    obtain ⟨s₁, call₁, stored⟩ := promoted
    intro drawn same
    have promoted : (s.put c call).Booked env fs (s₁.put c call₁) := by
      rw [Booked, book_put, book_put, drawn, same]
      exact .single (.draw more)
    have known₁ : call₁.onDone ∈ fs := Call.onDone_of_spanCall same ▸ known
    refine promoted.trans ?_
    cases stored with
    | true =>
      dsimp only
      have told := book_answerTask fs s₁ call₁.taskId (clk 2)
      revert told
      generalize s₁.answerTask call₁.taskId (clk 2) = answer
      obtain ⟨s₂, r⟩ := answer
      intro told
      have here : (s₂.put c call₁).book fs = (s₁.put c call₁).book fs := by
        rw [book_put, book_put, told]
      exact (booked_of_eq here).trans (respond_booked known₁ c r (clk.after 3))
    | false => exact respond_booked known₁ c _ _
  · exact respond_booked known c _ _

/-- An attempt starts its span when no other is underway. -/
theorem fireAttempt_booked (closed : call.upSpanLive = false) (c : ℕ) (decided : Option UInt64)
    (clk : Clock) : (s.put c call).Booked env fs (s.fireAttempt env c call decided clk) := by
  unfold fireAttempt
  split
  · exact .refl
  · dsimp only
    generalize armed : (if call.attempt + 1 = 1 then _ else _ : Call) = call'
    have kept : call'.onDone = call.onDone ∧ call'.attempt = call.attempt + 1 := by
      rw [← armed]
      split <;> exact ⟨rfl, rfl⟩
    obtain ⟨k, now, spanId, opened⟩ :=
      book_startSpan env s { call'.req with trace := call'.trace } "upstream" (clk 0) fs
    revert spanId opened
    generalize s.startSpan env _ "upstream" (clk 0) = started
    obtain ⟨s₁, upTrace⟩ := started
    intro spanId opened
    have stored : ((s.put c call).book fs).calls c = some call.spanCall := by
      rw [book_put, SpanBook.calls_put, if_pos rfl]
    have shut : call.spanCall.span = none := by rw [Call.spanCall, closed]; rfl
    generalize underway : ({ call' with
      upTrace := upTrace, upSpanLive := true, pending := call'.pending + 1 } : Call) = call''
    have known : call''.spanCall = ⟨call.onDone, call.attempt + 1, some (env.randomHex 8 k)⟩ := by
      rw [← underway, ← spanId, ← kept.1, ← kept.2]
      rfl
    have fired : (s.put c call).Booked env fs (s₁.put c call'') := by
      have move : SpanBook.Move (env.randomHex 8) _ _ := .fire stored shut now
      rw [book_put, SpanBook.fire] at move
      rw [Booked, book_put, book_put, opened, known,
        ← SpanBook.put_put ((s.book fs).openSpan _ k) c call.spanCall]
      exact .single move
    exact fired.trans (booked_of_eq (book_emit _ fun _ => rfl))

/-- An outcome is passed on. -/
theorem settle_booked (known : call.onDone ∈ fs) (c : ℕ) (r : Response) (clk : Clock) :
    (s.put c call).Booked env fs (s.settle c call r clk) := by
  unfold settle
  dsimp only
  generalize disarmed : (if call.promoteTimer.isSome then _ else _ : Call) = call'
  have same : call'.spanCall = call.spanCall := by
    rw [← disarmed]
    split <;> rfl
  generalize stored : (if call'.taskId.isEmpty then s else _ : PipelineState) = s'
  have kept : s'.book fs = s.book fs := by
    rw [← stored]
    split <;> rfl
  have here : (s'.put c call').book fs = (s.put c call).book fs := by
    rw [book_put, book_put, kept, same]
  have known' : call'.onDone ∈ fs := Call.onDone_of_spanCall same ▸ known
  exact (booked_of_eq here).trans (respond_booked known' c _ _)

/-- The span of an attempt ends, if it is open. -/
theorem closeSpan_booked (env : Env) (fs : List Finish) (s : PipelineState) (c : ℕ) (call : Call)
    (klass : FailureClass) (ms : UInt64) :
    (s.put c call).Booked env fs
      (put (if call.upSpanLive then s.endSpan call.upTrace klass ms else s) c
        { call with upSpanLive := false }) := by
  have stored : ((s.put c call).book fs).calls c = some call.spanCall := by
    rw [book_put, SpanBook.calls_put, if_pos rfl]
  cases live : call.upSpanLive with
  | true =>
    have opened : call.spanCall.span = some call.upTrace.spanId := by
      rw [Call.spanCall, live]
      rfl
    have move : SpanBook.Move (env.randomHex 8) _ _ := .close stored opened
    have ended := SpanBook.put_put ((s.book fs).close call.upTrace.spanId) c call.spanCall
      { call.spanCall with span := none }
    rw [Booked, if_pos rfl, book_put _ c { call with upSpanLive := false }, book_endSpan]
    rw [book_put] at move ⊢
    exact .single (ended ▸ move)
  | false =>
    refine booked_of_eq ?_
    rw [if_neg Bool.false_ne_true, book_put, book_put, Call.spanCall, Call.spanCall, live]

theorem book_report (s : PipelineState) (backend : String) (r : Response) (now : UInt64) :
    (s.report backend r now).book fs = s.book fs := by
  unfold report
  split <;> rfl

/-- An outcome ends the span of its attempt before anything else happens. -/
theorem onUpstream_booked (known : call.onDone ∈ fs) (c : ℕ) (r : Response) (clk : Clock) :
    (s.put c call).Booked env fs (s.onUpstream env c call r clk) := by
  have heard : (s.put c call).Booked env fs ((s.emit (.outcome c r.klass)).put c call) := by
    refine booked_of_eq ?_
    rw [book_put, book_put, book_emit _ fun _ => rfl]
  unfold onUpstream
  dsimp only
  have closed := closeSpan_booked env fs (s.emit (.outcome c r.klass)) c call r.klass r.upstreamMs
  generalize (if call.upSpanLive then _ else _ : PipelineState) = s₁ at closed ⊢
  refine heard.trans (closed.trans ?_)
  split
  · refine booked_of_eq ?_
    rw [book_put, book_put]
    rfl
  · generalize s₁.circuit.isOpen call.key.backend (clk 0) = looked
    obtain ⟨circuit, circuitOpen⟩ := looked
    dsimp only
    have told : (s₁.put c { call with upSpanLive := false }).Booked env fs
        (({ s₁ with circuit := circuit }.report call.key.backend r (clk 1)).put c
          { call with upSpanLive := false }) := by
      refine booked_of_eq ?_
      rw [book_put, book_put, book_report]
      rfl
    refine told.trans ?_
    split
    · exact fireAttempt_booked rfl c _ _
    · have known' : Call.onDone { call with upSpanLive := false } ∈ fs := known
      exact settle_booked known' c _ _

theorem book_releasePermit (s : PipelineState) (permit : ToolKey × String) :
    (s.releasePermit permit).book fs = s.book fs := rfl

theorem book_erase (s : PipelineState) (c : ℕ) :
    { s with calls := s.calls.erase c }.book fs = (s.book fs).erase c := by
  refine SpanBook.ext rfl rfl rfl (funext fun c' => ?_) rfl rfl rfl
  rw [SpanBook.calls_erase]
  simp only [book, UnorderedMap.lookup_erase]
  split <;> rfl

/-- A call that goes ends the span of its attempt and answers its request, if it has not. -/
theorem destroy_booked (known : call.onDone ∈ fs) (c : ℕ) (clk : Clock) :
    (s.put c call).Booked env fs (s.destroy c call clk) := by
  unfold destroy
  dsimp only
  have closed := closeSpan_booked env fs s c call .cancelled (clk 0 - call.t0)
  generalize (if call.upSpanLive then _ else s : PipelineState) = s₁ at closed ⊢
  obtain ⟨answered, -⟩ := book_respond fs s₁ call cancelledResponse (clk.after 1)
  generalize s₁.respond call cancelledResponse (clk.after 1) = responded at answered ⊢
  obtain ⟨s₂, call₂⟩ := responded
  have answers : (s₁.put c { call with upSpanLive := false }).Booked env fs
      (s₂.put c { call with upSpanLive := false }) := by
    rw [Booked, book_put, book_put, answered]
    split
    · exact .refl
    · exact .single (.answer known)
  have erased : (s₂.put c { call with upSpanLive := false }).Booked env fs
      { s₂ with calls := s₂.calls.erase c } := by
    have stored : ((s₂.book fs).put c (Call.spanCall { call with upSpanLive := false })).calls c =
        some (Call.spanCall { call with upSpanLive := false }) := by
      rw [SpanBook.calls_put, if_pos rfl]
    rw [Booked, book_erase, book_put, ← SpanBook.erase_put _ c]
    exact .single (.destroy stored rfl)
  refine closed.trans (answers.trans (erased.trans (booked_of_eq ?_)))
  rw [book_releasePermit, book_emit _ fun _ => rfl]
  rfl

/-! ## Admission -/

theorem rejected_booked (known : w.onDone ∈ fs) (now : UInt64) :
    s.Booked env fs (s.rejected w now) := by
  unfold rejected
  dsimp only
  generalize counted : ({ s with counters := _ } : PipelineState) = s₁
  have same : s₁.book fs = s.book fs := by
    rw [← counted]
    rfl
  exact (booked_of_eq same).trans (finish_booked known _ _)

theorem refused_booked (known : w.onDone ∈ fs) (circuitOpen : Bool) (now : UInt64) :
    s.Booked env fs (s.refused w circuitOpen now) := by
  unfold refused
  dsimp only
  generalize counted : (if circuitOpen then _ else s : PipelineState) = s₁
  have same : s₁.book fs = s.book fs := by
    rw [← counted]
    split <;> rfl
  have answered : s₁.Booked env fs
      (s₁.finish w.onDone (.ofText .unavailable "upstream unavailable") now) :=
    finish_booked known _ now
  exact (booked_of_eq same).trans (answered.trans (booked_of_eq (book_releasePermit ..)))

/-- A call that is admitted enters the table before its first attempt. -/
theorem startCall_booked (known : w.onDone ∈ fs) (new : s.calls.lookup s.nextCall = none)
    (summary : String) (now : UInt64) (clk : Clock) :
    s.Booked env fs (s.startCall env w summary now clk) := by
  unfold startCall
  dsimp only [draw]
  refine Relation.ReflTransGen.trans ?_ (fireAttempt_booked rfl s.nextCall none (clk.after 1))
  have absent : (s.book fs).calls s.nextCall = none := by
    change (s.calls.lookup s.nextCall).map Call.spanCall = none
    rw [new, Option.map_none]
  generalize entered : PipelineState.mk _ _ _ _ _ _ _ _ _ _ _ _ _ _ _ _ _ _ _ = s₁
  have drawn : s₁.book fs = { s.book fs with draws := s.draws + 1 } := by
    rw [← entered]
    exact book_emit { s with draws := s.draws + 1 } fun _ => rfl
  rw [book_put, drawn]
  have later : s.draws ≤ s.draws + 1 := Nat.le_succ _
  exact .tail (.single (.draw later)) (.start absent known)

/-- The queues lose waiters, or get some that have received requests. -/
theorem gov_booked {gov : LocalGovernor Waiting}
    (queues : ∀ {ts w}, w ∈ gov.queue ts → w ∈ s.gov.queue ts ∨ w.cb.onDone ∈ fs) :
    s.Booked env fs { s with gov := gov } := by
  refine .single (SpanBook.Move.queue (b := s.book fs) fun f waits => ?_)
  obtain ⟨ts, w, member, rfl⟩ := waits
  exact (queues member).imp_left fun member => ⟨ts, w, member, rfl⟩

theorem admitted_booked (known : w.onDone ∈ fs) (new : s.calls.lookup s.nextCall = none)
    (clk : Clock) : s.Booked env fs (s.admitted env w clk) := by
  unfold admitted
  dsimp only
  generalize s.circuit.isOpen w.key.backend (clk 0) = looked
  obtain ⟨circuit, circuitOpen⟩ := looked
  dsimp only
  have seen : s.Booked env fs { s with circuit := circuit } := booked_of_eq rfl
  refine seen.trans ?_
  split
  · exact refused_booked known circuitOpen (clk 1)
  · split
    · exact booked_of_eq rfl
    · next summary _ =>
      exact startCall_booked (s := { s with circuit := circuit }) known new summary (clk 0)
        (clk.after 1)

theorem acquire_booked (known : w.onDone ∈ fs) (new : s.calls.lookup s.nextCall = none)
    (clk : Clock) : s.Booked env fs (s.acquire env w clk) := by
  unfold acquire
  rcases s.gov.acquire_cases w.req.who w.key (clk 0 + queueWait env w.key) w (clk 1) with
    ⟨-, took⟩ | ⟨-, deadline, -, took⟩ | ⟨-, took⟩ <;> rw [took] <;> dsimp only
  · have taken : s.Booked env fs { s with gov := s.gov.take w.key.str w.req.who.agentId } :=
      gov_booked fun member => .inl member
    generalize held : ({ s with gov := s.gov.take w.key.str w.req.who.agentId } : PipelineState) =
      s₁ at taken
    have new₁ : s₁.calls.lookup s₁.nextCall = none := by
      rw [← held]
      exact new
    exact taken.trans (admitted_booked known new₁ (clk.after 2))
  · refine gov_booked fun {ts waiter} member => ?_
    rw [LocalGovernor.queue_enqueue] at member
    split at member
    · rcases List.mem_append.mp member with older | new
      · exact .inl older
      · rw [List.mem_singleton.mp new]
        exact .inr known
    · exact .inl member
  · exact rejected_booked known (clk 2)

/-! ## Requests -/

/-- Only an id is drawn. -/
def Draws (fs : List Finish) (s s' : PipelineState) : Prop :=
  ∃ n, s.draws ≤ n ∧ s'.book fs = { s.book fs with draws := n }

theorem Draws.booked (h : Draws fs s s') (env : Env) : s.Booked env fs s' := by
  obtain ⟨n, more, same⟩ := h
  rw [Booked, same]
  exact .single (.draw more)

theorem Draws.of_eq (same : s'.book fs = s.book fs) : Draws fs s s' := ⟨s.draws, le_rfl, same⟩

/-- A task handle is noted in a span. -/
theorem book_noteTask (s : PipelineState) (ctx : TraceContext) (taskId : String) (now : UInt64) :
    let out := s.answerTask taskId now
    book (if out.2.klass = .ok then out.1.setSpan ctx "task_id" taskId else out.1) fs =
      s.book fs := by
  dsimp only
  split
  · rw [book_setSpan, book_answerTask]
  · exact book_answerTask ..

theorem duplicateTask_draws (fs : List Finish) (env : Env) (req : Request) (key : ToolKey)
    (hit : InFlightEntry) (orig : Option (ℕ × Call))
    (stored : ∀ c call, orig = some (c, call) → s.calls.lookup c = some call) (clk : Clock) :
    Draws fs s (s.duplicateTask env req key hit orig clk).1 := by
  unfold duplicateTask
  dsimp only [draw]
  generalize "tsk_" ++ env.randomHex 8 s.draws = id
  generalize MemTaskStore.insert _ _ _ = inserted
  obtain ⟨store, room⟩ := inserted
  refine ⟨s.draws + 1, Nat.le_succ _, ?_⟩
  cases room with
  | false => rfl
  | true =>
    simp only [Bool.not_true, Bool.false_eq_true, if_false]
    cases orig with
    | none =>
      exact book_noteTask _ req.trace id (clk 2)
    | some orig =>
      obtain ⟨c, call⟩ := orig
      refine (book_noteTask _ req.trace id (clk 2)).trans ?_
      dsimp only
      rw [book_put, (book_attachTask fs _ c call _).1, (book_attachTask fs _ c call _).2]
      exact SpanBook.put_self (book_calls (stored c call rfl))

theorem answerDuplicate_draws (fs : List Finish) (env : Env) (s : PipelineState) (req : Request)
    (key : ToolKey) (hit : InFlightEntry) (clk : Clock) :
    Draws fs s (s.answerDuplicate env req key hit clk).1 := by
  unfold answerDuplicate
  dsimp only
  generalize noted : PipelineState.setSpan _ req.trace "inflight_id" hit.inflightId = s₁
  have same : s₁.book fs = s.book fs := by
    rw [← noted, book_setSpan, book_setSpan]
    rfl
  split
  · split
    · obtain ⟨n, more, drawn⟩ := duplicateTask_draws fs env req key hit
        (s₁.liveCall hit.inflightId) (fun c call found => (liveCall_spec found).2) clk
      have draws : s₁.draws = s.draws := congrArg SpanBook.draws same
      exact ⟨n, draws ▸ more, by rw [drawn, same]⟩
    · exact .of_eq ((book_noteTask s₁ req.trace _ (clk 2)).trans same)
  · exact .of_eq same

theorem handOver_booked (known : w.onDone ∈ fs) (new : s.calls.lookup s.nextCall = none)
    (clk : Clock) : s.Booked env fs (s.handOver env w clk) := by
  unfold handOver
  dsimp only
  generalize counted : (if w.confirmed then _ else s : PipelineState) = s₁
  have same : s₁.book fs = s.book fs ∧ s₁.calls = s.calls ∧ s₁.nextCall = s.nextCall := by
    rw [← counted]
    split <;> exact ⟨rfl, rfl, rfl⟩
  refine (booked_of_eq same.1).trans ?_
  split
  · exact finish_booked known _ _
  · exact acquire_booked known (by rw [same.2.1, same.2.2, new]) clk

theorem threw_booked (rid : ℕ) : s.Booked env fs (s.emit (.threw rid)) :=
  booked_of_eq (book_emit s fun _ => rfl)

theorem handleUpstream_booked (known : fin ∈ fs) (new : s.calls.lookup s.nextCall = none)
    (req : Request) (key : ToolKey) (clk : Clock) :
    s.Booked env fs (s.handleUpstream env req key fin clk) := by
  unfold handleUpstream
  split
  · exact threw_booked _
  · dsimp only
    split
    · exact threw_booked _
    · split
      · next hit _ _ =>
        have told := (answerDuplicate_draws fs env s req key hit clk).booked env
        exact told.trans (finish_booked known _ _)
      · exact handOver_booked known new clk

theorem handleBuiltin_draws (fs : List Finish) (env : Env) (s : PipelineState) (req : Request)
    (key : ToolKey) (clk : Clock) : Draws fs s (s.handleBuiltin env req key clk).1 := by
  unfold handleBuiltin
  split
  · split
    · exact .of_eq rfl
    · dsimp only
      split
      · exact .of_eq rfl
      · split
        · exact .of_eq rfl
        · split
          · exact .of_eq rfl
          · exact ⟨s.draws + 1, Nat.le_succ _, rfl⟩
  · split
    · split <;> exact .of_eq rfl
    · exact .of_eq rfl

theorem handleCall_booked (known : fin ∈ fs) (new : s.calls.lookup s.nextCall = none)
    (req : Request) (clk : Clock) : s.Booked env fs (s.handleCall env req fin clk) := by
  unfold handleCall
  split
  · exact finish_booked known _ _
  · next key _ =>
    split
    · exact finish_booked known _ _
    · exact finish_booked known _ _
    · split
      · have drawn := (handleBuiltin_draws fs env s req key clk).booked env
        revert drawn
        generalize s.handleBuiltin env req key clk = out
        obtain ⟨s₁, outcome⟩ := out
        intro drawn
        cases outcome with
        | ok r => exact drawn.trans (finish_booked known _ _)
        | error e => exact drawn.trans (threw_booked _)
      · exact handleUpstream_booked known new req key clk

/-- Every live call has a request that was received. -/
def KnowsCalls (fs : List Finish) (s : PipelineState) : Prop :=
  ∀ c call, s.calls.lookup c = some call → call.onDone ∈ fs

/-- A call whose client stops waiting, as the table has it. -/
theorem cancelWait_stored (env : Env) (known : call.onDone ∈ fs)
    (stored : s.calls.lookup c = some call) (clk : Clock) :
    s.Booked env fs (s.cancelWait c call clk) :=
  (booked_of_eq (book_put_self stored rfl)).trans (cancelWait_booked known c clk)

theorem cancelTask_booked (known : fin ∈ fs) (calls : s.KnowsCalls fs) (taskId : String)
    (who : Principal) (clk : Clock) : s.Booked env fs (s.cancelTask taskId who fin clk) := by
  unfold cancelTask
  have swept : ∀ store, s.Booked env fs { s with tasks := store } := fun _ => booked_of_eq rfl
  rcases s.getTask_cases taskId who (clk 0) with ⟨-, looked⟩ | ⟨t, -, -, looked⟩ <;>
    rw [looked] <;> dsimp only
  · exact (swept _).trans (finish_booked known _ _)
  · generalize (s.tasks.sweep (clk 0)).updateStatus taskId .cancelled .null (clk 1) = store
    refine ((swept store).trans ?_).trans (finish_booked known _ _)
    split
    · next c _ =>
      split
      · next call stored =>
        exact cancelWait_stored env (s := { s with tasks := store }) (c := c) (calls c call stored)
          stored (clk.after 2)
      · exact .refl
    · exact .refl

theorem dispatch_booked (known : fin ∈ fs) (new : s.calls.lookup s.nextCall = none)
    (calls : s.KnowsCalls fs) (req : Request) (clk : Clock) :
    s.Booked env fs (s.dispatch env req fin clk) := by
  unfold dispatch
  split
  · exact finish_booked known _ _
  split
  · exact finish_booked known _ _
  split
  · have swept : ∀ store, s.Booked env fs { s with tasks := store } := fun _ => booked_of_eq rfl
    rcases s.getTask_cases req.name req.who (clk 0) with ⟨-, looked⟩ | ⟨t, -, -, looked⟩ <;>
      rw [looked] <;> exact (swept _).trans (finish_booked known _ _)
  split
  · exact cancelTask_booked known calls req.name req.who clk
  split
  · exact handleCall_booked known new req clk
  · exact finish_booked known _ _

/-- A request is received and handled. -/
theorem handle_booked (new : s.calls.lookup s.nextCall = none) (calls : s.KnowsCalls fs)
    (req : Request) (clk : Clock) :
    SpanBook.Moves (env.randomHex 8) (s.book fs)
      ((s.handle env req clk).book ((s.received env req clk).2.2 :: fs)) := by
  refine (book_received env s req clk fs).trans ?_
  have kept : (s.received env req clk).1.calls = s.calls ∧
      (s.received env req clk).1.nextCall = s.nextCall := by
    obtain ⟨n, tracer, ctx, fin, received, -⟩ := received_eq env s req clk
    rw [received]
    exact ⟨rfl, rfl⟩
  unfold handle
  revert kept
  generalize s.received env req clk = out
  obtain ⟨s₁, req₁, fin⟩ := out
  rintro ⟨sameCalls, sameNext⟩
  have calls₁ : s₁.KnowsCalls (fin :: fs) := fun c call stored =>
    .tail _ (calls c call (sameCalls ▸ stored))
  have new₁ : s₁.calls.lookup s₁.nextCall = none := sameCalls ▸ sameNext ▸ new
  exact dispatch_booked (.head _) new₁ calls₁ req₁ (clk.after 3)

end PipelineState

end Perfacet
