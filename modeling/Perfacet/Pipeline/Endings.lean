import Perfacet.Observe.Spans
import Perfacet.Pipeline.Effects
import Perfacet.Pipeline.Shutdown
import Perfacet.Pipeline.Summary
import Perfacet.Policy.GrantLog

/-!
# How the handling of a request ends

A request is answered on the spot, or handed over to the governor or to a call. An answer on the
spot is serialised, and so are the two spans of the request, whose texts come from the
configuration, the client and the headers. What is thrown there ends the process.

## Main definitions

* `PipelineState.Ends` — the request was handled, and everything could be serialised
* `PipelineState.UpstreamFits` — the calls of upstreams that can be handled

## Main results

* `PipelineState.ends_handleUpstream` — a call of an upstream ends well exactly if it fits
-/

namespace Perfacet

variable {env : Env} {s s' : PipelineState} {req : Request} {who : Principal} {fin : Finish}
  {ctx trace : TraceContext} {t : Tracer} {rid : ℕ} {id : Json} {key : ToolKey}
  {hit : InFlightEntry}

/-- `randomHex` draws hexadecimal digits, which are ASCII. -/
def Env.Hex (env : Env) : Prop := ∀ n k, Json.utf8 (env.randomHex n k) = true

theorem Env.Hex.taskId (hex : env.Hex) (k : ℕ) :
    Json.utf8 ("tsk_" ++ env.randomHex 8 k) = true := by
  rw [Json.utf8_append (by decide)]
  exact hex 8 k

/-! ## The spans of a request -/

/-- The texts of the operator, the client and the headers that a request's spans repeat are
UTF-8. -/
structure Tracer.Legible (t : Tracer) (who : Principal) (trace : TraceContext) : Prop where
  service : Json.utf8 t.service = true
  agentId : Json.utf8 who.agentId = true
  levelName : Json.utf8 who.levelName = true
  traceId : Json.utf8 trace.traceId = true
  spanId : Json.utf8 trace.spanId = true

/-- The two spans of a request that continues a trace. -/
structure Finish.Spans (fin : Finish) (t : Tracer) (who : Principal) (trace : TraceContext) :
    Prop where
  gateway : t.Opened who fin.gateway
  total : t.Opened who fin.total
  apart : fin.total.spanId ≠ fin.gateway.spanId
  gatewayIds : fin.gateway.Legible ↔ Json.utf8 trace.traceId = true
  totalIds : fin.total.Legible ↔ Json.utf8 trace.traceId = true ∧ Json.utf8 trace.spanId = true

namespace PipelineState

theorem endSpan_of_opened (opened : s.tracer.Opened who ctx) (klass : FailureClass)
    (ms : UInt64) :
    (s.endSpan ctx klass ms).tracer = { s.tracer with live := s.tracer.live.erase ctx.spanId } ∧
      ((s.endSpan ctx klass ms).terminated = false ↔ s.terminated = false ∧
        Json.utf8 s.tracer.service = true ∧ Json.utf8 who.agentId = true ∧
        Json.utf8 who.levelName = true ∧ ctx.Legible) := by
  obtain ⟨result, finished, exported⟩ := opened.finish klass ms
  unfold endSpan
  rw [finished, ← exported]
  cases result with
  | ok text => simp
  | error e => simp

/-- A request that is answered ends its spans, which fails exactly if one of their texts is not
UTF-8. -/
theorem terminated_finish (spans : fin.Spans s.tracer who trace) (r : Response) (now : UInt64) :
    (s.finish fin r now).terminated = false ↔
      s.terminated = false ∧ s.tracer.Legible who trace := by
  obtain ⟨closed, first⟩ := endSpan_of_opened spans.gateway r.klass (now - fin.t0)
  have total : (s.endSpan fin.gateway r.klass (now - fin.t0)).tracer.Opened who fin.total := by
    rw [closed]
    exact spans.total.erase spans.apart
  obtain ⟨-, second⟩ := endSpan_of_opened total r.klass (now - fin.t0)
  rw [closed] at second
  refine second.trans ?_
  rw [first, spans.gatewayIds, spans.totalIds]
  constructor
  · rintro ⟨⟨alive, -⟩, service, agentId, levelName, traceId, spanId⟩
    exact ⟨alive, service, agentId, levelName, traceId, spanId⟩
  · rintro ⟨alive, service, agentId, levelName, traceId, spanId⟩
    exact ⟨⟨alive, service, agentId, levelName, traceId⟩, service, agentId, levelName, traceId,
      spanId⟩

/-- A new span is open, and has ids that were drawn or came with the request. -/
theorem startSpan_opened (s : PipelineState) (req : Request) (hex : env.Hex)
    (named : Json.utf8 req.name = true) {spanName : String}
    (plain : Json.utf8 spanName = true) (now : UInt64) :
    let out := s.startSpan env req spanName now
    out.1.tracer.Opened req.who out.2 ∧ out.2.parentSpanId = req.trace.spanId ∧
      (Json.utf8 out.2.traceId = true ↔ Json.utf8 req.trace.traceId = true) ∧
      (∃ n, s.draws ≤ n ∧ n < out.1.draws ∧ out.2.spanId = env.randomHex 8 n) ∧
      out.1.tracer.service = s.tracer.service ∧ out.1.terminated = s.terminated ∧
      ∀ {who ctx}, s.tracer.Opened who ctx → ctx.spanId ≠ out.2.spanId →
        out.1.tracer.Opened who ctx := by
  unfold startSpan
  by_cases new : req.trace.traceId.isEmpty
  · have empty : Json.utf8 req.trace.traceId = true := by
      rw [String.isEmpty_iff.mp new]
      decide
    rw [if_pos new]
    exact ⟨Tracer.opened_start named plain rfl, rfl, iff_of_true (hex 16 _) empty,
      ⟨s.draws + 1, Nat.le_succ _, Nat.lt_succ_self _, rfl⟩, rfl, rfl,
      fun opened other => opened.start other ..⟩
  · rw [if_neg new]
    exact ⟨Tracer.opened_start named plain rfl, rfl, Iff.rfl,
      ⟨s.draws, le_rfl, Nat.lt_succ_self _, rfl⟩, rfl, rfl,
      fun opened other => opened.start other ..⟩

/-- Receiving a request opens its spans. -/
theorem received_spans (hex : env.Hex) (named : Json.utf8 req.name = true) (clk : Clock) :
    let out := s.received env req clk
    out.2.2.Spans out.1.tracer req.who req.trace ∧
      out.1.tracer.service = s.tracer.service ∧ out.1.terminated = s.terminated := by
  unfold received
  dsimp only
  generalize logged : ({ s with nextRequest := _, log := _ } : PipelineState) = s₀
  have first := startSpan_opened s₀ req hex named (show Json.utf8 "total" = true by decide) (clk 1)
  revert first
  generalize s₀.startSpan env req "total" (clk 1) = one
  obtain ⟨s₁, total⟩ := one
  rintro ⟨opened, parent, traceId, ⟨n, -, drawn, spanId⟩, service, alive, -⟩
  have second := startSpan_opened s₁ { req with trace := total } hex named
    (show Json.utf8 "gateway" = true by decide) (clk 2)
  revert second
  dsimp only at opened parent traceId drawn spanId service alive ⊢
  generalize s₁.startSpan env { req with trace := total } "gateway" (clk 2) = two
  obtain ⟨s₂, gateway⟩ := two
  rintro ⟨opened', parent', traceId', ⟨m, later, -, spanId'⟩, service', alive', others⟩
  dsimp only at opened' parent' traceId' later spanId' service' alive' others ⊢
  have apart : total.spanId ≠ gateway.spanId := by
    rw [spanId, spanId']
    intro same
    have equal : n = m := env.distinct 8 same
    omega
  have totalSpan : Json.utf8 total.spanId = true := spanId ▸ hex 8 n
  have gatewaySpan : Json.utf8 gateway.spanId = true := spanId' ▸ hex 8 m
  refine ⟨⟨opened', others opened apart, apart, ?_, ?_⟩, ?_, ?_⟩
  · rw [← traceId, ← traceId']
    exact ⟨fun ids => ids.traceId, fun trace => ⟨trace, gatewaySpan, parent' ▸ totalSpan⟩⟩
  · rw [← traceId, ← parent]
    exact ⟨fun ids => ⟨ids.traceId, ids.parentSpanId⟩, fun ids => ⟨ids.1, totalSpan, ids.2⟩⟩
  · rw [service', service, ← logged]
  · rw [alive', alive, ← logged]

/-! ## How the handling of a request ends -/

/-- Neither the process nor the handling of the request has ended with an exception, and if the
request has an answer, it could be serialised. -/
structure Ends (s : PipelineState) (rid : ℕ) (id : Json) : Prop where
  survives : s.terminated = false
  returned : .threw rid ∉ s.log
  sent : ∀ r, .answered rid r ∈ s.log → ∃ text, (HttpMcp.wrapRpc id r).dump = .ok text

/-- The request was received, and nothing else has happened to it. -/
structure Begun (s : PipelineState) (fin : Finish) (who : Principal) (trace : TraceContext) :
    Prop where
  alive : s.terminated = false
  unthrown : .threw fin.rid ∉ s.log
  unanswered : ∀ r, .answered fin.rid r ∉ s.log
  spans : fin.Spans s.tracer who trace

/-- Nothing was logged, and open spans have stayed open. -/
structure Silent (s s' : PipelineState) : Prop where
  terminated : s'.terminated = s.terminated
  log : s'.log = s.log
  service : s'.tracer.service = s.tracer.service
  opened : ∀ {who ctx}, s.tracer.Opened who ctx → s'.tracer.Opened who ctx

namespace Silent

theorem of_eq (terminated : s'.terminated = s.terminated) (log : s'.log = s.log)
    (tracer : s'.tracer = s.tracer) : s.Silent s' :=
  ⟨terminated, log, congrArg _ tracer, fun opened => tracer ▸ opened⟩

theorem trans {s'' : PipelineState} (h : s.Silent s') (h' : s'.Silent s'') : s.Silent s'' :=
  ⟨h'.terminated.trans h.terminated, h'.log.trans h.log, h'.service.trans h.service,
    fun opened => h'.opened (h.opened opened)⟩

theorem setSpan (s : PipelineState) (ctx : TraceContext) {key value : String}
    (plain : Json.utf8 key = true) (fine : Json.utf8 value = true) :
    s.Silent (s.setSpan ctx key value) := by
  refine ⟨rfl, rfl, ?_, fun opened => opened.set ctx plain fine⟩
  unfold PipelineState.setSpan Tracer.set
  split <;> rfl

theorem begun (h : s.Silent s') (begun : s.Begun fin who trace) : s'.Begun fin who trace where
  alive := h.terminated.trans begun.alive
  unthrown := h.log ▸ begun.unthrown
  unanswered := h.log ▸ begun.unanswered
  spans :=
    { begun.spans with
      gateway := h.opened begun.spans.gateway
      total := h.opened begun.spans.total }

theorem legible (h : s.Silent s') :
    s'.tracer.Legible who trace ↔ s.tracer.Legible who trace := by
  constructor
  · exact fun texts => { texts with service := h.service ▸ texts.service }
  · exact fun texts => { texts with service := h.service.symm ▸ texts.service }

theorem put (s : PipelineState) (c : ℕ) (call : Call) : s.Silent (s.put c call) :=
  .of_eq rfl rfl rfl

end Silent

theorem Ends.congr (h : s.Ends rid id) (terminated : s'.terminated = s.terminated)
    (log : s'.log = s.log) : s'.Ends rid id :=
  ⟨terminated.trans h.survives, log ▸ h.returned, log ▸ h.sent⟩

theorem ends_congr (terminated : s'.terminated = s.terminated) (log : s'.log = s.log) :
    s'.Ends rid id ↔ s.Ends rid id :=
  ⟨fun h => h.congr terminated.symm log.symm, fun h => h.congr terminated log⟩

/-- A request that has thrown is not taken care of. -/
theorem not_ends_threw (s : PipelineState) : ¬ (s.emit (.threw rid)).Ends rid id :=
  fun h => h.returned List.mem_cons_self

/-- A request that is answered is taken care of exactly if its spans can be exported and the
answer can be sent. -/
theorem ends_finish (begun : s.Begun fin who trace) (numbered : id.allUtf8 = true) (r : Response)
    (now : UInt64) : (s.finish fin r now).Ends fin.rid id ↔
      s.tracer.Legible who trace ∧ r.body.allUtf8 = true := by
  have log : (s.finish fin r now).log = .answered fin.rid (stamp fin r now) :: s.log :=
    congrArg Core.log (core_finish s fin r now .empty)
  have answer : (∃ text, (HttpMcp.wrapRpc id (stamp fin r now)).dump = .ok text) ↔
      r.body.allUtf8 = true := by
    rw [Json.dump_ok_iff, allUtf8_wrapRpc numbered]
    rfl
  constructor
  · intro h
    have sent := h.sent (stamp fin r now) (log ▸ List.mem_cons_self)
    exact ⟨((terminated_finish begun.spans r now).mp h.survives).2, answer.mp sent⟩
  · rintro ⟨texts, body⟩
    refine ⟨(terminated_finish begun.spans r now).mpr ⟨begun.alive, texts⟩, ?_, ?_⟩
    · rw [log]
      simpa using begun.unthrown
    · intro r' answered
      rw [log] at answered
      rcases List.mem_cons.mp answered with same | older
      · cases same
        exact answer.mpr body
      · exact absurd older (begun.unanswered r')

/-- So is one that waits or has become a call. -/
theorem ends_of_quiet (begun : s.Begun fin who trace) (terminated : s'.terminated = s.terminated)
    (quiet : ∀ e ∈ s'.log, e ∈ s.log ∨ e.isThrow fin.rid = false ∧ e.isAnswer fin.rid = false) :
    s'.Ends fin.rid id := by
  refine ⟨terminated.trans begun.alive, fun thrown => ?_, fun r answered => ?_⟩
  · rcases quiet _ thrown with older | ⟨other, -⟩
    · exact begun.unthrown older
    · exact absurd (decide_eq_true rfl) (ne_true_of_eq_false other)
  · rcases quiet _ answered with older | ⟨-, other⟩
    · exact absurd older (begun.unanswered r)
    · exact absurd (decide_eq_true rfl) (ne_true_of_eq_false other)

/-! ## Calls that are handed over -/

theorem allUtf8_ofText {klass : FailureClass} {text : String} (plain : Json.utf8 text = true) :
    (Response.ofText klass text).body.allUtf8 = true :=
  (allUtf8_callToolText_iff text true).mpr plain

theorem quiet_startSpan (env : Env) (s : PipelineState) (req : Request) (spanName : String)
    (now : UInt64) : (s.startSpan env req spanName now).1.terminated = s.terminated ∧
      (s.startSpan env req spanName now).1.log = s.log := by
  obtain ⟨n, tracer, ctx, started⟩ := startSpan_eq env s req spanName now
  rw [started]
  exact ⟨rfl, rfl⟩

/-- An attempt throws nothing and answers nobody. -/
theorem fireAttempt_quiet (env : Env) (s : PipelineState) (c : ℕ) (call : Call)
    (decided : Option UInt64) (clk : Clock) :
    (s.fireAttempt env c call decided clk).terminated = s.terminated ∧
      ∀ e ∈ (s.fireAttempt env c call decided clk).log, e ∈ s.log ∨
        ∀ rid, e.isThrow rid = false ∧ e.isAnswer rid = false := by
  unfold fireAttempt
  split
  · exact ⟨rfl, fun e => .inl⟩
  · -- an attempt is logged and the backend entered
    have entered : ∀ (s' : PipelineState) (call' : Call) (e : PipelineEvent),
        s'.terminated = s.terminated → s'.log = s.log →
        (∀ rid, e.isThrow rid = false ∧ e.isAnswer rid = false) →
        let fired := { (s'.put c call').emit e with stack := .inBackend c :: s'.stack }
        fired.terminated = s.terminated ∧ ∀ e' ∈ fired.log, e' ∈ s.log ∨
          ∀ rid, e'.isThrow rid = false ∧ e'.isAnswer rid = false := by
      intro s' call' e terminated log other
      refine ⟨terminated, fun e' member => ?_⟩
      rcases List.mem_cons.mp member with rfl | older
      · exact .inr other
      · exact .inl (log ▸ older)
    obtain ⟨terminated, log⟩ := quiet_startSpan env s _ "upstream" (clk 0)
    exact entered _ _ _ terminated log fun rid => ⟨rfl, rfl⟩

/-- The governor lets the call through and its upstream can be called, or it finds a place in
the queue. -/
def Welcomes (env : Env) (s : PipelineState) (who : Principal) (key : ToolKey) (clk : Clock) :
    Prop :=
  if s.gov.canTake key.str who.agentId then
    (s.circuit.isOpen key.backend (clk 2)).2 = false ∧ s.healthState key.backend ≠ .down
  else
    let deadline := clk 0 + queueWait env key
    clk 1 < if deadline = 0 then clk 1 + s.gov.toolWaitMs key.str else deadline

theorem summaryOf_ok {params : Json} (plain : params.allUtf8 = true) :
    ∃ summary, summaryOf params = .ok summary := by
  obtain ⟨summary, made, -⟩ := utf8_summaryOf_iff plain
  exact ⟨summary, made⟩

/-- A call whose upstream cannot be called is answered. -/
theorem ends_refused {w : Waiting} (begun : s.Begun w.onDone who trace)
    (numbered : id.allUtf8 = true) (circuitOpen : Bool) (now : UInt64) :
    (s.refused w circuitOpen now).Ends w.onDone.rid id ↔ s.tracer.Legible who trace := by
  have plain : (Response.ofText .unavailable "upstream unavailable").body.allUtf8 = true :=
    allUtf8_ofText (by decide)
  unfold refused
  dsimp only
  generalize counted : (if circuitOpen then _ else s : PipelineState) = s'
  have silent : s.Silent s' := by
    rw [← counted]
    split <;> exact .of_eq rfl rfl rfl
  have answered := ends_finish (silent.begun begun) numbered
    (.ofText .unavailable "upstream unavailable") now
  rw [plain, and_iff_left rfl, silent.legible] at answered
  refine Iff.trans (ends_congr ?_ ?_) answered
  · rfl
  · rfl

/-- A call that finds no place in the queue is answered. -/
theorem ends_rejected {w : Waiting} (begun : s.Begun w.onDone who trace)
    (numbered : id.allUtf8 = true) (now : UInt64) :
    (s.rejected w now).Ends w.onDone.rid id ↔ s.tracer.Legible who trace := by
  have plain : (Response.ofText .throttled "throttled").body.allUtf8 = true :=
    allUtf8_ofText (by decide)
  have silent : s.Silent { s with
      counters := { s.counters with throttled := s.counters.throttled + 1 } } := .of_eq rfl rfl rfl
  rw [rejected, ends_finish (silent.begun begun) numbered, plain, and_iff_left rfl, silent.legible]

/-- A call that starts is not answered yet. -/
theorem ends_startCall {w : Waiting} (begun : s.Begun w.onDone who trace) (summary : String)
    (now : UInt64) (clk : Clock) : (s.startCall env w summary now clk).Ends w.onDone.rid id := by
  unfold startCall
  dsimp only [draw]
  generalize entered : ({ s with
    draws := _, inflight := _, nextCall := _, live := _, stack := _, log := _ } :
      PipelineState) = s'
  obtain ⟨terminated, log⟩ := fireAttempt_quiet env s' s.nextCall
    (newCall w (env.randomHex 16 s.draws) (clk 0)) none (clk.after 1)
  refine ends_of_quiet begun (terminated.trans (entered ▸ rfl)) fun e member => ?_
  rcases log e member with older | other
  · rw [← entered] at older
    rcases List.mem_cons.mp older with rfl | older
    · exact .inr ⟨rfl, rfl⟩
    · exact .inl older
  · exact .inr (other _)

/-- A call that is let through is answered if its upstream cannot be called. -/
theorem ends_admitted {w : Waiting} (begun : s.Begun w.onDone who trace)
    (numbered : id.allUtf8 = true) (plain : w.req.params.allUtf8 = true) (clk : Clock) :
    (s.admitted env w clk).Ends w.onDone.rid id ↔
      (s.circuit.isOpen w.key.backend (clk 0)).2 = false ∧ s.healthState w.key.backend ≠ .down ∨
        s.tracer.Legible who trace := by
  obtain ⟨summary, made⟩ := summaryOf_ok plain
  unfold admitted
  dsimp only
  generalize looked : s.circuit.isOpen w.key.backend (clk 0) = result
  obtain ⟨circuit, circuitOpen⟩ := result
  have silent : s.Silent { s with circuit := circuit } := .of_eq rfl rfl rfl
  have health : { s with circuit := circuit }.healthState w.key.backend =
    s.healthState w.key.backend := rfl
  split
  · next unable =>
    rw [ends_refused (silent.begun begun) numbered, silent.legible]
    rw [health, Bool.or_eq_true, decide_eq_true_eq] at unable
    refine (or_iff_right fun able => ?_).symm
    rcases unable with isOpen | down
    · exact Bool.false_ne_true (able.1.symm.trans isOpen)
    · exact able.2 down
  · next able =>
    rw [health, Bool.or_eq_true, decide_eq_true_eq, not_or, Bool.not_eq_true] at able
    rw [made]
    exact iff_of_true (ends_startCall (silent.begun begun) ..) (.inl able)

/-- A call that is handed to the governor is answered if nobody takes it. -/
theorem ends_acquire {w : Waiting} (begun : s.Begun w.onDone who trace)
    (numbered : id.allUtf8 = true) (plain : w.req.params.allUtf8 = true) (clk : Clock) :
    (s.acquire env w clk).Ends w.onDone.rid id ↔
      s.Welcomes env w.req.who w.key clk ∨ s.tracer.Legible who trace := by
  unfold acquire Welcomes
  cases free : s.gov.canTake w.key.str w.req.who.agentId with
  | true =>
    rw [LocalGovernor.acquire_go free, if_pos rfl]
    have silent : s.Silent { s with gov := s.gov.take w.key.str w.req.who.agentId } :=
      .of_eq rfl rfl rfl
    rw [← silent.legible]
    exact ends_admitted (silent.begun begun) numbered plain (clk.after 2)
  | false =>
    rw [LocalGovernor.acquire, free, if_neg Bool.false_ne_true, if_neg Bool.false_ne_true]
    dsimp only
    generalize (if clk 0 + queueWait env w.key = 0 then clk 1 + s.gov.toolWaitMs w.key.str
      else clk 0 + queueWait env w.key) = deadline
    by_cases past : deadline ≤ clk 1
    · rw [if_pos past, or_iff_right (UInt64.not_lt.mpr past)]
      exact ends_rejected begun numbered (clk 2)
    · rw [if_neg past]
      refine iff_of_true (ends_of_quiet begun ?_ ?_) (.inl (UInt64.not_le.mp past))
      · rfl
      · exact fun e => .inl

/-- A call that has got past the duplicates is answered if the gateway is draining or nobody
takes it. -/
theorem ends_handOver {w : Waiting} (begun : s.Begun w.onDone who trace)
    (numbered : id.allUtf8 = true) (plain : w.req.params.allUtf8 = true) (clk : Clock) :
    (s.handOver env w clk).Ends w.onDone.rid id ↔
      s.stopping = false ∧ s.Welcomes env w.req.who w.key clk ∨ s.tracer.Legible who trace := by
  unfold handOver
  dsimp only
  generalize counted : (if w.confirmed then _ else s : PipelineState) = s'
  have same : s.Silent s' ∧ s'.stopping = s.stopping ∧
      (s'.Welcomes env w.req.who w.key clk ↔ s.Welcomes env w.req.who w.key clk) := by
    rw [← counted]
    split
    · exact ⟨.of_eq rfl rfl rfl, rfl, Iff.rfl⟩
    · exact ⟨.of_eq rfl rfl rfl, rfl, Iff.rfl⟩
  obtain ⟨silent, stopping, takes⟩ := same
  rw [stopping, ← silent.legible, ← takes]
  cases s.stopping with
  | true =>
    have draining : (jsonRpcError (-32000) "draining" .object).allUtf8 = true :=
      allUtf8_jsonRpcError (by decide) rfl
    rw [if_pos rfl, ends_finish (silent.begun begun) numbered]
    simp [Response.ofError, Response.ofBody, draining]
  | false =>
    rw [if_neg Bool.false_ne_true, ends_acquire (silent.begun begun) numbered plain]
    simp

/-! ## Duplicates -/

end PipelineState

theorem utf8_padded (width n : ℕ) : Json.utf8 (padded width n) = true := by
  have zeros : ∀ c ∈ List.replicate (width - (toString n).toList.length) '0', c.toNat < 0x80 := by
    intro c member
    rw [List.eq_of_mem_replicate member]
    decide
  rw [Json.utf8, padded, String.toList_ofList, Json.utf8From_append (Json.utf8_of_ascii zeros)]
  exact Json.utf8_toString_nat n

theorem utf8_iso8601Utc (now : UInt64) : Json.utf8 (iso8601Utc now) = true := by
  have year : ∀ n : ℕ, Json.utf8 (toString n) = true := Json.utf8_toString_nat
  unfold iso8601Utc
  simp only [String.append_assoc]
  rw [Json.utf8_append (year _), Json.utf8_append (by decide), Json.utf8_append (utf8_padded ..),
    Json.utf8_append (by decide), Json.utf8_append (utf8_padded ..), Json.utf8_append (by decide),
    Json.utf8_append (utf8_padded ..), Json.utf8_append (by decide),
    Json.utf8_append (utf8_padded ..), Json.utf8_append (by decide),
    Json.utf8_append (utf8_padded ..), Json.utf8_append (by decide),
    Json.utf8_append (utf8_padded ..)]
  decide

theorem allUtf8_createTaskResult {task : Task} (plain : Json.utf8 task.taskId = true) :
    (createTaskResult task).allUtf8 = true := by
  have keys : ∀ key ∈ ["resultType", "task", "taskId", "status", "createdAt", "lastUpdatedAt",
      "ttlMs", "pollIntervalMs"], Json.utf8 key = true := by decide
  have status : Json.utf8 task.status.text = true := by cases task.status <;> decide
  simp only [List.forall_mem_cons, List.not_mem_nil, false_implies, implies_true, and_true] at keys
  apply Json.allUtf8_ofMembers
  simp [Json.allUtf8, keys, plain, status, utf8_iso8601Utc]

/-- The ids of the tasks in a store are UTF-8. -/
def MemTaskStore.Named (store : MemTaskStore) : Prop :=
  ∀ id task, store.byId.lookup id = some task → Json.utf8 task.taskId = true

namespace MemTaskStore

variable {store : MemTaskStore}

theorem Named.sweep (h : store.Named) (now : UInt64) : (store.sweep now).Named := by
  intro id task found
  rw [lookup_sweep] at found
  exact h id task (Option.filter_eq_some_iff.mp found).1

theorem Named.insert (h : store.Named) {task : Task} (plain : Json.utf8 task.taskId = true)
    (now : UInt64) : (store.insert task now).1.Named := by
  unfold MemTaskStore.insert
  dsimp only
  split
  · exact h.sweep now
  · intro id task' found
    rw [UnorderedMap.lookup_insert] at found
    split at found
    · obtain rfl := Option.some.inj found
      exact plain
    · exact h.sweep now id task' found

end MemTaskStore

namespace PipelineState

theorem allUtf8_answerTask (named : s.tasks.Named) (taskId : String) (now : UInt64) :
    (s.answerTask taskId now).2.body.allUtf8 = true := by
  unfold answerTask
  dsimp only
  split
  · next task found => exact allUtf8_createTaskResult (named.sweep now taskId task found)
  · exact allUtf8_ofText (by decide)

theorem Silent.answerTask (s : PipelineState) (taskId : String) (now : UInt64) :
    s.Silent (s.answerTask taskId now).1 := by
  rw [answerTask_fst]
  exact .of_eq rfl rfl rfl

/-- The texts that a duplicate takes from the tables are UTF-8. -/
structure HitNamed (s : PipelineState) (hit : InFlightEntry) : Prop where
  inflightId : Json.utf8 hit.inflightId = true
  taskId : Json.utf8 (hit.taskId.getD "") = true
  calls : ∀ c call, s.calls.lookup c = some call → Json.utf8 call.taskId = true
  tasks : s.tasks.Named

/-- A task handle can be sent, and is noted in the span. -/
theorem silent_handle (silent : s.Silent s') (named : s'.tasks.Named) {taskId : String}
    (plain : Json.utf8 taskId = true) (ctx : TraceContext) (now : UInt64) :
    let out := s'.answerTask taskId now
    s.Silent (if out.2.klass = .ok then out.1.setSpan ctx "task_id" taskId else out.1) ∧
      out.2.body.allUtf8 = true := by
  have answered := silent.trans (.answerTask s' taskId now)
  refine ⟨?_, allUtf8_answerTask named taskId now⟩
  split
  · exact answered.trans (.setSpan _ ctx (by decide) plain)
  · exact answered

theorem silent_attachTask (s : PipelineState) (c : ℕ) (call : Call) {taskId : String}
    (plain : Json.utf8 taskId = true) : s.Silent (s.attachTask c call taskId).1 := by
  have entered : s.Silent { s with
      byTask := s.byTask.insert taskId c
      inflight := s.inflight.setTaskId call.inflightId taskId } := .of_eq rfl rfl rfl
  exact entered.trans (.setSpan _ call.trace (by decide) plain)

/-- A duplicate that is given a task leaves the spans open, and is told something that can be
sent. -/
theorem silent_duplicateTask (silent : s.Silent s') (hex : env.Hex) (tasks : s'.tasks.Named)
    (req : Request) (key : ToolKey) (hit : InFlightEntry) (orig : Option (ℕ × Call))
    (clk : Clock) :
    let out := s'.duplicateTask env req key hit orig clk
    s.Silent out.1 ∧ out.2.body.allUtf8 = true := by
  unfold duplicateTask
  dsimp only [draw]
  have drawn := hex.taskId s'.draws
  generalize "tsk_" ++ env.randomHex 8 s'.draws = id at drawn
  have named := tasks.insert
    (show Json.utf8 (newTask env id req.who key hit.startedAtMs (clk 0)).taskId = true from drawn)
    (clk 1)
  revert named
  generalize MemTaskStore.insert _ _ _ = inserted
  obtain ⟨tasks', stored⟩ := inserted
  intro named
  have entered : s'.Silent { s' with draws := s'.draws + 1, tasks := tasks' } :=
    .of_eq rfl rfl rfl
  cases stored with
  | false => exact ⟨silent.trans entered, allUtf8_ofText (by decide)⟩
  | true =>
    simp only [Bool.not_true, Bool.false_eq_true, if_false]
    cases orig with
    | none =>
      have noted : s'.Silent { s' with
          draws := s'.draws + 1
          tasks := tasks'
          inflight := s'.inflight.setTaskId hit.inflightId id } := .of_eq rfl rfl rfl
      exact silent_handle (silent.trans noted) named drawn req.trace (clk 2)
    | some orig =>
      obtain ⟨c, call⟩ := orig
      have attached := (silent.trans entered).trans (silent_attachTask _ c call drawn)
      have stored := attached.trans (.put _ c { call with taskId := id })
      exact silent_handle stored named drawn req.trace (clk 2)

/-- The task that is known of a running call has a UTF-8 id. -/
theorem HitNamed.knownTask (h : s.HitNamed hit) :
    Json.utf8 (knownTask hit (s.liveCall hit.inflightId)) = true := by
  unfold PipelineState.knownTask
  dsimp only
  split
  · next c call live =>
    unfold liveCall at live
    split at live
    · obtain ⟨call', stored, same⟩ := Option.map_eq_some_iff.mp live
      cases same
      split
      · exact h.calls c call stored
      · exact h.taskId
    · cases live
  · exact h.taskId

/-- A duplicate leaves the spans open. What it is told can be sent if it is a task handle, or if
the summary of the running call is UTF-8. -/
theorem silent_answerDuplicate (hex : env.Hex) (named : s.HitNamed hit)
    (keyed : Json.utf8 key.str = true) (req : Request) (clk : Clock) :
    let out := s.answerDuplicate env req key hit clk
    s.Silent out.1 ∧ (out.2.body.allUtf8 = true ↔
      (req.caps.tasks = false → Json.utf8 hit.paramsSummary = true)) := by
  have counted : s.Silent { s with
      counters := { s.counters with inflightHit := s.counters.inflightHit + 1 } } :=
    .of_eq rfl rfl rfl
  have hitSet := counted.trans (.setSpan _ req.trace
    (show Json.utf8 "inflight_hit" = true by decide) (show Json.utf8 "true" = true by decide))
  have noted := hitSet.trans (.setSpan _ req.trace
    (show Json.utf8 "inflight_id" = true by decide) named.inflightId)
  cases capable : req.caps.tasks with
  | false =>
    have told : (s.answerDuplicate env req key hit clk).2.body.allUtf8 = true ↔
        Json.utf8 hit.paramsSummary = true :=
      allUtf8_answerDuplicate capable keyed named.inflightId
    refine ⟨?_, told.trans (by simp)⟩
    unfold answerDuplicate
    rw [capable]
    exact noted
  | true =>
    have known := named.knownTask
    suffices handed : let out := s.answerDuplicate env req key hit clk
        s.Silent out.1 ∧ out.2.body.allUtf8 = true from
      ⟨handed.1, iff_of_true handed.2 fun absent => absurd absent (by simp)⟩
    unfold answerDuplicate
    rw [capable, if_pos rfl]
    dsimp only
    split
    · exact silent_duplicateTask noted hex named.tasks req key hit _ clk
    · exact silent_handle noted named.tasks known req.trace (clk 2)

/-! ## Calls of upstreams -/

theorem paramsHashOf_ok {params : Json} (plain : params.allUtf8 = true) :
    ∃ hash, paramsHashOf params = .ok hash := by
  have members : ∀ (ms : List (String × Json)) (h : UInt64), Json.allUtf8Members ms = true →
      ∃ h', hashMembers h ms = .ok h' := by
    intro ms
    induction ms with
    | nil => exact fun h _ => ⟨h, rfl⟩
    | cons m ms ih =>
      intro h fine
      obtain ⟨k, v⟩ := m
      rw [Json.allUtf8Members, Bool.and_eq_true, Bool.and_eq_true] at fine
      rw [hashMembers]
      split
      · exact ih h fine.2
      · rw [Json.dump, if_pos fine.1.2]
        exact ih _ fine.2
  unfold paramsHashOf
  split
  · next ms =>
    obtain ⟨h, hashed⟩ := members ms _ plain
    exact ⟨hex16 h, by rw [hashed]⟩
  · exact Json.dump_ok_iff.mpr plain

/-- The confirm token is read if it is a string or missing. -/
theorem confirmToken_ok_iff : (∃ confirm, confirmToken req = .ok confirm) ↔
    HttpMcp.StringOrAbsent req.metaJson kConfirmKey := by
  unfold confirmToken HttpMcp.StringOrAbsent
  cases req.metaJson.field? kConfirmKey with
  | none => simp
  | some v => cases v <;> simp [Json.getString]

/-- The call is a duplicate of a running one, and does not have its token. -/
def Repeats (s : PipelineState) (req : Request) (key : ToolKey) (hit : InFlightEntry) : Prop :=
  ∃ hash confirm, paramsHashOf req.params = .ok hash ∧
    s.inflight.lookup req.who.agentId key hash = some hit ∧ confirmToken req = .ok confirm ∧
    tokenMatches confirm (some hit) = false

/-- The ids in the tables were drawn. -/
theorem hitNamed_of_regular (hex : env.Hex) (regular : s.Regular env)
    (repeated : s.Repeats req key hit) : s.HitNamed hit := by
  obtain ⟨hash, confirm, -, looked, -⟩ := repeated
  have tables : Tables env s.inflight s.calls s.live s.byTask s.draws := regular.ok.tables
  obtain ⟨c, call, stored, tells, -⟩ := liveCall_of_lookup tables regular.entered looked
  have tasks : ∀ c call, s.calls.lookup c = some call → Json.utf8 call.taskId = true := by
    intro c call stored
    by_cases without : call.taskId = ""
    · rw [without]
      decide
    · obtain ⟨n, -, drawn⟩ := tables.taskDrawn stored without
      rw [drawn]
      exact hex.taskId n
  refine ⟨?_, ?_, tasks, fun id task found => ?_⟩
  · obtain ⟨n, -, drawn⟩ := tables.drawn stored
    rw [← tells.inflightId, drawn]
    exact hex 16 n
  · rw [tells.taskId]
    exact tasks c call stored
  · obtain ⟨same, n, -, drawn⟩ := regular.drawn id task found
    rw [same, drawn]
    exact hex.taskId n

/-- The call is not answered at once: nobody stops it on the way to the governor, and there it is
let through or finds a place in the queue. -/
structure Passes (env : Env) (s : PipelineState) (req : Request) (key : ToolKey) (clk : Clock) :
    Prop where
  running : s.stopping = false
  new : ∀ hit, ¬ s.Repeats req key hit
  welcomes : s.Welcomes env req.who key clk

/-- What `handle` needs of a call that goes to an upstream: the confirm token is a string or
missing, and what a client without task handles is told of a running call is UTF-8. -/
structure UpstreamFits (s : PipelineState) (req : Request) (key : ToolKey) : Prop where
  confirm : HttpMcp.StringOrAbsent req.metaJson kConfirmKey
  summary : ∀ hit, s.Repeats req key hit → req.caps.tasks = false →
    Json.utf8 hit.paramsSummary = true

theorem ends_handleUpstream (req : Request) (hex : env.Hex) (begun : s.Begun fin req.who trace)
    (numbered : id.allUtf8 = true) (plain : req.params.allUtf8 = true)
    (keyed : Json.utf8 key.str = true)
    (named : ∀ hit, s.Repeats req key hit → s.HitNamed hit) (clk : Clock) :
    (s.handleUpstream env req key fin clk).Ends fin.rid id ↔
      s.UpstreamFits req key ∧ (s.Passes env req key clk ∨ s.tracer.Legible req.who trace) := by
  obtain ⟨hash, hashed⟩ := paramsHashOf_ok plain
  unfold handleUpstream
  rw [hashed]
  dsimp only
  cases token : confirmToken req with
  | error e =>
    refine iff_of_false (not_ends_threw s) fun h => ?_
    obtain ⟨confirm, read⟩ := confirmToken_ok_iff.mpr h.1.confirm
    rw [token] at read
    cases read
  | ok confirm =>
    have typed := confirmToken_ok_iff.mp ⟨confirm, token⟩
    have repeats : ∀ hit, s.Repeats req key hit ↔
        s.inflight.lookup req.who.agentId key hash = some hit ∧
          tokenMatches confirm (some hit) = false := by
      intro hit
      constructor
      · rintro ⟨hash', confirm', hashed', looked, token', loose⟩
        obtain rfl := Except.ok.inj (hashed.symm.trans hashed')
        obtain rfl := Except.ok.inj (token.symm.trans token')
        exact ⟨looked, loose⟩
      · rintro ⟨looked, loose⟩
        exact ⟨hash, confirm, hashed, looked, token, loose⟩
    -- a call that is no duplicate, or has the token, goes on
    have goesOn : ∀ isMatch, (∀ hit, ¬ s.Repeats req key hit) →
        ((s.handOver env ⟨req, key, hash, fin, isMatch⟩ clk).Ends fin.rid id ↔
          s.UpstreamFits req key ∧
            (s.Passes env req key clk ∨ s.tracer.Legible req.who trace)) := by
      intro isMatch new
      refine (ends_handOver (w := ⟨req, key, hash, fin, isMatch⟩) begun numbered plain clk).trans ?_
      constructor
      · intro spans
        exact ⟨⟨typed, fun hit repeated => absurd repeated (new hit)⟩,
          spans.imp_left fun way => ⟨way.1, new, way.2⟩⟩
      · exact fun fits => fits.2.imp_left fun way => ⟨way.running, way.welcomes⟩
    dsimp only
    cases looked : s.inflight.lookup req.who.agentId key hash with
    | none =>
      exact goesOn _ fun hit repeated => by
        have found := ((repeats hit).mp repeated).1
        rw [looked] at found
        cases found
    | some hit =>
      cases loose : tokenMatches confirm (some hit) with
      | true =>
        refine goesOn _ fun hit' repeated => ?_
        obtain ⟨found, loose'⟩ := (repeats hit').mp repeated
        obtain rfl := Option.some.inj (looked.symm.trans found)
        exact absurd (loose.symm.trans loose') (by simp)
      | false =>
        have repeated : s.Repeats req key hit := (repeats hit).mpr ⟨looked, loose⟩
        have only : ∀ hit', s.Repeats req key hit' → hit' = hit := fun hit' repeated' =>
          Option.some.inj (((repeats hit').mp repeated').1.symm.trans looked)
        -- what a client without tasks is told has the summary of the running call in it
        obtain ⟨silent, told⟩ := silent_answerDuplicate hex (named hit repeated) keyed req clk
        refine (ends_finish (silent.begun begun) numbered _ (clk 3)).trans ?_
        rw [silent.legible, told]
        constructor
        · rintro ⟨texts, summary⟩
          exact ⟨⟨typed, fun hit' repeated' => only hit' repeated' ▸ summary⟩, .inr texts⟩
        · rintro ⟨fits, way | texts⟩
          · exact absurd repeated (way.new hit)
          · exact ⟨texts, fits.summary hit repeated⟩

end PipelineState

end Perfacet
