import Mathlib.Logic.Relation
import Perfacet.Lib.History
import Perfacet.Pipeline.Machine

/-!
# The life of a request

What becomes of a request, without the texts: it is received, answered or thrown at once or
accepted for an upstream; then it waits in a queue, is turned away, or becomes a call; a call
acts until its last reference goes and it is destroyed. `Core` is the part of the pipeline
that decides this, and `Core.Move` says what can happen to it.

The request that the running code is working on is in nobody's table. `Hand` holds it
between the moves of one step of the machine.

## Main definitions

* `Core`, `PipelineState.core` — the part of the pipeline that accounts are kept of
* `Call.Act` — what one call does by itself
* `Core.Move` — everything that can happen
-/

namespace Perfacet

/-- What the running code has in hand: nothing, a request that was just received, an accepted
call on its way to or from the governor, or the shutdown of everything. -/
inductive Hand
  | empty
  | request (rid : ℕ)
  | waiting (w : Waiting)
  | stopping

/-- The part of the pipeline that decides what becomes of a request. -/
structure Core where
  gov : LocalGovernor Waiting
  inflight : InFlight
  calls : UnorderedMap ℕ Call
  live : UnorderedMap String ℕ
  byTask : UnorderedMap String ℕ
  stopping : Bool
  draws : ℕ
  nextRequest : ℕ
  nextCall : ℕ
  stack : List PipelineFrame
  log : List PipelineEvent
  hand : Hand

/-- The core of a pipeline whose running code holds `hand`. -/
def PipelineState.core (s : PipelineState) (hand : Hand) : Core :=
  { gov := s.gov, inflight := s.inflight, calls := s.calls, live := s.live, byTask := s.byTask,
    stopping := s.stopping, draws := s.draws, nextRequest := s.nextRequest,
    nextCall := s.nextCall, stack := s.stack, log := s.log, hand := hand }

/-- The core of the pipeline before the first request. -/
def Core.initial (cfg : YamlConfig) : Core :=
  { gov := { cfg := cfg }, inflight := {}, calls := ∅, live := ∅, byTask := ∅, stopping := false,
    draws := 0, nextRequest := 0, nextCall := 0, stack := [], log := [], hand := .empty }

/-- What is known about the steps of a run beyond the code: in which situations a call is
handed to the governor, and whether the circuit was seen open at a retry. -/
structure Promise where
  accept : LocalGovernor Waiting → InFlight → UnorderedMap ℕ Call → Waiting → Prop
  shielded : Bool → Prop

/-- Nothing is known. -/
def Promise.none : Promise := ⟨fun _ _ _ _ => True, fun _ => True⟩

/-! ## What one call does -/

namespace Call

/-- What `fireAttempt` does to the call it fires. -/
def fired (call : Call) (delay : UInt64) (upTrace : TraceContext) : Call :=
  { call with
    attempt := call.attempt + 1
    promoteTimer := if call.attempt = 0 then some delay else call.promoteTimer
    promoteArmed := decide (call.attempt = 0) || call.promoteArmed
    upTrace := upTrace
    upSpanLive := true
    pending := call.pending + 1 }

/-- An upstream callback is delivered. -/
def delivered (call : Call) : Call :=
  { call with pending := call.pending - 1, spent := call.spent + 1 }

/-- One act of a call: what it becomes, what is observed, and what is left to do. A retry is
never made by code that has something else in hand. -/
inductive Act (env : Env) (P : Promise) (hand : Hand) (c : ℕ) (call : Call) :
    Call → List PipelineEvent → List PipelineFrame → Prop
  /-- Bookkeeping that nothing else depends on; a call that is cancelled stays cancelled. -/
  | touch (upTrace : TraceContext) (upSpanLive upstreamDone cancelled : Bool)
      (promoteTimer : Option UInt64) : (call.cancelled = true → cancelled = true) →
      Act env P hand c call
        { call with upTrace := upTrace, upSpanLive := upSpanLive, upstreamDone := upstreamDone,
                    cancelled := cancelled, promoteTimer := promoteTimer } [] []
  | respond (r : Response) : call.responded = false →
      Act env P hand c call { call with responded := true } [.answered call.onDone.rid r] []
  | cancelled : call.cancelled = true → Act env P hand c call call [.cancelled c] []
  | promote : call.promoteArmed = true →
      Act env P hand c call { call with promoteArmed := false } [] [.unref c]
  /-- The promote timer is cancelled while an upstream callback runs. -/
  | disarm : 0 < call.spent → Act env P hand c call { call with promoteArmed := false } [] []
  | drop :
      0 < call.spent → Act env P hand c call { call with spent := call.spent - 1 } [] [.unref c]
  | abandon : 0 < call.pending →
      Act env P hand c call { call with pending := call.pending - 1 } [] [.unref c]
  | outcome (klass : FailureClass) : 0 < call.pending →
      Act env P hand c call call.delivered [.outcome c klass] []
  | retry (r : Response) (circuitOpen shield : Bool) (now delay : UInt64)
      (upTrace : TraceContext) : hand = .empty → 0 < call.pending →
      PipelineState.retries env call r circuitOpen now = true →
      env.catalog.backend call.key.backend = true → P.shielded shield →
      Act env P hand c call (fired { call.delivered with upSpanLive := false } delay upTrace)
        [.backendCall c (call.attempt + 1) (some now) call.key.backend
          (PipelineState.makeBackendCall call) shield, .outcome c r.klass]
        [.inBackend c]

end Call

/-! ## What can happen -/

/-- A request that may go upstream: it was received, names a tool, and was allowed to. -/
structure Admitted (env : Env) (log : List PipelineEvent) (rid : ℕ) (req : Request)
    (key : ToolKey) : Prop where
  received : ∃ trace, .request rid { req with trace := trace } ∈ log
  method : req.method = "tools/call"
  parsed : ToolKey.parse req.name = some key
  allowed : RankPolicy.authorizeCall env.catalog req.who key = .allow

theorem Admitted.mono {env : Env} {log log' : List PipelineEvent} {rid : ℕ} {req : Request}
    {key : ToolKey} (h : Admitted env log rid req key) (longer : ∀ e ∈ log, e ∈ log') :
    Admitted env log' rid req key :=
  { h with received := h.received.imp fun _ member => longer _ member }

namespace Core

/-- A call that is allowed gets as far as the governor: it is no duplicate, or has the token. -/
structure Reaches (env : Env) (k : Core) (rid : ℕ) (req : Request) (w : Waiting) : Prop where
  rid : w.onDone.rid = rid
  who : w.req.who = req.who
  metaJson : w.req.metaJson = req.metaJson
  method : req.method = "tools/call"
  parsed : ToolKey.parse req.name = some w.key
  allowed : RankPolicy.authorizeCall env.catalog req.who w.key = .allow
  hashed : paramsHashOf req.params = .ok w.hash
  running : k.stopping = false
  token : ∃ confirm, PipelineState.confirmToken req = .ok confirm ∧
    w.confirmed = PipelineState.tokenMatches confirm
      (k.inflight.lookup req.who.agentId w.key w.hash)
  fresh : k.inflight.lookup req.who.agentId w.key w.hash = none ∨ w.confirmed = true

/-- Whatever request `rid` hands to the governor is promised to be acceptable. -/
def Accepts (env : Env) (P : Promise) (k : Core) (rid : ℕ) (req : Request) : Prop :=
  ∀ w, k.Reaches env rid req w → P.accept k.gov k.inflight k.calls w

/-- The tables when a call starts, before its first attempt. -/
def launched (env : Env) (k : Core) (w : Waiting) (summary : String) (now : UInt64) (call : Call)
    (frames : List PipelineFrame) (events : List PipelineEvent) : Core :=
  { k with
    gov := k.gov.take w.key.str w.req.who.agentId
    inflight := k.inflight.insert (env.randomHex 16 k.draws) w.req.who.agentId w.key w.hash
      summary now
    calls := k.calls.insert k.nextCall call
    live := k.live.insert (env.randomHex 16 k.draws) k.nextCall
    draws := k.draws + 1
    nextCall := k.nextCall + 1
    stack := frames ++ .unref k.nextCall :: k.stack
    log := events ++
      .started k.nextCall w.onDone.rid w.confirmed (twin k.calls w.identity) :: k.log
    hand := .empty }

/-- The tables when a call is destroyed, and the permit on its way back to the governor. -/
def destroyed (k : Core) (c : ℕ) (call : Call) (below : List PipelineFrame) : Core :=
  { k with
    inflight := k.inflight.erase call.inflightId
    byTask := if call.taskId.isEmpty then k.byTask else k.byTask.erase call.taskId
    live := k.live.erase call.inflightId
    calls := k.calls.erase c
    gov := k.gov.releaseSlot call.permit.1 call.permit.2
    stack := .dequeue call.permit.1.str :: below
    log := .destroyed c :: k.log }

/-- Everything that can happen. -/
inductive Move (env : Env) (P : Promise) : Core → Core → Prop
  /-- An id is drawn. -/
  | tick {k : Core} : Move env P k { k with draws := k.draws + 1 }
  | tools {k : Core} (backend : String) (names : List String) :
      Move env P k { k with gov := k.gov.onToolsListed backend names }
  | receive {k : Core} (req : Request) : k.hand = .empty →
      Move env P k
        { k with
          nextRequest := k.nextRequest + 1
          log := .request k.nextRequest req :: k.log
          hand := .request k.nextRequest }
  | answer {k : Core} (rid : ℕ) (r : Response) : k.hand = .request rid →
      Move env P k { k with log := .answered rid r :: k.log, hand := .empty }
  | throw {k : Core} (rid : ℕ) : k.hand = .request rid →
      Move env P k { k with log := .threw rid :: k.log, hand := .empty }
  | accept {k : Core} (w : Waiting) : k.hand = .request w.onDone.rid → k.stopping = false →
      Admitted env k.log w.onDone.rid w.req w.key → P.accept k.gov k.inflight k.calls w →
      Move env P k { k with hand := .waiting w }
  | enqueue {k : Core} (w : Waiting) (deadline : UInt64) : k.hand = .waiting w →
      Move env P k { k with gov := k.gov.enqueue w.req.who w.key deadline w, hand := .empty }
  | turnAway {k : Core} (w : Waiting) (r : Response) : k.hand = .waiting w →
      Move env P k { k with log := .answered w.onDone.rid r :: k.log, hand := .empty }
  | dequeue {k : Core} (ts : String) (l₁ : List (Waiter Waiting)) (w : Waiter Waiting)
      (l₂ : List (Waiter Waiting)) : k.hand = .empty → k.gov.queue ts = l₁ ++ w :: l₂ →
      Move env P k { k with gov := k.gov.unqueue ts w (l₁ ++ l₂), hand := .waiting w.cb }
  | reject {k : Core} (ts : String) (l₁ : List (Waiter Waiting)) (w : Waiter Waiting)
      (l₂ : List (Waiter Waiting)) (r : Response) : k.gov.queue ts = l₁ ++ w :: l₂ →
      Move env P k
        { k with
          gov := k.gov.unqueue ts w (l₁ ++ l₂)
          log := .answered w.cb.onDone.rid r :: k.log }
  /-- A permit is issued and dropped at once, because the upstream may not be called. -/
  | refuse {k : Core} (w : Waiting) (r : Response) : k.hand = .waiting w →
      Move env P k
        { k with
          gov := (k.gov.take w.key.str w.req.who.agentId).releaseSlot w.key w.req.who.agentId
          stack := .dequeue w.key.str :: k.stack
          log := .answered w.onDone.rid r :: k.log
          hand := .empty }
  /-- A call starts and makes its first attempt. -/
  | launch {k : Core} (w : Waiting) (summary : String) (now t0 delay : UInt64)
      (upTrace : TraceContext) (call : Call) : k.hand = .waiting w →
      call = PipelineState.newCall w (env.randomHex 16 k.draws) t0 →
      env.catalog.backend call.key.backend = true →
      Move env P k
        (k.launched env w summary now (call.fired delay upTrace) [.inBackend k.nextCall]
          [.backendCall k.nextCall 1 none call.key.backend (PipelineState.makeBackendCall call)
            false])
  /-- A call starts whose backend is not there: its outcome is about to be handled. -/
  | launchAbsent {k : Core} (w : Waiting) (summary : String) (now t0 : UInt64) (r : Response)
      (call : Call) : k.hand = .waiting w →
      call = PipelineState.newCall w (env.randomHex 16 k.draws) t0 →
      env.catalog.backend call.key.backend = false →
      Move env P k (k.launched env w summary now call [.onUpstream k.nextCall r] [])
  | act {k : Core} (c : ℕ) (call call' : Call) (events : List PipelineEvent)
      (frames : List PipelineFrame) : k.calls.lookup c = some call →
      call.Act env P k.hand c call' events frames →
      Move env P k
        { k with
          calls := k.calls.insert c call'
          log := events ++ k.log
          stack := frames ++ k.stack }
  /-- A task is made for a call that has none and whose backend is there. -/
  | attach {k : Core} (c : ℕ) (call : Call) (taskId : String) : k.calls.lookup c = some call →
      call.taskId = "" → taskId = "tsk_" ++ env.randomHex 8 k.draws →
      env.catalog.backend call.key.backend = true →
      Move env P k
        { k with
          byTask := k.byTask.insert taskId c
          inflight := k.inflight.setTaskId call.inflightId taskId
          calls := k.calls.insert c { call with taskId := taskId }
          draws := k.draws + 1 }
  /-- A task is entered for a call that is not live. -/
  | mark {k : Core} (id taskId : String) :
      (∀ c, k.live.lookup id = some c → k.calls.lookup c = none) →
      Move env P k { k with inflight := k.inflight.setTaskId id taskId }
  /-- The outcome of an attempt at an absent backend is handled, perhaps by another attempt. -/
  | absentOutcome {k : Core} (c : ℕ) (call : Call) (r : Response) (below : List PipelineFrame)
      (again : Option Response) : k.stack = .onUpstream c r :: below →
      k.calls.lookup c = some call → env.catalog.backend call.key.backend = false →
      Move env P k
        { k with
          stack := (again.map (.onUpstream c)).toList ++ below
          log := .outcome c r.klass :: k.log }
  | pop {k : Core} (f : PipelineFrame) (below : List PipelineFrame) : k.stack = f :: below →
      (∀ c r, f ≠ .onUpstream c r) →
      (∀ c, f = .unref c → ∃ call, k.calls.lookup c = some call ∧ 0 < call.refs below c) →
      Move env P k { k with stack := below }
  | destroy {k : Core} (c : ℕ) (call : Call) (below : List PipelineFrame) :
      k.stack = .unref c :: below → k.calls.lookup c = some call → call.responded = true →
      call.refs below c = 0 → Move env P k (k.destroyed c call below)
  | stop {k : Core} : k.hand = .empty →
      Move env P k { k with stopping := true, log := .stopped :: k.log, hand := .stopping }
  /-- The shutdown is over: every call was told and every queue is empty. -/
  | stopped {k : Core} : k.hand = .stopping →
      (∀ c call, k.calls.lookup c = some call → call.cancelled = true) →
      (∀ ts, k.gov.queue ts = []) →
      Move env P k { k with hand := .empty }

/-- Some moves in a row. -/
abbrev Moves (env : Env) (P : Promise) : Core → Core → Prop := Relation.ReflTransGen (Move env P)

end Core

end Perfacet
