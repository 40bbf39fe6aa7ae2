import Perfacet.Detail.Time
import Perfacet.Govern.LocalGovernor
import Perfacet.Health.CountCircuit
import Perfacet.Health.ProbeHealth
import Perfacet.Health.RetryPolicy
import Perfacet.Observe.Tracer
import Perfacet.Pipeline.InFlight
import Perfacet.Policy.Access
import Perfacet.Task.MemTaskStore
import Mathlib.Data.Fintype.EquivFin
import Mathlib.Data.Set.Finite.Basic

/-!
# The pipeline

What happens to a request behind the front end: the direct methods, and for a tool call
authorisation, the search for a running duplicate, admission, and the `Call` object that
sends attempts upstream until it has an answer or its client has stopped waiting.

A `Call` is kept alive by the closures that hold a `shared_ptr` to it: its promote timer
and one upstream callback for each attempt. The model counts them, so that the destructor
runs when the last one goes.

Functions that would call into code which may call back (an admission callback that drops
its permit, a backend that may answer at once, a `shared_ptr` that goes out of scope) push
a frame instead; the frames are run by the machine in `Perfacet.Pipeline.Machine`.

## Main definitions

* `Call`, `PipelineState` — a call, and the pipeline with everything it works on
* `PipelineState.handle` — a request comes in
* `Call.respond`, `PipelineState.fireAttempt`, `onUpstream`, `onPromote`, `cancelWait`,
  `destroy` — the life of a call
-/

namespace Perfacet

/-! ## Texts -/

/-- One step of the FNV-1a hash. -/
def fnvMix (h : UInt64) (s : String) : UInt64 :=
  s.toList.foldl (fun h c => (h ^^^ UInt64.ofNat c.toNat) * 1099511628211) h

/-- A number with 16 hexadecimal digits. -/
def hex16 (h : UInt64) : String :=
  String.ofList ((List.range 16).map fun i => Json.hexDigit (h.toNat / 16 ^ (15 - i) % 16))

/-- The members of an object, without `_meta`, fed into the hash. -/
def hashMembers (h : UInt64) : List (String × Json) → Except JsonError UInt64
  | [] => .ok h
  | (k, v) :: rest =>
    if k = "_meta" then hashMembers h rest
    else
      match v.dump with
      | .ok text => hashMembers (fnvMix (fnvMix h k) text) rest
      | .error e => .error e

/-- The hash by which duplicates of a call are recognised. -/
def paramsHashOf (params : Json) : Except JsonError String :=
  match params with
  | .obj members =>
    match hashMembers 14695981039346656037 members with
    | .ok h => .ok (hex16 h)
    | .error e => .error e
  | _ => params.dump

/-- The first 200 bytes of the parameters. -/
def summaryOf (params : Json) : Except JsonError String :=
  match (params.erase "_meta").dump with
  | .ok s => .ok (if 200 < s.length then String.ofList (s.toList.take 200) ++ "..." else s)
  | .error e => .error e

def missingTasksError : Json :=
  jsonRpcError (-32021) "Missing required client capability"
    (.ofMembers [("requiredCapabilities",
      .ofMembers [("extensions", .ofMembers [(kTasksExt, .object)])])])

def unknownTool : Json := callToolText "unknown tool" true

def denyTool : Json := callToolText "not allowed" true

def createTaskResult (t : Task) : Json :=
  .ofMembers
    [("resultType", .str "task"), ("taskId", .str t.taskId), ("status", .str t.status.text),
      ("createdAt", .str (iso8601Utc t.createdAtMs)),
      ("lastUpdatedAt", .str (iso8601Utc t.lastUpdatedAtMs)), ("ttlMs", .int t.ttlMs.toNat),
      ("pollIntervalMs", .int 500)]

/-- A tool result with a failure class, as the gateway answers without an upstream. -/
def Response.ofText (klass : FailureClass) (text : String) : Response :=
  { Response.ofBody (callToolText text true) with klass := klass }

/-- A JSON-RPC error with a failure class and an HTTP status. -/
def Response.ofError (klass : FailureClass) (httpStatus : ℤ) (body : Json) : Response :=
  { Response.ofBody body with klass := klass, isError := true, httpStatus := httpStatus }

/-! ## The environment -/

/-- What does not change while the gateway runs. `randomHex n k` is the `k`-th draw of the
process, of `n` random bytes; ids that are drawn do not collide. A run makes finitely many
draws, and what it did not draw is free: `Env.exists_of_draws`. -/
structure Env where
  cfg : YamlConfig
  catalog : Catalog
  randomHex : ℕ → ℕ → String
  distinct : ∀ n, Function.Injective (randomHex n)

/-- Finitely many draws among which none collide are the first ones of an environment. -/
theorem Env.exists_of_draws (cfg : YamlConfig) (catalog : Catalog) {draws : ℕ → ℕ → String}
    {m : ℕ} (distinct : ∀ n, Set.InjOn (draws n) {k | k < m}) :
    ∃ env : Env, env.cfg = cfg ∧ env.catalog = catalog ∧
      ∀ n, ∀ k < m, env.randomHex n k = draws n k := by
  have fresh : ∀ n, (Set.image (draws n) {k | k < m})ᶜ.Infinite :=
    fun n => ((Set.finite_lt_nat m).image _).infinite_compl
  let later := fun n => (fresh n).natEmbedding
  have apart : ∀ n, ∀ k < m, ∀ l, draws n k ≠ later n l :=
    fun n k before l equal => (later n l).2 ⟨k, before, equal⟩
  refine ⟨⟨cfg, catalog, fun n k => if k < m then draws n k else later n k,
    fun n k l same => ?_⟩, rfl, rfl, fun n k before => if_pos before⟩
  by_cases first : k < m <;> by_cases second : l < m <;>
    simp only [first, second, if_true, if_false] at same
  · exact distinct n first second same
  · exact absurd same (apart n k first l)
  · exact absurd same.symm (apart n l second k)
  · exact (later n).injective (Subtype.ext same)

/-- The clock readings of a step, in the order in which they are made. -/
abbrev Clock := ℕ → UInt64

/-- The readings after the first `n`. -/
def Clock.after (clk : Clock) (n : ℕ) : Clock := fun i => clk (i + n)

/-! ## Calls -/

/-- The closure `finish` of `handle`, around the client's `onDone`. -/
structure Finish where
  rid : ℕ
  t0 : UInt64
  upstreamId : String
  gateway : TraceContext
  total : TraceContext
  deriving DecidableEq, Repr

/-- The closure that waits for admission. `confirmed` is not in the source: it says that the
request presented the token of a running duplicate. -/
structure Waiting where
  req : Request
  key : ToolKey
  hash : String
  onDone : Finish
  confirmed : Bool
  deriving Repr

/-- By what duplicates are recognised: the agent, the tool and the hash of the parameters. -/
def Waiting.identity (w : Waiting) : String × ToolKey × String := (w.req.who.agentId, w.key, w.hash)

/-- A `Call` with the closures that hold a reference to it: whether its promote timer is
armed, its upstream callbacks that were not delivered, and those that were delivered and not
yet destroyed. `promoteTimer` is the delay the timer was armed with, if it was. -/
structure Call where
  permit : ToolKey × String
  req : Request
  onDone : Finish
  trace : TraceContext
  upTrace : TraceContext
  upSpanLive : Bool
  responded : Bool
  upstreamDone : Bool
  cancelled : Bool
  promoteTimer : Option UInt64
  inflightId : String
  paramsHash : String
  taskId : String
  key : ToolKey
  attempt : ℕ
  t0 : UInt64
  promoteArmed : Bool
  pending : ℕ
  spent : ℕ
  confirmed : Bool
  deriving Repr

def Call.identity (call : Call) : String × ToolKey × String :=
  (call.req.who.agentId, call.key, call.paramsHash)

/-- Whether a call with a given identity is live. -/
def twin (calls : UnorderedMap ℕ Call) (identity : String × ToolKey × String) : Bool :=
  calls.entries.any fun e => decide (e.2.identity = identity)

/-- An unfinished piece of work on the C++ stack: the loop of `tryDequeue`, a backend's
`call` that has not returned, an outcome about to be handled, a `shared_ptr` about to go out
of scope. -/
inductive PipelineFrame
  | dequeue (toolStr : String)
  | inBackend (c : ℕ)
  | onUpstream (c : ℕ) (r : Response)
  | unref (c : ℕ)
  deriving Repr

/-- The frames that hold a reference to a call. -/
def unrefs (stack : List PipelineFrame) (c : ℕ) : ℕ :=
  stack.countP fun f => match f with
    | .unref c' => c' = c
    | _ => false

/-- The references to a call: those of closures, and those of unfinished frames. -/
def Call.refs (call : Call) (stack : List PipelineFrame) (c : ℕ) : ℕ :=
  call.promoteArmed.toNat + call.pending + call.spent + unrefs stack c

/-- What can be observed of the pipeline. `started` says whether the request presented the
token of a running duplicate, and whether there is another live call with the same identity.
`backendCall` carries the attempt's number, for a retry the clock reading of the decision,
and whether the circuit is open at the time. -/
inductive PipelineEvent
  | request (rid : ℕ) (req : Request)
  | threw (rid : ℕ)
  | answered (rid : ℕ) (r : Response)
  | started (c rid : ℕ) (confirmed twin : Bool)
  | backendCall (c : ℕ) (attempt : ℕ) (decided : Option UInt64) (backend : String)
      (bc : BackendCall) (circuitOpen : Bool)
  | outcome (c : ℕ) (klass : FailureClass)
  | cancelled (c : ℕ)
  | destroyed (c : ℕ)
  | stopped
  deriving Repr

/-- Counters of `Counters` that belong to the pipeline. -/
structure Counters where
  inflightHit : UInt64 := 0
  inflightConfirm : UInt64 := 0
  throttled : UInt64 := 0
  circuitOpen : UInt64 := 0
  deriving DecidableEq, Repr

/-- The pipeline and its dependencies. `terminated` says that an exception has left the
event loop, which ends the process. -/
structure PipelineState where
  gov : LocalGovernor Waiting
  inflight : InFlight := {}
  calls : UnorderedMap ℕ Call := ∅
  live : UnorderedMap String ℕ := ∅
  byTask : UnorderedMap String ℕ := ∅
  tasks : MemTaskStore
  circuit : CountCircuit
  health : UnorderedMap String (HealthState × UInt64) := ∅
  index : ToolIndex := {}
  grants : GrantTable := ∅
  tracer : Tracer
  counters : Counters := {}
  stopping : Bool := false
  draws : ℕ := 0
  nextRequest : ℕ := 0
  nextCall : ℕ := 0
  stack : List PipelineFrame := []
  terminated : Bool := false
  log : List PipelineEvent := []

namespace PipelineState

variable (env : Env)

/-! ## Ids, spans and answers -/

/-- `randomHex(n)`. -/
def draw (s : PipelineState) (n : ℕ) : PipelineState × String :=
  ({ s with draws := s.draws + 1 }, env.randomHex n s.draws)

def startSpan (s : PipelineState) (req : Request) (spanName : String) (now : UInt64) :
    PipelineState × TraceContext :=
  -- a request that brings no trace id starts a trace of its own
  let (s, traceId) :=
    if req.trace.traceId.isEmpty then s.draw env 16 else (s, req.trace.traceId)
  let (s, spanId) := s.draw env 8
  ({ s with tracer := s.tracer.start req spanId spanName now },
    { traceId := traceId, spanId := spanId, parentSpanId := req.trace.spanId })

def setSpan (s : PipelineState) (ctx : TraceContext) (key value : String) : PipelineState :=
  { s with tracer := s.tracer.set ctx key value }

/-- End a span. What the serialiser throws is caught by nobody. -/
def endSpan (s : PipelineState) (ctx : TraceContext) (k : FailureClass) (latencyMs : UInt64) :
    PipelineState :=
  match s.tracer.finish ctx k latencyMs with
  | (tracer, .ok _) => { s with tracer := tracer }
  | (tracer, .error _) => { s with tracer := tracer, terminated := true }

def emit (s : PipelineState) (e : PipelineEvent) : PipelineState := { s with log := e :: s.log }

/-- The closure `finish`: stamp the response, end the two spans, call `onDone`. -/
def finish (s : PipelineState) (f : Finish) (r : Response) (now : UInt64) : PipelineState :=
  let r := { r with
    gatewayMs := now - f.t0
    upstreamId := if r.upstreamId.isEmpty then f.upstreamId else r.upstreamId }
  -- the gateway's span was opened inside the total one, and is closed first
  ((s.endSpan f.gateway r.klass r.gatewayMs).endSpan f.total r.klass r.gatewayMs).emit
    (.answered f.rid r)

/-! ## The life of a call -/

def put (s : PipelineState) (c : ℕ) (call : Call) : PipelineState :=
  { s with calls := s.calls.insert c call }

/-- `Call::respond`: only the first response goes out. -/
def respond (s : PipelineState) (call : Call) (r : Response) (clk : Clock) :
    PipelineState × Call :=
  if call.responded then (s, call)
  else
    (s.finish call.onDone { r with gatewayMs := clk 0 - call.t0 } (clk 1),
      { call with responded := true })

def cancelledResponse : Response := .ofText .cancelled "cancelled; remote may still run"

/-- `Call::cancelWait`. -/
def cancelWait (s : PipelineState) (c : ℕ) (call : Call) (clk : Clock) : PipelineState :=
  let (s, call) := s.respond { call with cancelled := true } cancelledResponse clk
  -- the task is cancelled also if the client has its handle already
  let s :=
    if call.taskId.isEmpty then s
    else { s with tasks := s.tasks.updateStatus call.taskId .cancelled .null (clk 2) }
  (s.put c call).emit (.cancelled c)

/-- `Call::attachTask`. -/
def attachTask (s : PipelineState) (c : ℕ) (call : Call) (taskId : String) :
    PipelineState × Call :=
  ({ s with
      byTask := s.byTask.insert taskId c
      inflight := s.inflight.setTaskId call.inflightId taskId }.setSpan call.trace "task_id" taskId,
    { call with taskId := taskId })

/-- The task for a call, under a fresh id. -/
def newTask (taskId : String) (who : Principal) (key : ToolKey) (createdAt now : UInt64) : Task :=
  { taskId := taskId, agentId := who.agentId, key := key, status := .working,
    resultOrError := .null, createdAtMs := createdAt, lastUpdatedAtMs := now,
    ttlMs := env.cfg.taskTtlMs, owner := who }

/-- The task handle of a call that has a task. -/
def answerTask (s : PipelineState) (taskId : String) (now : UInt64) : PipelineState × Response :=
  let (tasks, found) := s.tasks.get taskId now
  let s := { s with tasks := tasks }
  match found with
  | some t => (s, .ofBody (createTaskResult t))
  | none => (s, .ofText .unavailable "task not found")

/-- The part of `Call::onPromote` that gives a call its task, if the store has room. -/
def promoteTask (s : PipelineState) (c : ℕ) (call : Call) (clk : Clock) :
    PipelineState × Call × Bool :=
  if call.taskId.isEmpty then
    let (s, hex) := s.draw env 8
    -- the task is as old as its call
    let t := newTask env ("tsk_" ++ hex) call.req.who call.key call.t0 (clk 0)
    let (tasks, stored) := s.tasks.insert t (clk 1)
    let s := { s with tasks := tasks }
    if stored then
      let (s, call) := s.attachTask c call t.taskId
      (s, call, true)
    else (s, call, false)
  else (s, call, true)

/-- `Call::onPromote`, the promote timer's work. -/
def onPromote (s : PipelineState) (c : ℕ) (call : Call) (clk : Clock) : PipelineState :=
  if call.responded || call.cancelled then s.put c call
  else if call.req.caps.tasks then
    -- the client gets the handle of a task in place of the result
    let (s, call, stored) := s.promoteTask env c call clk
    let (s, r) :=
      if stored then s.answerTask call.taskId (clk 2)
      else (s, .ofText .unavailable "task store full")
    let (s, call) := s.respond call r (clk.after 3)
    s.put c call
  else
    -- a client without tasks is told that it needs them; the upstream goes on
    let (s, call) := s.respond call (.ofError .capability 400 missingTasksError) clk
    s.put c call

/-- `Call::makeBackendCall`. -/
def makeBackendCall (call : Call) : BackendCall :=
  let params := if call.req.params.isObject then call.req.params else .object
  let params := (params.erase "_meta").set "name" (.str call.key.tool)
  let metaJson := if call.req.metaJson.isObject then call.req.metaJson else .object
  -- the confirm token is meant for the gateway, and stays here
  let metaJson := (metaJson.erase kConfirmKey).set kMetaProtocol (.str kProtocolVersion)
  let metaJson := if metaJson.contains kMetaCaps then metaJson else metaJson.set kMetaCaps .object
  { method := "tools/call", name := call.key.tool, params := params, metaJson := metaJson,
    deadlineMs := call.req.deadlineMs, trace := call.trace }

def healthState (s : PipelineState) (server : String) : HealthState :=
  (s.health.getD server (.down, 0)).1

def healthLatency (s : PipelineState) (server : String) : UInt64 :=
  (s.health.getD server (.down, 0)).2

/-- The delay of `Call::armPromote`. -/
def promoteDelay (s : PipelineState) (server : String) : UInt64 :=
  let ms := env.cfg.promoteAfterMs
  -- a degraded upstream is waited for half as long
  let ms := if s.healthState server = .degraded then ms / 2 else ms
  if ms = 0 then 1 else ms

/-- `Call::fireAttempt`. `decided` is the clock reading of a retry's decision. -/
def fireAttempt (s : PipelineState) (c : ℕ) (call : Call) (decided : Option UInt64)
    (clk : Clock) : PipelineState :=
  if !env.catalog.backend call.key.backend then
    -- `onUpstream` is called from here, so it is the next thing to run
    { s.put c call with
      stack := .onUpstream c (.ofText .unavailable "upstream unavailable") :: s.stack }
  else
    let call := { call with attempt := call.attempt + 1 }
    -- only the first attempt arms the promote timer
    let call :=
      if call.attempt = 1 then
        { call with
          promoteTimer := some (s.promoteDelay env call.key.backend), promoteArmed := true }
      else call
    let (s, upTrace) := s.startSpan env { call.req with trace := call.trace } "upstream" (clk 0)
    -- the callback that the backend gets holds a reference to the call
    let call := { call with upTrace := upTrace, upSpanLive := true, pending := call.pending + 1 }
    { (s.put c call).emit (.backendCall c call.attempt decided call.key.backend
        (makeBackendCall call) (s.circuit.isOpen call.key.backend (clk 1)).2) with
      stack := .inBackend c :: s.stack }

/-- The end of `Call::onUpstream`, for an outcome that is not retried. -/
def settle (s : PipelineState) (c : ℕ) (call : Call) (r : Response) (clk : Clock) :
    PipelineState :=
  let call := { call with upstreamDone := true }
  -- a timer that is cancelled drops its closure, and so its reference
  let call :=
    if call.promoteTimer.isSome then { call with promoteTimer := none, promoteArmed := false }
    else call
  let s :=
    if call.taskId.isEmpty then s
    else
      let status := if r.klass = .ok ∧ r.isError = false then .completed else .failed
      { s with tasks := s.tasks.updateStatus call.taskId status r.body (clk 0) }
  -- a failure that brings no content is reported by the name of its class
  let r :=
    if r.klass ≠ .ok ∧ !(r.body.isObject && r.body.contains "content") then
      { r with body := callToolText (failureClassName r.klass) true }
    else r
  let (s, call) := s.respond call r (clk.after 1)
  s.put c call

/-- The part of `Call::onUpstream` that tells the circuit about an outcome. -/
def report (s : PipelineState) (backend : String) (r : Response) (now : UInt64) : PipelineState :=
  if r.klass = .ok ∧ r.isError = false then
    { s with circuit := s.circuit.onSuccess backend }
  else { s with circuit := (s.circuit.onFailure backend now).1 }

/-- Whether `Call::onUpstream` tries again, given what it saw of the circuit before it
reported the outcome. -/
def retries (call : Call) (r : Response) (circuitOpen : Bool) (now : UInt64) : Bool :=
  let metaData :=
    match env.catalog.find call.key.backend with
    | some e => e.metaData
    | none => { level := 0, secret := false, idempotentTools := [] }
  -- after a timeout or a cancellation the upstream may still be at work
  let outstanding := call.responded || call.cancelled || decide (r.klass = .timeout) ||
    decide (r.klass = .cancelled)
  !call.responded && !call.cancelled &&
    (RetryPolicy.ofConfig env.cfg).shouldRetry r.klass call.key metaData call.attempt
      call.req.deadlineMs circuitOpen outstanding now

/-- `Call::onUpstream`. -/
def onUpstream (s : PipelineState) (c : ℕ) (call : Call) (r : Response) (clk : Clock) :
    PipelineState :=
  let s := s.emit (.outcome c r.klass)
  let s := if call.upSpanLive then s.endSpan call.upTrace r.klass r.upstreamMs else s
  let call := { call with upSpanLive := false }
  -- nobody waits: what the upstream says is dropped, and the circuit is not told
  if call.cancelled then s.put c { call with upstreamDone := true }
  else
    -- the circuit is asked before it is told of this outcome
    let (circuit, circuitOpen) := s.circuit.isOpen call.key.backend (clk 0)
    let s := { s with circuit := circuit }.report call.key.backend r (clk 1)
    if retries env call r circuitOpen (clk 2) then
      s.fireAttempt env c call (some (clk 2)) (clk.after 3)
    else s.settle c call r (clk.after 3)

/-- `releaseSlot`, as the destructor of a permit calls it. -/
def releasePermit (s : PipelineState) (permit : ToolKey × String) : PipelineState :=
  { s with
    gov := s.gov.releaseSlot permit.1 permit.2
    stack := .dequeue permit.1.str :: s.stack }

/-- `Call::~Call`. -/
def destroy (s : PipelineState) (c : ℕ) (call : Call) (clk : Clock) : PipelineState :=
  let s := if call.upSpanLive then s.endSpan call.upTrace .cancelled (clk 0 - call.t0) else s
  -- if it has not responded yet, its last callback was destroyed without being called
  let (s, call) := s.respond call cancelledResponse (clk.after 1)
  let s := { s with
    inflight := s.inflight.erase call.inflightId
    byTask := if call.taskId.isEmpty then s.byTask else s.byTask.erase call.taskId
    live := s.live.erase call.inflightId
    calls := s.calls.erase c }
  -- the members are destroyed last, the permit among them
  (s.emit (.destroyed c)).releasePermit call.permit

/-! ## Admission -/

/-- The admission callback called with anything but `Go`. -/
def rejected (s : PipelineState) (w : Waiting) (now : UInt64) : PipelineState :=
  let s := { s with counters := { s.counters with throttled := s.counters.throttled + 1 } }
  s.finish w.onDone (.ofText .throttled "throttled") now

/-- The `Call` constructor. -/
def newCall (w : Waiting) (inflightId : String) (t0 : UInt64) : Call :=
  { permit := (w.key, w.req.who.agentId), req := w.req, onDone := w.onDone, trace := w.req.trace,
    upTrace := ⟨"", "", ""⟩, upSpanLive := false, responded := false, upstreamDone := false,
    cancelled := false, promoteTimer := none, inflightId := inflightId, paramsHash := w.hash,
    taskId := "", key := (ToolKey.parse w.req.name).getD ⟨"", ""⟩, attempt := 0, t0 := t0,
    promoteArmed := false, pending := 0, spent := 0, confirmed := w.confirmed }

/-- The admission callback's answer when the upstream may not be called. The permit is
dropped when the callback returns. -/
def refused (s : PipelineState) (w : Waiting) (circuitOpen : Bool) (now : UInt64) :
    PipelineState :=
  let s :=
    if circuitOpen then
      { s with counters := { s.counters with circuitOpen := s.counters.circuitOpen + 1 } }
    else s
  (s.finish w.onDone (.ofText .unavailable "upstream unavailable") now).releasePermit
    (w.key, w.req.who.agentId)

/-- The end of the admission callback: enter the call into the tables, make the `Call`, which
takes the permit, and start it. -/
def startCall (s : PipelineState) (w : Waiting) (summary : String) (now : UInt64)
    (clk : Clock) : PipelineState :=
  let (s, iid) := s.draw env 16
  let c := s.nextCall
  -- the variable `call` holds a reference until the admission callback returns
  { s with
      inflight := s.inflight.insert iid w.req.who.agentId w.key w.hash summary now
      nextCall := c + 1
      live := s.live.insert iid c
      stack := .unref c :: s.stack
      log := .started c w.onDone.rid w.confirmed (twin s.calls w.identity) :: s.log
      }.fireAttempt env c (newCall w iid (clk 0)) none (clk.after 1)

/-- The admission callback called with `Go` and a permit. -/
def admitted (s : PipelineState) (w : Waiting) (clk : Clock) : PipelineState :=
  let now := clk 0
  let (circuit, circuitOpen) := s.circuit.isOpen w.key.backend now
  let s := { s with circuit := circuit }
  -- the source asks the circuit once more before it counts; the answer is the same
  if circuitOpen || decide (s.healthState w.key.backend = .down) then
    s.refused w circuitOpen (clk 1)
  else
    match summaryOf w.req.params with
    | .error _ => { s with terminated := true }
    | .ok summary => s.startCall env w summary now (clk.after 1)

/-! ## Requests -/

/-- `Pipeline::liveCall`. -/
def liveCall (s : PipelineState) (inflightId : String) : Option (ℕ × Call) :=
  match s.live.lookup inflightId with
  | some c => (s.calls.lookup c).map fun call => (c, call)
  | none => none

/-- The task of a running call, as its entry or the call itself knows it. -/
def knownTask (hit : InFlightEntry) (orig : Option (ℕ × Call)) : String :=
  let tid := hit.taskId.getD ""
  match orig with
  | some (_, call) => if tid.isEmpty then call.taskId else tid
  | none => tid

/-- The part of `handleCall` that makes a task for the running call `orig` because a duplicate
of it came in. -/
def duplicateTask (s : PipelineState) (req : Request) (key : ToolKey) (hit : InFlightEntry)
    (orig : Option (ℕ × Call)) (clk : Clock) : PipelineState × Response :=
  let (s, hex) := s.draw env 8
  let t := newTask env ("tsk_" ++ hex) req.who key hit.startedAtMs (clk 0)
  let (tasks, stored) := s.tasks.insert t (clk 1)
  let s := { s with tasks := tasks }
  if !stored then (s, .ofText .unavailable "task store full")
  else
    -- an entry without a call keeps the id of the task all the same
    let s :=
      match orig with
      | some (c, call) =>
        let (s, call) := s.attachTask c call t.taskId
        s.put c call
      | none => { s with inflight := s.inflight.setTaskId hit.inflightId t.taskId }
    let (s, r) := s.answerTask t.taskId (clk 2)
    (if r.klass = .ok then s.setSpan req.trace "task_id" t.taskId else s, r)

/-- The answer to a duplicate of the running call `hit` without its confirm token. -/
def answerDuplicate (s : PipelineState) (req : Request) (key : ToolKey) (hit : InFlightEntry)
    (clk : Clock) : PipelineState × Response :=
  let s := { s with counters := { s.counters with inflightHit := s.counters.inflightHit + 1 } }
  let s := s.setSpan req.trace "inflight_hit" "true"
  let s := s.setSpan req.trace "inflight_id" hit.inflightId
  if req.caps.tasks then
    let orig := s.liveCall hit.inflightId
    let tid := knownTask hit orig
    if tid.isEmpty then s.duplicateTask env req key hit orig clk
    else
      let (s, r) := s.answerTask tid (clk 2)
      (if r.klass = .ok then s.setSpan req.trace "task_id" tid else s, r)
  else
    (s, .ofText .throttled
      ("in-flight call still running for " ++ key.str ++ "; params=" ++ hit.paramsSummary ++
        "; elapsed_ms=" ++ toString (clk 0 - hit.startedAtMs).toNat ++ "; confirm with _meta[\"" ++
        kConfirmKey ++ "\"]=\"if_" ++ hit.inflightId ++ "\""))

/-- The confirm token of a request: empty if there is none. -/
def confirmToken (req : Request) : Except JsonError String :=
  match req.metaJson.field? kConfirmKey with
  | some v => v.getString
  | none => .ok ""

/-- How long a call may queue: the tool's own limit if it has one, in force or not. -/
def queueWait (key : ToolKey) : UInt64 :=
  match env.cfg.governorTools.lookup key.str with
  | some c => if 0 < c.queueWaitMs then c.queueWaitMs else env.cfg.queueWaitMs
  | none => env.cfg.queueWaitMs

/-- Hand a request to the governor. -/
def acquire (s : PipelineState) (w : Waiting) (clk : Clock) : PipelineState :=
  match s.gov.acquire w.req.who w.key (clk 0 + queueWait env w.key) w (clk 1) with
  | (gov, .go) => { s with gov := gov }.admitted env w (clk.after 2)
  | (gov, .queued) => { s with gov := gov }
  | (gov, .reject) => { s with gov := gov }.rejected w (clk 2)

/-- Whether a confirm token is that of the running duplicate. -/
def tokenMatches (confirm : String) : Option InFlightEntry → Bool
  -- an empty token matches nothing
  | some e => !confirm.isEmpty && decide (confirm = "if_" ++ e.inflightId)
  | none => false

/-- The end of `handleCall`, for a call that is no duplicate or has the token. -/
def handOver (s : PipelineState) (w : Waiting) (clk : Clock) : PipelineState :=
  let s :=
    if w.confirmed then
      { s with counters := { s.counters with
        inflightConfirm := s.counters.inflightConfirm + 1 } }
    else s
  -- only here is it looked at whether the gateway is shutting down
  if s.stopping then
    s.finish w.onDone (.ofError .unavailable 503 (jsonRpcError (-32000) "draining" .object)) (clk 0)
  else s.acquire env w clk

/-- `handleCall` once the call is allowed and goes to an upstream. -/
def handleUpstream (s : PipelineState) (req : Request) (key : ToolKey) (fin : Finish)
    (clk : Clock) : PipelineState :=
  match paramsHashOf req.params with
  | .error _ => s.emit (.threw fin.rid)
  | .ok hash =>
    let hit := s.inflight.lookup req.who.agentId key hash
    match confirmToken req with
    | .error _ => s.emit (.threw fin.rid)
    | .ok confirm =>
      let isMatch := tokenMatches confirm hit
      match hit, isMatch with
      -- a duplicate without the token is answered about the call that is running
      | some e, false =>
        let (s, r) := s.answerDuplicate env req key e clk
        s.finish fin r (clk 3)
      | _, _ => s.handOver env ⟨req, key, hash, fin, isMatch⟩ clk

/-- The gateway's own tools. What it throws leaves `handle`. -/
def handleBuiltin (s : PipelineState) (req : Request) (key : ToolKey) (clk : Clock) :
    PipelineState × Except JsonError Response :=
  if key.tool = "request_elevation" then
    if !req.who.hasLevel then (s, .ok (.ofText .authz "pure admin cannot elevate"))
    else
      let args := (req.params.field? "arguments").getD req.params
      match args.valueString "bump_to" "" with
      | .error e => (s, .error e)
      | .ok bumpTo =>
        match env.cfg.taxonomy.parse bumpTo with
        | none => (s, .ok (.ofText .authz "invalid bump_to"))
        | some rank =>
          if env.cfg.elevationMax < rank then (s, .ok (.ofText .authz "invalid bump_to"))
          else
            let (s, hex) := s.draw env 8
            let record := GrantTable.pending ("g_" ++ hex) req.who.agentId bumpTo rank (clk 0)
            -- the table has the record even if its line cannot be written
            let s := { s with grants := s.grants.insert record.id record }
            (s, do
              let _ ← (GrantTable.line record).dump
              let text ← (Json.ofMembers
                [("grantId", .str record.id), ("status", .str "pending")]).dump
              pure (.ofBody (callToolText text false)))
  else if key.tool = "upstream_status" then
    if !req.who.admin then (s, .ok { Response.ofBody denyTool with klass := .authz })
    else
      let item := fun name => Json.ofMembers
        [("name", .str name), ("state", .str (healthStateName (s.healthState name))),
          ("latency_ewma_ms", .int (s.healthLatency name).toNat)]
      (s, do
        let text ← (Json.arr (env.catalog.names.map item)).dump
        pure (.ofBody (callToolText text false)))
  else (s, .ok { Response.ofBody unknownTool with klass := .authz })

/-- `Pipeline::handleCall`. -/
def handleCall (s : PipelineState) (req : Request) (fin : Finish) (clk : Clock) : PipelineState :=
  match ToolKey.parse req.name with
  | none => s.finish fin { Response.ofBody unknownTool with klass := .authz } (clk 0)
  | some key =>
    match RankPolicy.authorizeCall env.catalog req.who key with
    | .unknown => s.finish fin { Response.ofBody unknownTool with klass := .authz } (clk 0)
    | .deny => s.finish fin { Response.ofBody denyTool with klass := .authz } (clk 0)
    | .allow =>
      if key.backend = "perfacet" then
        -- what a built-in throws leaves `handle`, and nobody answers
        match s.handleBuiltin env req key clk with
        | (s, .ok r) => s.finish fin r (clk 1)
        | (s, .error _) => s.emit (.threw fin.rid)
      else s.handleUpstream env req key fin clk

/-- `Pipeline::getTask`: only the owner finds a task. -/
def getTask (s : PipelineState) (taskId : String) (who : Principal) (now : UInt64) :
    PipelineState × Option Task :=
  let (tasks, found) := s.tasks.get taskId now
  ({ s with tasks := tasks }, found.filter fun t => t.agentId = who.agentId)

def taskNotFound : Response := .ofError .authz 200 (jsonRpcError (-32000) "task not found" .object)

/-- `Pipeline::cancelTask`. -/
def cancelTask (s : PipelineState) (taskId : String) (who : Principal) (fin : Finish)
    (clk : Clock) : PipelineState :=
  match s.getTask taskId who (clk 0) with
  | (s, none) => s.finish fin taskNotFound (clk 1)
  | (s, some _) =>
    -- the task is cancelled even if its outcome is there already
    let s := { s with tasks := s.tasks.updateStatus taskId .cancelled .null (clk 1) }
    let s :=
      match s.byTask.lookup taskId with
      | some c =>
        match s.calls.lookup c with
        | some call => s.cancelWait c call (clk.after 2)
        | none => s
      | none => s
    s.finish fin (.ofBody (.ofMembers [("taskId", .str taskId), ("status", .str "cancelled")]))
      (clk 5)

/-- The answer to `server/discover`. -/
def discoverBody : Json :=
  .ofMembers
    [("protocolVersion", .str kProtocolVersion),
      ("capabilities", .ofMembers
        [("tools", .ofMembers [("listChanged", .bool false)]),
          ("extensions", .ofMembers [(kTasksExt, .object)])]),
      ("serverInfo", .ofMembers [("name", .str "perfacet"), ("version", .str "0.1.0")]),
      ("ttlMs", .int 60000), ("cacheScope", .str "private")]

/-- `Pipeline::listBody`: the list may be cached until a grant of the agent runs out. -/
def listBody (s : PipelineState) (who : Principal) (now : UInt64) : Json :=
  let ttl := if s.index.cold then 0 else env.cfg.listTtlMs
  let rem := s.grants.shortestRemainingMs who.agentId now
  -- `UINT64_MAX` says that no grant will run out
  let ttl := if rem ≠ 0xFFFFFFFFFFFFFFFF ∧ rem < ttl then rem else ttl
  .ofMembers
    [("tools", FacetView.listTools env.catalog s.index who), ("ttlMs", .int ttl.toNat),
      ("cacheScope", .str "private")]

/-- The answer to `tasks/get`. -/
def taskBody (t : Task) : Json :=
  let body := Json.ofMembers
    [("taskId", .str t.taskId), ("status", .str t.status.text),
      ("createdAt", .str (iso8601Utc t.createdAtMs)),
      ("lastUpdatedAt", .str (iso8601Utc t.lastUpdatedAtMs)), ("ttlMs", .int t.ttlMs.toNat)]
  -- a task that is working, or was cancelled, has no outcome to show
  match t.status with
  | .completed => body.set "result" t.resultOrError
  | .failed => body.set "error" t.resultOrError
  | _ => body

/-- The start of `Pipeline::handle`: two spans, and the closure `finish`. -/
def received (s : PipelineState) (req : Request) (clk : Clock) :
    PipelineState × Request × Finish :=
  let rid := s.nextRequest
  let s := { s with nextRequest := rid + 1, log := .request rid req :: s.log }
  let (s, total) := s.startSpan env req "total" (clk 1)
  -- the second span is opened below the first
  let (s, gateway) := s.startSpan env { req with trace := total } "gateway" (clk 2)
  (s, { req with trace := gateway },
    { rid := rid, t0 := clk 0, upstreamId := req.upstreamId, gateway := gateway, total := total })

/-- The rest of `Pipeline::handle`: every method has its answer. -/
def dispatch (s : PipelineState) (req : Request) (fin : Finish) (clk : Clock) : PipelineState :=
  if req.method = "server/discover" then s.finish fin (.ofBody discoverBody) (clk 0)
  else if req.method = "tools/list" then
    s.finish fin (.ofBody (s.listBody env req.who (clk 0))) (clk 1)
  else if req.method = "tasks/get" then
    match s.getTask req.name req.who (clk 0) with
    | (s, none) => s.finish fin taskNotFound (clk 1)
    | (s, some t) => s.finish fin (.ofBody (taskBody t)) (clk 1)
  else if req.method = "tasks/cancel" then s.cancelTask req.name req.who fin clk
  else if req.method = "tools/call" then s.handleCall env req fin clk
  else
    s.finish fin (.ofError .protocol 404 (jsonRpcError (-32601) "Method not found" .object)) (clk 0)

/-- `Pipeline::handle`. -/
def handle (s : PipelineState) (req : Request) (clk : Clock) : PipelineState :=
  match s.received env req clk with
  | (s, req, fin) => s.dispatch env req fin (clk.after 3)

/-! ## Shutdown -/

/-- The part of `Pipeline::requestStop` that tells one call. -/
def cancelLive (clk : String → Clock) (s : PipelineState) (inflightId : String) : PipelineState :=
  match s.liveCall inflightId with
  | some (c, call) => s.cancelWait c call (clk inflightId)
  | none => s

/-- `Pipeline::requestStop`, visiting the calls in the given order. -/
def requestStop (s : PipelineState) (order : List String) (clk : String → Clock) :
    PipelineState :=
  order.foldl (cancelLive clk) { s with stopping := true, log := .stopped :: s.log }

/-- One queue of `LocalGovernor::rejectAllQueued`. -/
def rejectQueue (s : PipelineState) (toolStr : String) (clk : Clock) : PipelineState :=
  (s.gov.queue toolStr).foldl
    (fun s w =>
      -- the waiters give the number of turns; a turn takes the one in front
      match s.gov.rejectTurn toolStr with
      | (gov, some head) => { s with gov := gov }.rejected head.cb (clk w.id)
      | (_, none) => s)
    s

/-- `LocalGovernor::rejectAllQueued`, visiting the queues in the given order. -/
def rejectAllQueued (s : PipelineState) (order : List String) (clk : String → Clock) :
    PipelineState :=
  order.foldl (fun s toolStr => s.rejectQueue toolStr (clk toolStr)) s

end PipelineState

end Perfacet
