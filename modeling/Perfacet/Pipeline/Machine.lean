import Perfacet.Lib.Transition
import Perfacet.Pipeline.Pipeline

/-!
# Runs of the pipeline

Everything runs on the thread of one event loop. An event of the loop (a request, a timer,
an upstream callback) starts only when nothing else is running; a backend may in addition
deliver outcomes before its `call` returns. The unfinished work of an event is the stack of
frames, and `run` executes the frame on top.

The sources of nondeterminism are the inputs: which event comes next, what upstreams
answer, what the clock shows, and in which order a hash map is visited. A step in which an
exception leaves the event loop ends the process, so it leads to no state.

## Main definitions

* `PipelineInput`, `PipelineState.step`, `Pipeline.machine`
-/

namespace Perfacet

/-- What may happen next. -/
inductive PipelineInput
  | handle (req : Request) (clk : Clock)
  | queueTimer (id : ℕ) (clk : Clock)
  | promote (c : ℕ) (clk : Clock)
  | upstream (c : ℕ) (r : Response) (clk : Clock)
  | drop (c : ℕ)
  | abandon (c : ℕ)
  | backendReturns
  | requestStop (calls tools : List String) (clk rejects : String → Clock)
  | toolsListed (backend : String) (tools : List IndexedTool)
  | probeSuccess (server : String)
  | health (server : String) (state : HealthState) (latency : UInt64)
  | grants (table : GrantTable)
  | run (clk : Clock)

namespace PipelineState

variable (env : Env)

/-- Nothing is running. -/
def idle (s : PipelineState) : Bool := s.stack.isEmpty

/-- Nothing is running but a backend's `call`. -/
def listening (s : PipelineState) : Bool :=
  match s.stack with
  | [] => true
  | .inBackend _ :: _ => true
  | _ => false

/-- Execute the frame on top. -/
def runTop (s : PipelineState) (clk : Clock) : Option PipelineState :=
  match s.stack with
  | .dequeue ts :: below =>
    match s.gov.tryDequeueTurn ts (clk 0) with
    | (_, .stop) => some { s with stack := below }
    -- after a rejection the loop goes on, so its frame stays
    | (gov, .reject w) => some ({ s with gov := gov }.rejected w.cb (clk 1))
    | (gov, .go w) => some ({ s with gov := gov, stack := below }.admitted env w.cb (clk.after 1))
  | .onUpstream c r :: below =>
    match s.calls.lookup c with
    | some call => some ({ s with stack := below }.onUpstream env c call r clk)
    | none => none
  | .unref c :: below =>
    -- the last reference to go destroys the call
    let s := { s with stack := below }
    match s.calls.lookup c with
    | some call => some (if call.refs below c = 0 then s.destroy c call clk else s)
    | none => none
  | _ => none

/-- One step, before it is known whether the process survives it. -/
def attempt (s : PipelineState) : PipelineInput → Option PipelineState
  | .handle req clk => if s.idle then some (s.handle env req clk) else none
  | .queueTimer id clk =>
    if s.idle then
      match s.gov.expire id with
      | some (gov, some w) => some ({ s with gov := gov }.rejected w.cb (clk 0))
      | some (gov, none) => some { s with gov := gov }
      | none => none
    else none
  | .promote c clk =>
    match s.idle, s.calls.lookup c with
    | true, some call =>
      -- the timer has fired; its closure lives until `onPromote` returns
      if call.promoteArmed then
        some ({ s with stack := .unref c :: s.stack }.onPromote env c
          { call with promoteArmed := false } clk)
      else none
    | _, _ => none
  | .upstream c r clk =>
    match s.listening, s.calls.lookup c with
    | true, some call =>
      -- the callback is called, and is destroyed by a step of its own
      if 0 < call.pending then
        some (s.onUpstream env c
          { call with pending := call.pending - 1, spent := call.spent + 1 } r clk)
      else none
    | _, _ => none
  | .drop c =>
    match s.listening, s.calls.lookup c with
    | true, some call =>
      -- a callback that was called is destroyed
      if 0 < call.spent then
        some { s.put c { call with spent := call.spent - 1 } with stack := .unref c :: s.stack }
      else none
    | _, _ => none
  | .abandon c =>
    match s.listening, s.calls.lookup c with
    | true, some call =>
      -- a callback that was never called is destroyed
      if 0 < call.pending then
        some { s.put c { call with pending := call.pending - 1 } with
          stack := .unref c :: s.stack }
      else none
    | _, _ => none
  | .backendReturns =>
    match s.stack with
    | .inBackend _ :: below => some { s with stack := below }
    | _ => none
  | .requestStop calls tools clk rejects =>
    -- calls and queues stand in hash maps, which may be walked in any order
    if s.idle && decide (calls.Perm s.live.keys) && decide (tools.Perm s.gov.queues.keys) then
      some ((s.requestStop calls clk).rejectAllQueued tools rejects)
    else none
  | .toolsListed backend tools =>
    if s.idle then
      some { s with
        index := s.index.replace backend tools
        gov := s.gov.onToolsListed backend (tools.map (·.name)) }
    else none
  | .probeSuccess server =>
    if s.idle then some { s with circuit := s.circuit.onProbeSuccess server } else none
  | .health server state latency =>
    if s.idle then some { s with health := s.health.insert server (state, latency) } else none
  | .grants table => if s.idle then some { s with grants := table } else none
  | .run clk => s.runTop env clk

/-- One step of the process. -/
def step (s : PipelineState) (input : PipelineInput) : Option PipelineState :=
  (s.attempt env input).filter fun s' => !s'.terminated

/-- The pipeline as the gateway sets it up; health, tool lists and grants were read before
the first request. -/
def initial (health : UnorderedMap String (HealthState × UInt64)) (index : ToolIndex)
    (grants : GrantTable) : PipelineState :=
  { gov := { cfg := env.cfg }
    tasks := .make env.cfg.taskMax
    circuit :=
      { openAfter := env.cfg.circuitOpenAfter, cooldownMs := env.cfg.circuitCooldownMs,
        halfOpenProbes := env.cfg.halfOpenProbes }
    health := health
    index := index
    grants := grants
    tracer := { service := env.cfg.otelService } }

end PipelineState

/-- The pipeline in an environment. -/
def Pipeline.machine (env : Env) : TransitionSystem PipelineState PipelineInput where
  init s := ∃ health index grants, s = .initial env health index grants
  step := PipelineState.step env

/-! ## An example -/

namespace PipelineExample

/-- Ids that differ in their length. -/
def randomHex (_ draw : ℕ) : String := String.ofList (List.replicate draw 'f')

theorem randomHex_injective (n : ℕ) : Function.Injective (randomHex n) := by
  intro k k' same
  have lengths := congrArg (fun s => s.toList.length) same
  simpa [randomHex] using lengths

/-- One backend, which everybody may call. -/
def gateway (cfg : YamlConfig) : Env where
  cfg := cfg
  catalog := (∅ : Catalog).insert "b"
    { name := "b", url := "", metaData := { level := 0, secret := false, idempotentTools := [] },
      backend := true }
  randomHex := randomHex
  distinct := randomHex_injective

/-- The backend is up when the gateway starts. -/
def start (cfg : YamlConfig) : PipelineState :=
  .initial (gateway cfg) ((∅ : UnorderedMap String (HealthState × UInt64)).insert "b" (.up, 0)) {} ∅

theorem start_init (cfg : YamlConfig) : (Pipeline.machine (gateway cfg)).init (start cfg) :=
  ⟨_, _, _, rfl⟩

/-- A call of a tool with one argument. -/
def call (name : String) (argument : ℤ) : Request :=
  { method := "tools/call", name := name, upstreamId := "", idJson := .null,
    params := .ofMembers [("arguments", .int argument)], metaJson := .object,
    who := { agentId := "ann", level := 0, grantBump := 0, hasLevel := true, admin := false,
             levelName := "default" },
    trace := ⟨"", "", ""⟩, deadlineMs := 0, caps := ⟨false⟩ }

/-- A clock that stands still. -/
def clk : Clock := fun _ => 1

/-- A request comes in and goes upstream at once. -/
def forwarded (req : Request) : List PipelineInput :=
  [.handle req clk, .backendReturns, .run clk]

/-- Call `c` has its result, and its last reference goes. -/
def finished (c : ℕ) : List PipelineInput :=
  [.upstream c (.ofBody .object) clk, .drop c, .run clk]

/-- The upstream cannot be reached. -/
def failure : Response := .ofText .unavailable "connection refused"

end PipelineExample

end Perfacet
