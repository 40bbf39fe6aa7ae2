import Perfacet.Health.ProbeHistory
import Perfacet.Pipeline.Machine
import Perfacet.Policy.Visibility

/-!
# What a probe does

The outcome of a probe passes through three components in one callback chain: the health of its
server, the index of tools with the governor's limits behind it, and the circuit. They read a
document that the upstream has made, with accessors that throw.

## Main definitions

* `Gateway.applyResult` — the chain
* `lastGood` — the last good tool list among some outcomes

## Main results

* `index_last_good_iff` — when the index is the last good one
* `Gateway.components_of_applyResults` — each component makes of the outcomes what it would make of
  them alone
* `Gateway.applyResult_run` — the chain, as events of the pipeline
-/

namespace Perfacet

/-! ## The chain -/

namespace IndexRefresher

/-- The tools of a list, if it is one. -/
def listed (toolList : Option Json) : Except JsonError (Option (List IndexedTool)) :=
  match toolList.bind (·.field? "tools") with
  | some (.arr items) => do pure (some (← tools items))
  | _ => .ok none

/-- The index takes over the tools of a list. -/
theorem onProbeResult_eq (index : ToolIndex) (server : String) (toolList : Option Json) :
    onProbeResult index server toolList = (listed toolList).map fun tools =>
      match tools with
      | some tools => index.replace server tools
      | none => index := by
  unfold onProbeResult listed
  generalize toolList.bind (·.field? "tools") = found
  rcases found with _ | _ | _ | _ | _ | _ | items | _ <;> try rfl
  simp only
  cases tools items <;> rfl

end IndexRefresher

/-- What `applyResult` is told of a probe: how long it took, when it ended, and the response. -/
structure ProbeOutcome where
  server : String
  latencyMs : UInt64
  now : UInt64
  response : Response

namespace ProbeOutcome

def ok (o : ProbeOutcome) : Bool := !o.response.isError && decide (o.response.klass = .ok)

/-- The result of `tools/list`; a failed probe has none. -/
def toolList (o : ProbeOutcome) : Option Json := if o.ok then some o.response.body else none

/-- What the health of the server is told. -/
def result (o : ProbeOutcome) : ProbeHealth.ProbeResult where
  ok := o.ok
  latencyMs := o.latencyMs
  tools := if o.response.isError then none else some o.response.body
  now := o.now

end ProbeOutcome

/-- The components that a probe changes. -/
structure Gateway where
  health : ProbeHealth
  index : ToolIndex
  governor : LocalGovernor Waiting
  circuit : CountCircuit

namespace Gateway

/-- `IndexRefresher::onProbeResult` with its callback: the governor hears of the tools. -/
def onProbeResult (g : Gateway) (server : String) (toolList : Option Json) :
    Except JsonError Gateway := do
  match ← IndexRefresher.listed toolList with
  | some tools =>
    pure { g with
      index := g.index.replace server tools
      governor := g.governor.onToolsListed server (tools.map (·.name)) }
  | none => pure g

/-- `ProbeHealth::applyResult` with the gateway's callback. What it throws leaves the event
loop. -/
def applyResult (trunc : FloatText → ℤ) (g : Gateway) (o : ProbeOutcome) :
    Except JsonError Gateway := do
  let health ← g.health.applyResult trunc o.server o.ok o.latencyMs o.now
    (if o.response.isError then none else some o.response.body)
  let g ← { g with health := health }.onProbeResult o.server o.toolList
  pure (if o.toolList.isSome then { g with circuit := g.circuit.onProbeSuccess o.server } else g)

/-- One outcome after the other. -/
def applyResults (trunc : FloatText → ℤ) (g : Gateway) (outcomes : List ProbeOutcome) :
    Except JsonError Gateway :=
  outcomes.foldlM (applyResult trunc) g

end Gateway

/-! ## The last good list -/

/-- A tool as an upstream should list it: a name, and perhaps a description, that are texts. -/
def IndexedTool.wellFormed (t : Json) : Option IndexedTool :=
  match t.field? "name", t.field? "description" with
  | some (.str name), none =>
    some { name := name, description := "", inputSchema := (t.field? "inputSchema").getD .object }
  | some (.str name), some (.str description) =>
    some { name := name, description := description,
           inputSchema := (t.field? "inputSchema").getD .object }
  | _, _ => none

/-- The well-formed tools of a successful probe with a tool list. -/
def ProbeOutcome.listed (o : ProbeOutcome) : Option (List IndexedTool) :=
  match o.toolList.bind (·.field? "tools") with
  | some (.arr items) => some (items.filterMap IndexedTool.wellFormed)
  | _ => none

/-- The tools of the last good list of a server. -/
def lastGood (outcomes : List ProbeOutcome) (server : String) : Option (List IndexedTool) :=
  outcomes.reverse.findSome? fun o => if o.server = server then o.listed else none

/-- The tools of a backend. -/
def ToolIndex.toolsOf (index : ToolIndex) (backend : String) : Option (List IndexedTool) :=
  index.byBackend.lookup backend

/-- Of a tool that has a name, the name and the description are texts. -/
def IndexedTool.Plain (t : Json) : Prop :=
  ∀ name, t.field? "name" = some name → name.isString = true ∧
    ∀ description, t.field? "description" = some description → description.isString = true

/-- A successful probe whose `ttlMs` is a number and whose tools are plain. -/
structure ProbeOutcome.Benign (o : ProbeOutcome) : Prop where
  ttlMs : ∀ ttl, o.toolList.bind (·.field? "ttlMs") = some ttl → ttl.isNumber = true
  tools : ∀ items, o.toolList.bind (·.field? "tools") = some (.arr items) →
    ∀ t ∈ items, IndexedTool.Plain t

namespace IndexRefresher

variable {t : Json} {items : List Json} {toolList : Option Json}

/-- A plain tool is read as a well-formed one, or skipped; any other makes the reader throw. -/
theorem tool_spec : (IndexedTool.Plain t ∧ tool t = .ok (IndexedTool.wellFormed t)) ∨
    (¬ IndexedTool.Plain t ∧ ∃ e, tool t = .error e) := by
  unfold tool IndexedTool.wellFormed IndexedTool.Plain
  cases named : t.field? "name" with
  | none => exact .inl ⟨by simp, rfl⟩
  | some name =>
    cases name with
    | str text =>
      cases described : t.field? "description" with
      | none =>
        rw [Json.valueString_of_field?_none described named]
        exact .inl ⟨by simp [Json.isString], rfl⟩
      | some description =>
        rw [Json.valueString_of_field? described]
        cases description with
        | str => exact .inl ⟨by simp [Json.isString], rfl⟩
        | null | bool | int | float | arr | obj => exact .inr ⟨by simp [Json.isString], _, rfl⟩
    | null | bool | int | float | arr | obj => exact .inr ⟨by simp [Json.isString], _, rfl⟩

/-- So does the reader of all of them. -/
theorem tools_spec (items : List Json) :
    ((∀ t ∈ items, IndexedTool.Plain t) ∧
      tools items = .ok (items.filterMap IndexedTool.wellFormed)) ∨
    ((¬ ∀ t ∈ items, IndexedTool.Plain t) ∧ ∃ e, tools items = .error e) := by
  induction items with
  | nil => exact .inl ⟨by simp, rfl⟩
  | cons t rest ih =>
    rw [List.forall_mem_cons, tools]
    rcases tool_spec (t := t) with ⟨plain, read⟩ | ⟨odd, e, read⟩
    · rcases ih with ⟨others, readOthers⟩ | ⟨odd, e, readOthers⟩
      · refine .inl ⟨⟨plain, others⟩, ?_⟩
        rw [read, readOthers, List.filterMap_cons]
        cases IndexedTool.wellFormed t <;> rfl
      · refine .inr ⟨fun all => odd all.2, e, ?_⟩
        rw [read, readOthers]
        rfl
    · refine .inr ⟨fun all => odd all.1, e, ?_⟩
      rw [read]
      rfl

end IndexRefresher

namespace ProbeOutcome

variable {o : ProbeOutcome}

/-- The tools of a benign outcome are the well-formed ones; reading another one throws. -/
theorem listed_spec :
    ((∀ items, o.toolList.bind (·.field? "tools") = some (.arr items) →
        ∀ t ∈ items, IndexedTool.Plain t) ∧ IndexRefresher.listed o.toolList = .ok o.listed) ∨
    ((¬ ∀ items, o.toolList.bind (·.field? "tools") = some (.arr items) →
        ∀ t ∈ items, IndexedTool.Plain t) ∧ ∃ e, IndexRefresher.listed o.toolList = .error e) := by
  unfold IndexRefresher.listed ProbeOutcome.listed
  generalize o.toolList.bind (·.field? "tools") = found
  rcases found with _ | _ | _ | _ | _ | _ | items | _
  case some.arr =>
    simp only [Option.some.injEq, Json.arr.injEq, forall_eq']
    rcases IndexRefresher.tools_spec items with ⟨plain, read⟩ | ⟨odd, e, read⟩
    · exact .inl ⟨plain, by rw [read]; rfl⟩
    · exact .inr ⟨odd, e, by rw [read]; rfl⟩
  all_goals exact .inl ⟨by simp, rfl⟩

/-- Whether its `ttlMs` makes the health of its server throw. -/
theorem ttlMs_iff : (o.ok = true → ∀ ttl,
      (if o.response.isError then none else some o.response.body).bind (·.field? "ttlMs") =
        some ttl → ttl.isNumber = true) ↔
    ∀ ttl, o.toolList.bind (·.field? "ttlMs") = some ttl → ttl.isNumber = true := by
  unfold toolList
  by_cases ok : o.ok = true
  · have fine : o.response.isError = false := by
      rw [ProbeOutcome.ok, Bool.and_eq_true, Bool.not_eq_true'] at ok
      exact ok.1
    simp [ok, fine]
  · simp [ok]

end ProbeOutcome

/-! ## Runs of outcomes -/

namespace Gateway

variable {trunc : FloatText → ℤ} {g g' : Gateway} {o : ProbeOutcome} {outcomes : List ProbeOutcome}

/-- The gateway after a benign outcome, but for the health of the server. -/
def probed (g : Gateway) (o : ProbeOutcome) (health : ProbeHealth) : Gateway where
  health := health
  index := match o.listed with
    | some tools => g.index.replace o.server tools
    | none => g.index
  governor := match o.listed with
    | some tools => g.governor.onToolsListed o.server (tools.map (·.name))
    | none => g.governor
  -- a probe that failed does not count against the circuit
  circuit := if o.ok then g.circuit.onProbeSuccess o.server else g.circuit

/-- A benign outcome is applied; any other makes the chain throw. -/
theorem applyResult_spec (trunc : FloatText → ℤ) (g : Gateway) (o : ProbeOutcome) :
    (o.Benign ∧ ∃ health, g.applyResult trunc o = .ok (g.probed o health)) ∨
      (¬ o.Benign ∧ ∃ e, g.applyResult trunc o = .error e) := by
  have ttl : (∃ health, g.health.applyResult trunc o.server o.ok o.latencyMs o.now
      (if o.response.isError then none else some o.response.body) = .ok health) ↔ _ :=
    ProbeHealth.applyResult_ok_iff
  rw [ProbeOutcome.ttlMs_iff] at ttl
  unfold applyResult onProbeResult
  cases counted : g.health.applyResult trunc o.server o.ok o.latencyMs o.now
      (if o.response.isError then none else some o.response.body) with
  | error e =>
    refine .inr ⟨fun benign => ?_, e, rfl⟩
    obtain ⟨health, ok⟩ := ttl.mpr benign.ttlMs
    rw [counted] at ok
    cases ok
  | ok health =>
    have number := ttl.mp ⟨health, counted⟩
    rcases o.listed_spec with ⟨plain, read⟩ | ⟨odd, e, read⟩
    · refine .inl ⟨⟨number, plain⟩, health, ?_⟩
      rw [read]
      unfold probed ProbeOutcome.toolList
      cases o.listed <;> cases o.ok <;> rfl
    · refine .inr ⟨fun benign => odd benign.tools, e, ?_⟩
      rw [read]
      rfl

/-- An outcome replaces the tools of its server by its list, if it has one, and no others. -/
theorem toolsOf_probed (g : Gateway) (o : ProbeOutcome) (health : ProbeHealth) (server : String) :
    (g.probed o health).index.toolsOf server =
      (if o.server = server then o.listed else none).or (g.index.toolsOf server) := by
  unfold probed ToolIndex.toolsOf
  cases o.listed with
  | none => simp
  | some tools =>
    simp only [ToolIndex.replace, UnorderedMap.lookup_insert, eq_comm (a := server)]
    split_ifs <;> rfl

theorem applyResults_cons (trunc : FloatText → ℤ) (g : Gateway) (o : ProbeOutcome)
    (rest : List ProbeOutcome) : g.applyResults trunc (o :: rest) =
      g.applyResult trunc o >>= fun g => g.applyResults trunc rest := rfl

/-- The tools of the earlier outcomes are overruled by those of the later ones. -/
theorem lastGood_cons (o : ProbeOutcome) (rest : List ProbeOutcome) (server : String) :
    lastGood (o :: rest) server =
      (lastGood rest server).or (if o.server = server then o.listed else none) := by
  rw [lastGood, List.reverse_cons, List.findSome?_append, lastGood]
  congr 1
  rw [List.findSome?_cons, List.findSome?_nil]
  cases (if o.server = server then o.listed else none) <;> rfl

/-- Benign outcomes leave the last good list. -/
theorem toolsOf_applyResults (applied : g.applyResults trunc outcomes = .ok g') (server : String) :
    g'.index.toolsOf server = (lastGood outcomes server).or (g.index.toolsOf server) := by
  induction outcomes generalizing g with
  | nil =>
    obtain rfl := Except.ok.inj applied
    rfl
  | cons o rest ih =>
    rw [applyResults_cons] at applied
    rcases applyResult_spec trunc g o with ⟨-, health, first⟩ | ⟨-, e, first⟩
    · rw [first] at applied
      rw [ih applied, toolsOf_probed, lastGood_cons, Option.or_assoc]
    · rw [first] at applied
      cases applied

/-- Outcomes are applied without an exception if and only if all are benign. -/
theorem applyResults_ok_iff :
    (∃ g', g.applyResults trunc outcomes = .ok g') ↔ ∀ o ∈ outcomes, o.Benign := by
  induction outcomes generalizing g with
  | nil => exact iff_of_true ⟨g, rfl⟩ (by simp)
  | cons o rest ih =>
    rw [applyResults_cons, List.forall_mem_cons]
    rcases applyResult_spec trunc g o with ⟨benign, health, first⟩ | ⟨odd, e, first⟩
    · rw [first, ← ih (g := g.probed o health), and_iff_right benign]
      rfl
    · rw [first]
      refine iff_of_false ?_ fun all => odd all.1
      rintro ⟨g', applied⟩
      cases applied

/-- The index is what `IndexRefresher` makes of the list, and the health is not touched. -/
theorem onProbeResult_spec {server : String} {toolList : Option Json}
    (applied : g.onProbeResult server toolList = .ok g') : g'.health = g.health ∧
      IndexRefresher.onProbeResult g.index server toolList = .ok g'.index := by
  obtain ⟨tools, read, made⟩ := Except.bind_eq_ok.mp applied
  rw [IndexRefresher.onProbeResult_eq, read]
  cases tools <;>
  · obtain rfl := Except.ok.inj made
    exact ⟨rfl, rfl⟩

theorem components_of_applyResult (applied : g.applyResult trunc o = .ok g') :
    g'.health = g.health.applied trunc o.result o.server ∧
      IndexRefresher.onProbeResult g.index o.server o.toolList = .ok g'.index := by
  obtain ⟨health, counted, rest⟩ := Except.bind_eq_ok.mp applied
  obtain ⟨g₁, taken, made⟩ := Except.bind_eq_ok.mp rest
  obtain ⟨kept, index⟩ := onProbeResult_spec taken
  rw [ProbeHealth.applied_of_applyResult (r := o.result) counted]
  obtain rfl := Except.ok.inj made
  -- the circuit is told last
  split
  · exact ⟨kept, index⟩
  · exact ⟨kept, index⟩

/-- A sequence of outcomes that is applied without an exception leaves the health that the results
of the probes amount to, and the index that `IndexRefresher` makes of the lists. -/
theorem components_of_applyResults (applied : g.applyResults trunc outcomes = .ok g') :
    g'.health = g.health.applyResults trunc (outcomes.map fun o => (o.server, o.result)) ∧
      outcomes.foldlM (fun index o => IndexRefresher.onProbeResult index o.server o.toolList)
        g.index = .ok g'.index := by
  induction outcomes generalizing g with
  | nil =>
    obtain rfl := Except.ok.inj applied
    exact ⟨rfl, rfl⟩
  | cons o rest ih =>
    obtain ⟨g₁, first, others⟩ := Except.bind_eq_ok.mp (applyResults_cons trunc g o rest ▸ applied)
    obtain ⟨health, index⟩ := components_of_applyResult first
    rw [List.foldlM_cons, index, List.map_cons, ProbeHealth.applyResults, List.foldl_cons, ← health]
    exact ih others

/-- The components of the pipeline that a probe changes. -/
def ofPipeline (s : PipelineState) (health : ProbeHealth) : Gateway :=
  { health := health, index := s.index, governor := s.gov, circuit := s.circuit }

/-- The pipeline with the components of a gateway; it looks at the state and at the latency of the
server. -/
def update (s : PipelineState) (g : Gateway) (server : String) : PipelineState :=
  let slot := g.health.slots.getD server {}
  { s with
    index := g.index
    gov := g.governor
    circuit := g.circuit
    health := s.health.insert server (slot.state, slot.ewma) }

/-- The events of the pipeline that make up an outcome. -/
def events (g : Gateway) (o : ProbeOutcome) : List PipelineInput :=
  let slot := g.health.slots.getD o.server {}
  (match o.listed with
    | some tools => [.toolsListed o.server tools]
    | none => []) ++
  (if o.ok then [.probeSuccess o.server] else []) ++ [.health o.server slot.state slot.ewma]

/-- The chain does to the pipeline what its events do. -/
theorem applyResult_run {env : Env} {s : PipelineState} (idle : s.idle = true)
    (alive : s.terminated = false) (health : ProbeHealth)
    (applied : (ofPipeline s health).applyResult trunc o = .ok g') :
    (g'.events o).foldlM (PipelineState.step env) s = some (update s g' o.server) := by
  rcases applyResult_spec trunc (ofPipeline s health) o with ⟨-, health', first⟩ | ⟨-, e, first⟩
  · obtain rfl := Except.ok.inj (first.symm.trans applied)
    unfold events update probed ofPipeline
    have survives : ∀ {s s' : PipelineState} {input : PipelineInput},
        s.attempt env input = some s' → s'.terminated = false → s.step env input = some s' := by
      intro s s' input attempted alive
      rw [PipelineState.step, attempted, Option.filter_some, alive]
      rfl
    have toolsListed : ∀ {s : PipelineState} (server tools), s.idle = true →
        s.terminated = false → s.step env (.toolsListed server tools) = some _ :=
      fun server tools idle alive => survives (if_pos idle) alive
    have probeSuccess : ∀ {s : PipelineState} (server), s.idle = true → s.terminated = false →
        s.step env (.probeSuccess server) = some _ :=
      fun server idle alive => survives (if_pos idle) alive
    have health : ∀ {s : PipelineState} (server state latency), s.idle = true →
        s.terminated = false → s.step env (.health server state latency) = some _ :=
      fun server state latency idle alive => survives (if_pos idle) alive
    -- Each event is there only if its part of the chain is run.
    cases o.listed <;> cases o.ok <;>
      simp only [List.nil_append, List.cons_append, List.foldlM_cons, List.foldlM_nil,
        Option.bind_eq_bind, if_true, if_false, Bool.false_eq_true]
    · rw [health _ _ _ idle alive]
      rfl
    · rw [probeSuccess _ idle alive, Option.bind_some, health]
      · rfl
      · exact idle
      · exact alive
    · rw [toolsListed _ _ idle alive, Option.bind_some, health]
      · rfl
      · exact idle
      · exact alive
    · rw [toolsListed _ _ idle alive, Option.bind_some, probeSuccess, Option.bind_some, health]
      · rfl
      all_goals first | exact idle | exact alive
  · rw [first] at applied
    cases applied

end Gateway

/-- A sequence of outcomes is applied without an exception, and leaves of every backend the tools
of its last good list, if and only if of every successful outcome `ttlMs` is a number and the tools
have texts as names and descriptions. -/
theorem index_last_good_iff (trunc : FloatText → ℤ) (g : Gateway) (outcomes : List ProbeOutcome) :
    (∃ g', g.applyResults trunc outcomes = .ok g' ∧
        ∀ b, g'.index.toolsOf b = (lastGood outcomes b).or (g.index.toolsOf b)) ↔
      ∀ o ∈ outcomes, o.Benign := by
  have total : (∃ g', g.applyResults trunc outcomes = .ok g') ↔ ∀ o ∈ outcomes, o.Benign :=
    Gateway.applyResults_ok_iff
  rw [← total]
  constructor
  · rintro ⟨g', applied, -⟩
    exact ⟨g', applied⟩
  -- once nothing is thrown, the index is right
  · rintro ⟨g', applied⟩
    exact ⟨g', applied, fun b => Gateway.toolsOf_applyResults applied b⟩

/-! ## An example -/

namespace GatewayExample

/-- A gateway that has the list of one server. -/
def gateway : Gateway where
  health := { intervalMs := 1, degradedMs := 1, downAfter := 1 }
  index := VisibilityExample.probed [("b", "t")]
  governor := { cfg := {} }
  circuit := { openAfter := 1, cooldownMs := 1, halfOpenProbes := 1 }

/-- A successful probe with a document. -/
def outcome (server : String) (document : Json) : ProbeOutcome :=
  ⟨server, 0, 0, .ofBody document⟩

end GatewayExample

open GatewayExample in
/-- One server says `null` where a number belongs, and the gateway is gone. -/
theorem odd_ttl_throws :
    gateway.applyResults (fun _ => 0) [outcome "a" (.obj [("ttlMs", .null)])] =
      .error (.typeError 302) := rfl

end Perfacet
