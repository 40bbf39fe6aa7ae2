import Perfacet.Pipeline.Survival

/-!
# Requests that are handled to their end

Nothing between the front end and the event loop catches what `Pipeline::handle` throws. It
reads two members of a request's JSON as strings without looking at their types, and when it
answers on the spot it serialises the answer and the two spans of the request, whose texts come
from the configuration, the client and the headers.

## Main definitions

* `PipelineState.Completes` — `handle` throws nothing, and the request is taken care of
* `PipelineState.Acceptable` — the requests that `handle` copes with
-/

namespace Perfacet

variable {env : Env} {s s' : PipelineState} {req : Request} {who : Principal} {fin : Finish}
  {ctx trace : TraceContext} {t : Tracer} {rid : ℕ} {id : Json} {key : ToolKey}
  {hit : InFlightEntry}

/-! ## The gateway's own tools -/

/-- Where `request_elevation` looks for its arguments. -/
def Request.arguments (req : Request) : Json := (req.params.field? "arguments").getD req.params

/-- A text is read from an object in which the member is a string or missing. -/
theorem Json.exists_valueString {j : Json} {key default : String} :
    (∃ text, j.valueString key default = .ok text) ↔
      j.isObject = true ∧ HttpMcp.StringOrAbsent j key := by
  simp only [valueString_eq_ok, exists_and_left, Reads, HttpMcp.StringOrAbsent]
  refine and_congr_right fun _ => ?_
  cases j.field? key with
  | none => simp
  | some v => cases v <;> simp [getString]

/-- What `handle` needs of a call of one of the gateway's own tools, besides texts in UTF-8. -/
structure Request.BuiltinFits (env : Env) (req : Request) (key : ToolKey) : Prop where
  elevation : key.tool = "request_elevation" → req.arguments.isObject = true ∧
    HttpMcp.StringOrAbsent req.arguments "bump_to"
  status : key.tool = "upstream_status" → ∀ name ∈ env.catalog.names, Json.utf8 name = true

namespace PipelineState

/-- A tool of the gateway returns something that can be sent, exactly if the request fits it. The
client's name is written into the list of grants. -/
structure Returns (s : PipelineState) (who : Principal) (fits : Prop)
    (out : PipelineState × Except JsonError Response) : Prop where
  silent : s.Silent out.1
  sent : ∀ r, out.2 = .ok r → r.body.allUtf8 = true ∧ fits
  total : fits → Json.utf8 who.agentId = true → ∃ r, out.2 = .ok r

namespace Returns

variable {fits : Prop} {r : Response} {e : JsonError} {written : Except JsonError String}

theorem answer (fit : fits) (plain : r.body.allUtf8 = true) : s.Returns who fits (s, .ok r) :=
  ⟨.of_eq rfl rfl rfl, fun _ same => Except.ok.inj same ▸ ⟨plain, fit⟩, fun _ _ => ⟨r, rfl⟩⟩

theorem congr {fits' : Prop} {out : PipelineState × Except JsonError Response}
    (h : s.Returns who fits out) (same : fits ↔ fits') : s.Returns who fits' out := by
  rwa [← same]

theorem threw (unfit : ¬ fits) : s.Returns who fits (s, .error e) :=
  ⟨.of_eq rfl rfl rfl, fun _ same => (by cases same), fun fit => absurd fit unfit⟩

/-- A result is written and becomes the text of the answer. -/
theorem result (silent : s.Silent s') (fit : ∀ text, written = .ok text → fits)
    (total : fits → Json.utf8 who.agentId = true → ∃ text, written = .ok text)
    (plain : ∀ text, written = .ok text → Json.utf8 text = true) :
    s.Returns who fits (s', do
      let text ← written
      pure (.ofBody (callToolText text false))) := by
  refine ⟨silent, fun r same => ?_, fun fits who => ?_⟩
  · obtain ⟨text, made, same⟩ := Except.bind_eq_ok.mp same
    cases same
    exact ⟨(allUtf8_callToolText_iff text false).mpr (plain text made), fit text made⟩
  · obtain ⟨text, made⟩ := total fits who
    exact ⟨_, Except.bind_eq_ok.mpr ⟨text, made, rfl⟩⟩

end Returns

theorem utf8_of_dump {j : Json} {text : String} (dumped : j.dump = .ok text) :
    j.allUtf8 = true ∧ Json.utf8 text = true := by
  have plain := Json.dump_ok_iff.mp ⟨text, dumped⟩
  rw [Json.dump, if_pos plain] at dumped
  obtain rfl := Except.ok.inj dumped
  exact ⟨plain, by rw [Json.utf8, String.toList_ofList]; exact Json.utf8_write j plain⟩

/-- `request_elevation` returns if its arguments are an object in which `bump_to` is a string or
missing. -/
theorem returns_requestElevation (hex : env.Hex) (plain : req.params.allUtf8 = true)
    (elevation : key.tool = "request_elevation") (ranked : req.who.hasLevel = true) (clk : Clock) :
    s.Returns req.who
      (req.arguments.isObject = true ∧ HttpMcp.StringOrAbsent req.arguments "bump_to")
      (s.handleBuiltin env req key clk) := by
  have invalid : (Response.ofText .authz "invalid bump_to").body.allUtf8 = true :=
    allUtf8_ofText (by decide)
  have arguments : req.arguments.allUtf8 = true := Json.allUtf8_getD_field? plain plain
  unfold handleBuiltin
  have looked : (req.params.field? "arguments").getD req.params = req.arguments := rfl
  rw [if_pos elevation, ranked, looked]
  simp only [Bool.not_true, Bool.false_eq_true, if_false]
  cases read : req.arguments.valueString "bump_to" "" with
  | error e =>
    refine .threw fun fits => ?_
    obtain ⟨text, read'⟩ := Json.exists_valueString.mpr fits
    rw [read] at read'
    cases read'
  | ok bumpTo =>
    have fits := Json.exists_valueString.mp ⟨bumpTo, read⟩
    have bump := Json.utf8_of_reads arguments (Json.valueString_eq_ok.mp read).2
    dsimp only
    split
    · exact .answer fits invalid
    · next rank parsed =>
      split
      · exact .answer fits invalid
      · -- the request is written into the list of grants, and its id into the answer
        dsimp only [draw]
        have id8 : Json.utf8 ("g_" ++ env.randomHex 8 s.draws) = true := by
          rw [Json.utf8_append (by decide)]
          exact hex 8 s.draws
        generalize "g_" ++ env.randomHex 8 s.draws = id at id8
        have line : Json.utf8 req.who.agentId = true → ∃ text,
            (GrantTable.line (GrantTable.pending id req.who.agentId bumpTo rank (clk 0))).dump =
              .ok text := fun agent =>
          Json.dump_ok_iff.mpr (GrantTable.allUtf8_line_iff.mpr
            ⟨agent, bump, id8, show Json.utf8 "pending" = true by decide⟩)
        have said : (Json.ofMembers [("grantId", .str id), ("status", .str "pending")]).allUtf8 =
            true := by
          have keys : Json.utf8 "grantId" = true ∧ Json.utf8 "status" = true ∧
            Json.utf8 "pending" = true := by decide
          apply Json.allUtf8_ofMembers
          simp [Json.allUtf8, id8, keys]
        revert line
        generalize Json.dump (GrantTable.line _) = first
        intro line
        cases first with
        | error e =>
          refine ⟨.of_eq rfl rfl rfl, fun r same => (by cases same), fun _ agent => ?_⟩
          obtain ⟨text, written⟩ := line agent
          cases written
        | ok text =>
          exact .result (.of_eq rfl rfl rfl) (fun _ _ => fits)
            (fun _ _ => Json.dump_ok_iff.mpr said) fun text dumped => (utf8_of_dump dumped).2

/-- `upstream_status` returns if the names of the backends are UTF-8. -/
theorem returns_upstreamStatus (status : key.tool = "upstream_status")
    (admin : req.who.admin = true) (clk : Clock) :
    s.Returns req.who (∀ name ∈ env.catalog.names, Json.utf8 name = true)
      (s.handleBuiltin env req key clk) := by
  have other : key.tool ≠ "request_elevation" := by
    rw [status]
    decide
  have item : ∀ name, (Json.ofMembers
      [("name", .str name), ("state", .str (healthStateName (s.healthState name))),
        ("latency_ewma_ms", .int (s.healthLatency name).toNat)]).allUtf8 = true ↔
        Json.utf8 name = true := by
    intro name
    have keys : Json.utf8 "name" = true ∧ Json.utf8 "state" = true ∧
      Json.utf8 "latency_ewma_ms" = true := by decide
    have state : Json.utf8 (healthStateName (s.healthState name)) = true := by
      cases s.healthState name <;> decide
    simp only [Json.ofMembers, List.foldl_cons, List.foldl_nil, Json.setField, String.reduceLT,
      String.reduceEq, if_true, if_false, Json.allUtf8, Json.allUtf8Members, keys, state,
      Bool.and_true, Bool.true_and]
  unfold handleBuiltin
  rw [if_neg other, if_pos status, admin]
  refine .result (.of_eq rfl rfl rfl) (fun text dumped => ?_) (fun fits _ => ?_)
    fun text dumped => (utf8_of_dump dumped).2
  · have plain := (utf8_of_dump dumped).1
    rw [Json.allUtf8, Json.allUtf8Items_iff, List.forall_mem_map] at plain
    exact fun name member => (item name).mp (plain name member)
  · apply Json.dump_ok_iff.mpr
    rw [Json.allUtf8, Json.allUtf8Items_iff, List.forall_mem_map]
    exact fun name member => (item name).mpr (fits name member)

/-- One of the gateway's own tools that the policy allows returns if the request fits. -/
theorem returns_handleBuiltin (s : PipelineState) (req : Request) (hex : env.Hex)
    (plain : req.params.allUtf8 = true)
    (allowed : RankPolicy.builtinDecision req.who key = .allow) (clk : Clock) :
    s.Returns req.who (req.BuiltinFits env key) (s.handleBuiltin env req key clk) := by
  unfold RankPolicy.builtinDecision at allowed
  split at allowed
  · next elevation =>
    split at allowed
    · next ranked =>
      refine (returns_requestElevation hex plain elevation ranked clk).congr ⟨fun fits => ?_,
        fun fits => fits.elevation elevation⟩
      refine ⟨fun _ => fits, fun status => ?_⟩
      rw [elevation] at status
      exact absurd status (by decide)
    · cases allowed
  · next other =>
    split at allowed
    · next status =>
      split at allowed
      · next admin =>
        exact (returns_upstreamStatus status admin clk).congr
          ⟨fun fits => ⟨fun elevation => absurd elevation other, fun _ => fits⟩,
            fun fits => fits.status status⟩
      · cases allowed
    · next neither =>
      unfold handleBuiltin
      rw [if_neg other, if_neg neither]
      exact .answer ⟨fun elevation => absurd elevation other, fun status => absurd status neither⟩
        ((allUtf8_callToolText_iff "unknown tool" true).mpr (by decide))

/-! ## Every call -/

end PipelineState

/-- The policy allows the call of a tool that the request asks for. -/
structure Request.Asks (env : Env) (req : Request) (key : ToolKey) : Prop where
  parsed : ToolKey.parse req.name = some key
  allowed : RankPolicy.authorizeCall env.catalog req.who key = .allow

namespace PipelineState

/-- The calls that `handle` copes with: the members it reads as strings are strings or missing,
what it tells of running calls and backends is UTF-8, and so are the texts of its spans, unless
the call is not answered at once. -/
structure Acceptable (env : Env) (s : PipelineState) (req : Request) (clk : Clock) : Prop where
  builtin : ∀ key, req.Asks env key → key.backend = "perfacet" → req.BuiltinFits env key
  upstream : ∀ key, req.Asks env key → key.backend ≠ "perfacet" → s.UpstreamFits req key
  spans : (∃ key, req.Asks env key ∧ key.backend ≠ "perfacet" ∧ s.Passes env req key clk) ∨
    s.tracer.Legible req.who req.trace

/-- A call that the policy does not allow is only answered. -/
theorem acceptable_of_refused (refused : ∀ key, ¬ req.Asks env key) (clk : Clock) :
    s.Acceptable env req clk ↔ s.tracer.Legible req.who req.trace := by
  constructor
  · rintro ⟨-, -, ⟨key, asks, -⟩ | texts⟩
    · exact absurd asks (refused key)
    · exact texts
  · exact fun texts => ⟨fun key asks => absurd asks (refused key),
      fun key asks => absurd asks (refused key), .inr texts⟩

/-- Of a call that the policy allows, it matters where it goes. -/
theorem acceptable_of_asks (asks : req.Asks env key) (clk : Clock) :
    s.Acceptable env req clk ↔
      if key.backend = "perfacet" then req.BuiltinFits env key ∧ s.tracer.Legible req.who req.trace
      else s.UpstreamFits req key ∧
        (s.Passes env req key clk ∨ s.tracer.Legible req.who req.trace) := by
  have only : ∀ {key'}, req.Asks env key' → key' = key := fun asks' =>
    Option.some.inj (asks'.parsed.symm.trans asks.parsed)
  split
  · next own =>
    constructor
    · rintro ⟨builtin, -, ⟨key', asks', other, -⟩ | texts⟩
      · exact absurd (only asks' ▸ own) other
      · exact ⟨builtin key asks own, texts⟩
    · rintro ⟨fits, texts⟩
      exact ⟨fun key' asks' _ => only asks' ▸ fits,
        fun key' asks' other => absurd (only asks' ▸ own) other, .inr texts⟩
  · next other =>
    constructor
    · rintro ⟨-, upstream, spans⟩
      refine ⟨upstream key asks other, spans.imp_left ?_⟩
      rintro ⟨key', asks', -, way⟩
      exact only asks' ▸ way
    · rintro ⟨fits, spans⟩
      exact ⟨fun key' asks' own => absurd (only asks' ▸ own) other,
        fun key' asks' _ => only asks' ▸ fits,
        spans.imp_left fun way => ⟨key, asks, other, way⟩⟩

/-- A call is taken care of exactly if it is acceptable. -/
theorem ends_handleCall (ctx : TraceContext) (hex : env.Hex) (begun : s.Begun fin req.who req.trace)
    (numbered : id.allUtf8 = true) (plain : req.params.allUtf8 = true)
    (named : Json.utf8 req.name = true)
    (hits : ∀ key hit, s.Repeats req key hit → s.HitNamed hit) (clk : Clock) :
    (s.handleCall env { req with trace := ctx } fin clk).Ends fin.rid id ↔
      s.Acceptable env req clk := by
  have unknown : unknownTool.allUtf8 = true :=
    (allUtf8_callToolText_iff "unknown tool" true).mpr (by decide)
  have deny : denyTool.allUtf8 = true :=
    (allUtf8_callToolText_iff "not allowed" true).mpr (by decide)
  -- what is not allowed is answered at once
  have refused : ∀ r : Response, r.body.allUtf8 = true → (∀ key, ¬ req.Asks env key) →
      ((s.finish fin r (clk 0)).Ends fin.rid id ↔ s.Acceptable env req clk) := by
    intro r body none
    rw [ends_finish begun numbered, body, and_iff_left rfl, acceptable_of_refused none]
  unfold handleCall
  cases parsed : ToolKey.parse req.name with
  | none =>
    refine refused _ unknown fun key asks => ?_
    rw [asks.parsed] at parsed
    cases parsed
  | some key =>
    have only : ∀ {key'}, req.Asks env key' → key' = key := fun asks' =>
      Option.some.inj (asks'.parsed.symm.trans parsed)
    dsimp only
    cases decision : RankPolicy.authorizeCall env.catalog req.who key with
    | unknown =>
      refine refused _ unknown fun key' asks => ?_
      have allowed := only asks ▸ asks.allowed
      rw [decision] at allowed
      cases allowed
    | deny =>
      refine refused _ deny fun key' asks => ?_
      have allowed := only asks ▸ asks.allowed
      rw [decision] at allowed
      cases allowed
    | allow =>
      have asks : req.Asks env key := ⟨parsed, decision⟩
      rw [acceptable_of_asks asks]
      dsimp only
      split
      · next own =>
        have builtin : RankPolicy.builtinDecision req.who key = .allow := by
          rw [RankPolicy.authorizeCall, if_pos own] at decision
          exact decision
        have returned := returns_handleBuiltin s { req with trace := ctx } hex plain builtin clk
        have fits : Request.BuiltinFits env { req with trace := ctx } key ↔
            req.BuiltinFits env key :=
          ⟨fun h => ⟨h.elevation, h.status⟩, fun h => ⟨h.elevation, h.status⟩⟩
        -- a built-in answers with what it returns, unless it throws
        obtain ⟨silent, sent, total⟩ := returned.congr fits
        revert silent sent total
        generalize s.handleBuiltin env { req with trace := ctx } key clk = out
        obtain ⟨s', outcome⟩ := out
        intro silent sent total
        cases outcome with
        | error e =>
          refine iff_of_false (not_ends_threw s') fun h => ?_
          obtain ⟨r, returned⟩ := total h.1 h.2.agentId
          cases returned
        | ok r =>
          obtain ⟨body, fit⟩ := sent r rfl
          refine (ends_finish (silent.begun begun) numbered r (clk 1)).trans ?_
          rw [silent.legible, body, and_iff_left rfl, and_iff_right fit]
      · have keyed : Json.utf8 key.str = true := by rwa [ToolKey.parse_spec parsed]
        -- the conditions do not look at the trace
        have ends := ends_handleUpstream { req with trace := ctx } hex begun numbered plain keyed
          (hits key) clk
        refine ends.trans (and_congr ?_ (or_congr_left ?_))
        · exact ⟨fun h => ⟨h.confirm, h.summary⟩, fun h => ⟨h.confirm, h.summary⟩⟩
        · exact ⟨fun h => ⟨h.running, h.new, h.welcomes⟩, fun h => ⟨h.running, h.new, h.welcomes⟩⟩

/-! ## Whole requests -/

/-- `handle` throws nothing, and the request is answered, waits for admission or has a call that
runs for it. -/
structure Completes (env : Env) (s : PipelineState) (req : Request) (clk : Clock) : Prop where
  ends : (s.handle env req clk).Ends s.nextRequest req.idJson
  placed : (∃ r, .answered s.nextRequest r ∈ (s.handle env req clk).log) ∨
    (s.handle env req clk).OnItsWay s.nextRequest

variable {h : List (TransitionSystem.Step PipelineState PipelineInput)} {clk : Clock}

/-- What `handle` does until it returns or lets others run throws nothing, exactly if the call is
acceptable. -/
theorem ends_handle (hex : env.Hex) (regular : s.Regular env) (alive : s.terminated = false)
    (numbered : req.idJson.allUtf8 = true) (plain : req.params.allUtf8 = true)
    (named : Json.utf8 req.name = true) (method : req.method = "tools/call") (clk : Clock) :
    (s.handle env req clk).Ends s.nextRequest req.idJson ↔
      s.Acceptable env req (clk.after 3) := by
  have fresh := places_of_ok regular.ok s.nextRequest
  rw [decide_eq_false (Nat.lt_irrefl _), Bool.toNat_false] at fresh
  -- the number of the request is new, so nothing was logged of it
  have unthrown : .threw s.nextRequest ∉ s.log := throwsOf_eq_zero_iff.mp (by omega)
  have unanswered : ∀ r, .answered s.nextRequest r ∉ s.log := by
    intro r answered
    have counted : 0 < answersTo s.nextRequest s.log :=
      List.countP_pos_iff.mpr ⟨_, answered, decide_eq_true rfl⟩
    omega
  obtain ⟨spans, service, alive'⟩ := received_spans (s := s) hex named clk
  obtain ⟨n, tracer, ctx, fin, received, rid⟩ := received_eq env s req clk
  unfold handle
  rw [received] at spans service alive' ⊢
  dsimp only at spans service alive' ⊢
  have dispatched : ∀ s₁ : PipelineState, s₁.dispatch env { req with trace := ctx } fin
      (clk.after 3) = s₁.handleCall env { req with trace := ctx } fin (clk.after 3) := by
    intro s₁
    simp [dispatch, method]
  generalize opened : ({ s with
    nextRequest := s.nextRequest + 1
    log := .request s.nextRequest req :: s.log
    draws := s.draws + n
    tracer := tracer } : PipelineState) = s₁ at spans ⊢
  have begun : s₁.Begun fin req.who req.trace := by
    rw [← opened]
    refine ⟨alive'.trans alive, ?_, fun r => ?_, spans⟩
    · rw [rid]
      simpa using unthrown
    · rw [rid]
      simpa using unanswered r
  have hits : ∀ key hit, s₁.Repeats req key hit → s₁.HitNamed hit := by
    rw [← opened]
    intro key hit repeated
    obtain ⟨inflightId, taskId, calls, tasks⟩ := hitNamed_of_regular hex regular repeated
    exact ⟨inflightId, taskId, calls, tasks⟩
  have ends := ends_handleCall ctx hex begun numbered plain named hits (clk.after 3)
  rw [dispatched, ← rid]
  refine ends.trans ?_
  -- receiving the request has changed nothing that the conditions look at
  rw [← opened]
  have texts : Tracer.Legible tracer req.who req.trace ↔ s.tracer.Legible req.who req.trace :=
    ⟨fun h => { h with service := service ▸ h.service },
      fun h => { h with service := service.symm ▸ h.service }⟩
  constructor
  · intro fits
    refine ⟨fits.builtin, fun key asks other => ?_, fits.spans.imp ?_ texts.mp⟩
    · have upstream := fits.upstream key asks other
      exact ⟨upstream.confirm, upstream.summary⟩
    · rintro ⟨key, asks, other, way⟩
      exact ⟨key, asks, other, way.running, way.new, way.welcomes⟩
  · intro fits
    refine ⟨fits.builtin, fun key asks other => ?_, fits.spans.imp ?_ texts.mpr⟩
    · have upstream := fits.upstream key asks other
      exact ⟨upstream.confirm, upstream.summary⟩
    · rintro ⟨key, asks, other, way⟩
      exact ⟨key, asks, other, way.running, way.new, way.welcomes⟩

/-- A request whose handling has thrown nothing has a place. -/
theorem placed_of_ends (run : (Pipeline.machine env).Run h s) (idle : s.stack = [])
    (ends : (s.handle env req clk).Ends s.nextRequest req.idJson) :
    (∃ r, .answered s.nextRequest r ∈ (s.handle env req clk).log) ∨
      (s.handle env req clk).OnItsWay s.nextRequest := by
  have step : s.step env (.handle req clk) = some (s.handle env req clk) := by
    refine Option.filter_eq_some_iff.mpr ⟨?_, by simp [ends.survives]⟩
    simp [attempt, PipelineState.idle, idle]
  have regular := regular_of_run run
  have ok := ok_of_run (run.next step)
  have logged := (effect_handle regular.ok.tables regular.entered regular.drawn req clk).2
  have places := places_of_ok ok s.nextRequest
  have known : s.nextRequest < (s.handle env req clk).nextRequest :=
    ok.orderly.numbered.request logged
  rw [decide_eq_true known, throwsOf_eq_zero_iff.mpr ends.returned] at places
  by_cases answered : 0 < answersTo s.nextRequest (s.handle env req clk).log
  · obtain ⟨e, member, answer⟩ := List.countP_pos_iff.mp answered
    cases e with
    | answered rid r => exact .inl ⟨r, of_decide_eq_true answer ▸ member⟩
    | _ => cases answer
  · right
    by_cases waits : 0 < LocalGovernor.waiting (fun w => decide (w.onDone.rid = s.nextRequest))
        (s.handle env req clk).gov
    · obtain ⟨ts, w, member, same⟩ := (LocalGovernor.waiting_pos_iff _).mp waits
      exact .inl ⟨ts, w, member, of_decide_eq_true same⟩
    · have owned : 0 < UnorderedMap.total (fun _ call => call.owes s.nextRequest)
          (s.handle env req clk).calls := by
        simp only [Bool.toNat_true] at places
        omega
      obtain ⟨c, call, stored, owes⟩ := UnorderedMap.total_pos_iff.mp owned
      refine .inr ⟨c, call, stored, ?_⟩
      by_contra other
      simp [Call.owes, other] at owes

/-- A process that takes steps is alive. -/
theorem alive_of_run (run : (Pipeline.machine env).Run h s) : s.terminated = false := by
  cases run with
  | start first =>
    obtain ⟨health, index, grants, rfl⟩ := first
    rfl
  | next before step =>
    obtain ⟨-, survives⟩ := Option.filter_eq_some_iff.mp step
    simpa using survives

end PipelineState

/-- A request that the front end has let through can be serialised, and so can its name. -/
theorem HttpMcp.allUtf8_of_onMessage {srv : HttpMcp} {cfg : YamlConfig} {grants : GrantTable}
    {msg : HttpMessage} {clk : Clock} (passed : srv.onMessage cfg grants msg clk = .ok req) :
    req.idJson.allUtf8 = true ∧ req.params.allUtf8 = true ∧
      (req.method = "tools/call" → Json.utf8 req.name = true) := by
  obtain ⟨body, checked, -⟩ := HttpMcp.onMessage_eq_ok_iff.mp passed
  have plain := srv.parser.utf8 checked.parsed
  have params : (HttpMcp.paramsOf body).allUtf8 = true := Json.allUtf8_getD_field? plain rfl
  have named := checked.named
  obtain ⟨upstreamId, -, built⟩ := checked.carries
  refine ⟨?_, ?_, fun method => ?_⟩
  · rw [built]
    exact HttpMcp.allUtf8_idOf checked.parsed
  · rw [built]
    exact params
  · rw [method] at named
    exact Json.allUtf8_of_field? params named.1

/-- In every run, a tool call that passed the front end is handled without an exception, and is
answered, queued or started, exactly if it is acceptable. What is then left to do ends without an
exception too, as long as the texts of all requests are UTF-8. -/
theorem handle_total_iff {h : List (TransitionSystem.Step PipelineState PipelineInput)}
    (hex : env.Hex) (run : (Pipeline.machine env).Run h s) :
    (∀ (srv : HttpMcp) (cfg : YamlConfig) (grants : GrantTable) (msg : HttpMessage)
        (front clk : Clock) (req : Request), s.stack = [] →
      srv.onMessage cfg grants msg front = .ok req → req.method = "tools/call" →
        (s.Completes env req clk ↔ s.Acceptable env req (clk.after 3))) ∧
      (Json.utf8 env.cfg.otelService = true → (∀ t ∈ h, t.input.Legible) →
        ∀ input s', input.Legible → s.attempt env input = some s' → s'.terminated = false) := by
  constructor
  · intro srv cfg grants msg front clk req idle passed method
    obtain ⟨numbered, plain, named⟩ := HttpMcp.allUtf8_of_onMessage passed
    -- what passes the front end can be printed
    have ends := PipelineState.ends_handle hex (PipelineState.regular_of_run run)
      (PipelineState.alive_of_run run) numbered plain (named method) method clk
    exact ⟨fun completes => ends.mp completes.ends, fun fits =>
      ⟨ends.mpr fits, PipelineState.placed_of_ends run idle (ends.mpr fits)⟩⟩
  · intro service legible input s' texts attempted
    have sound := PipelineState.sound_of_run hex service run legible
    exact (PipelineState.sound_attempt hex (PipelineState.regular_of_run run) sound texts
      attempted).alive

namespace TotalityExample

open PipelineExample

/-- The headers of a call of a tool. -/
def headers (name : String) : UnorderedMap String String :=
  (FrontEndExample.headers.insert "mcp-method" "tools/call").insert "mcp-name" name

/-- The parameters of a call. -/
def params (name : String) (arguments : Json) (fields : List (String × Json)) : Json :=
  .ofMembers [("name", .str name), ("arguments", arguments),
    ("_meta",
      .ofMembers ((kMetaProtocol, .str kProtocolVersion) :: (kMetaCaps, .object) :: fields))]

def body (params : Json) : Json :=
  .ofMembers [("id", .int 1), ("method", .str "tools/call"), ("params", params)]

def message (name : String) (params : Json) : HttpMessage :=
  { headers := headers name, body := String.ofList (body params).write }

/-- A call with a confirm token. -/
def confirmed (confirm : Json) : Json := params "b__t" .object [(kConfirmKey, confirm)]

/-- A request for a higher level. -/
def elevation (arguments : Json) : Json := params "perfacet__request_elevation" arguments []

/-- A token as the gateway gives it out. -/
def token : Json := confirmed (.str "if_f")

theorem allUtf8_token : (body token).allUtf8 = true := by decide

/-- A token that is a number. -/
def number : Json := confirmed (.int 7)

theorem allUtf8_number : (body number).allUtf8 = true := by decide

/-- Arguments that are no object. -/
def list : Json := elevation (.arr [.int 1])

theorem allUtf8_list : (body list).allUtf8 = true := by decide

/-- The request that the call with the token becomes. -/
def request : Request :=
  HttpMcp.requestOf (headers "b__t") "tools/call" "b__t" "1" (body token)
    { agentId := "ann", level := 0, grantBump := 0, hasLevel := true, admin := false,
      levelName := "default" } (clk 1)

theorem passed_request : (FrontEndExample.server (body token) allUtf8_token).onMessage {} ∅
    (message "b__t" token) clk = .ok request := by
  refine HttpMcp.onMessage_eq_ok_iff.mpr ⟨body token, ?_, by decide⟩
  exact {
    parsed := FrontEndExample.parse_message (body token) allUtf8_token
    object := by decide
    carried := {
      origin := by decide
      sessionless := by decide
      running := rfl
      accept := by decide
      version := by decide }
    versioned := {
      bodyVersion := rfl
      caps := by decide
      present := rfl
      methodHeader := by decide
      named := by decide }
    served := by decide
    named := ⟨rfl, by decide, by decide⟩
    client := ⟨by decide, _, rfl, by decide⟩
    tasks := rfl
    carries := ⟨"1", by decide, rfl⟩ }

theorem hex : (gateway {}).Hex := by
  intro n k
  refine Json.utf8_of_ascii fun c member => ?_
  change c ∈ (String.ofList (List.replicate k 'f')).toList at member
  rw [String.toList_ofList] at member
  rw [List.eq_of_mem_replicate member]
  decide

theorem acceptable_request : (start {}).Acceptable (gateway {}) request (clk.after 3) := by
  have asks : request.Asks (gateway {}) ⟨"b", "t"⟩ := ⟨by decide, by decide⟩
  rw [PipelineState.acceptable_of_asks asks, if_neg (by decide)]
  refine ⟨⟨fun v found => ?_, ?_⟩, .inr (by constructor <;> decide)⟩
  · have text : request.metaJson.field? kConfirmKey = some (.str "if_f") := rfl
    exact ⟨_, (Option.some.inj (text.symm.trans found)).symm⟩
  · rintro hit ⟨hash, confirm, -, looked, -⟩
    cases looked

/-- Whether a call passes the front end, and then `handle` throws if nothing has happened
before. -/
def escapes (name : String) (params : Json) (ok : (body params).allUtf8 = true) : Bool :=
  match (FrontEndExample.server (body params) ok).onMessage {} ∅ (message name params) clk with
  | .ok req =>
    decide (req.method = "tools/call") &&
      ((start {}).handle (gateway {}) req clk).log.any fun e => match e with
        | .threw 0 => true
        | _ => false
  | .error _ => false

theorem not_completes {name : String} {params : Json} {ok : (body params).allUtf8 = true}
    (escaped : escapes name params ok = true) :
    ∃ req, (FrontEndExample.server (body params) ok).onMessage {} ∅ (message name params) clk =
        .ok req ∧ req.method = "tools/call" ∧ ¬ (start {}).Completes (gateway {}) req clk := by
  unfold escapes at escaped
  split at escaped
  · next req passed =>
    obtain ⟨method, threw⟩ := (Bool.and_eq_true _ _).mp escaped
    refine ⟨req, passed, of_decide_eq_true method, fun completes => ?_⟩
    obtain ⟨e, member, thrown⟩ := List.any_eq_true.mp threw
    split at thrown
    · exact completes.ends.returned member
    · cases thrown
  · cases escaped

end TotalityExample

open PipelineExample TotalityExample

/-- A call with a token is handled. -/
theorem handle_total_iff_token :
    (FrontEndExample.server (body token) allUtf8_token).onMessage {} ∅ (message "b__t" token) clk =
      .ok request ∧ (start {}).Completes (gateway {}) request clk ∧
    ((start {}).handle (gateway {}) request clk).terminated = false := by
  have run : (Pipeline.machine (gateway {})).Run [] (start {}) := .start (start_init {})
  obtain ⟨handled, lives⟩ := handle_total_iff hex run
  refine ⟨passed_request, ?_, ?_⟩
  · exact (handled _ _ _ _ clk clk request rfl passed_request rfl).mpr acceptable_request
  · have legible : (PipelineInput.handle request clk).Legible :=
      ⟨⟨by decide, by decide, by decide⟩, by decide,
        by decide, by decide⟩
    exact lives (by decide) (by simp) _ _ legible rfl

/-- The confirm token is a number, and the arguments of `request_elevation` are a list: the calls
pass the front end, and `handle` throws. -/
theorem mistyped_call_escapes : (Pipeline.machine (gateway {})).Run [] (start {}) ∧
    (∃ req, (FrontEndExample.server (body number) allUtf8_number).onMessage {} ∅
        (message "b__t" number) clk = .ok req ∧ req.method = "tools/call" ∧
      ¬ (start {}).Completes (gateway {}) req clk) ∧
    ∃ req, (FrontEndExample.server (body list) allUtf8_list).onMessage {} ∅
        (message "perfacet__request_elevation" list) clk = .ok req ∧ req.method = "tools/call" ∧
      ¬ (start {}).Completes (gateway {}) req clk :=
  ⟨.start (start_init {}), not_completes (by decide +kernel), not_completes (by decide +kernel)⟩

end Perfacet
