import Perfacet.Frontend.HttpMcp

/-!
# What goes over the wire to an upstream, and what comes back

The request that `HttpMcpBackend::callBlocking` posts, made of a `BackendCall`, which
`Call::makeBackendCall` makes of the client's request. Between them the two drop, add and
overwrite members of what the client has sent. What the post comes to, which may be no answer
at all, is made a `Response`.

## Main definitions

* `HttpMcpBackend.requestBody` — the request that is posted
* `HttpMcpBackend.Sanitised` — nothing in it is meant for the gateway only
* `HttpMcpBackend.callBlocking` — the response that a post comes to
* `HttpMcpBackend.Outcome` — what the callback of a call may be given

## Main results

* `HttpMcpBackend.sanitised_iff` — when the request of a call is sanitised
* `HttpMcpBackend.Outcome.failure`, `Outcome.klass_eq_ok` — what errors and results look like
-/

namespace Perfacet

namespace HttpMcpBackend

/-- The `_meta` of the request. -/
def requestMeta (bc : BackendCall) : Json :=
  let metaJson := if bc.metaJson.isObject then bc.metaJson else .object
  let metaJson := metaJson.set kMetaProtocol (.str kProtocolVersion)
  if metaJson.contains kMetaCaps then metaJson else metaJson.set kMetaCaps .object

/-- The parameters of the request. -/
def requestParams (bc : BackendCall) : Json :=
  let params := if bc.params.isObject then bc.params else .object
  let params := params.set "_meta" (requestMeta bc)
  if bc.method = "tools/call" ∧ bc.name ≠ "" then params.set "name" (.str bc.name) else params

/-- The body of the request. -/
def requestBody (bc : BackendCall) : Json :=
  .ofMembers
    [("jsonrpc", .str "2.0"), ("id", .int 1), ("method", .str bc.method),
      ("params", requestParams bc)]

/-- A request to an upstream, made for a client's request: it holds no confirm token, declares
no tasks, and its parameters are the client's but for `_meta` and `name`. -/
structure Sanitised (req : Request) (body : Json) : Prop where
  params : ∃ params, body.field? "params" = some params ∧
    ∀ key, key ≠ "_meta" → key ≠ "name" → params.field? key = req.params.field? key
  metaJson : ∃ params metaJson, body.field? "params" = some params ∧
    params.field? "_meta" = some metaJson ∧ metaJson.contains kConfirmKey = false ∧
    HttpMcp.declaresTasks metaJson = false

variable {bc : BackendCall} {call : Call} {j : Json} {key : String}

theorem field?_requestBody : (requestBody bc).field? "params" = some (requestParams bc) := by
  simp [requestBody, Json.ofMembers, Json.field?, Json.lookup_setField]

/-- A value that is no object has no members. -/
theorem field?_orObject (j : Json) (key : String) :
    (if j.isObject then j else .object).field? key = j.field? key := by
  cases j <;> rfl

theorem isObject_orObject (j : Json) : (if j.isObject then j else .object).isObject = true := by
  cases j <;> rfl

theorem field?_requestParams (key : String) : (requestParams bc).field? key =
    if key = "name" ∧ bc.method = "tools/call" ∧ bc.name ≠ "" then some (.str bc.name)
    else if key = "_meta" then some (requestMeta bc) else bc.params.field? key := by
  have object := isObject_orObject bc.params
  have same := field?_orObject bc.params key
  unfold requestParams
  dsimp only
  generalize (if bc.params.isObject then bc.params else .object) = params at object same
  split
  · next named =>
    rw [Json.field?_set _ (Json.isObject_set ..), Json.field?_set _ object, same]
    simp [named]
  · next unnamed =>
    rw [Json.field?_set _ object, same]
    simp [unnamed]

/-- Default capabilities declare nothing. -/
theorem declaresTasks_caps (object : j.isObject = true) :
    HttpMcp.declaresTasks (if j.contains kMetaCaps then j else j.set kMetaCaps .object) =
      HttpMcp.declaresTasks j := by
  split
  · rfl
  · next absent =>
    have none : j.field? kMetaCaps = none := by simpa [Json.contains] using absent
    rw [HttpMcp.declaresTasks, Json.field?_set _ object, if_pos rfl, HttpMcp.declaresTasks, none]
    rfl

theorem field?_caps (object : j.isObject = true) (other : key ≠ kMetaCaps) :
    (if j.contains kMetaCaps then j else j.set kMetaCaps .object).field? key = j.field? key := by
  split
  · rfl
  · rw [Json.field?_set _ object, if_neg other]

theorem declaresTasks_congr {j' : Json} (same : j.field? kMetaCaps = j'.field? kMetaCaps) :
    HttpMcp.declaresTasks j = HttpMcp.declaresTasks j' := by
  rw [HttpMcp.declaresTasks, same, HttpMcp.declaresTasks]

theorem declaresTasks_requestMeta :
    HttpMcp.declaresTasks (requestMeta bc) = HttpMcp.declaresTasks bc.metaJson := by
  unfold requestMeta
  dsimp only
  rw [declaresTasks_caps (Json.isObject_set ..)]
  apply declaresTasks_congr
  rw [Json.field?_set _ (isObject_orObject _), if_neg (by decide), field?_orObject]

theorem field?_requestMeta (notCaps : key ≠ kMetaCaps) (notProtocol : key ≠ kMetaProtocol) :
    (requestMeta bc).field? key = bc.metaJson.field? key := by
  unfold requestMeta
  dsimp only
  rw [field?_caps (Json.isObject_set ..) notCaps, Json.field?_set _ (isObject_orObject _),
    if_neg notProtocol, field?_orObject]

/-! ## The two stages together -/

/-- The first stage drops `_meta` and sets the name. -/
theorem field?_callParams (other : key ≠ "name") (plain : key ≠ "_meta") :
    (PipelineState.makeBackendCall call).params.field? key = call.req.params.field? key := by
  unfold PipelineState.makeBackendCall
  dsimp only
  rw [Json.field?_set _ (by rw [Json.isObject_erase]; exact isObject_orObject _), if_neg other,
    Json.field?_erase, if_neg plain, field?_orObject]

theorem isObject_callMeta :
    (((if call.req.metaJson.isObject then call.req.metaJson else .object).erase kConfirmKey).set
      kMetaProtocol (.str kProtocolVersion)).isObject = true :=
  Json.isObject_set ..

/-- The first stage drops the confirm token. -/
theorem field?_callMeta_confirm :
    (PipelineState.makeBackendCall call).metaJson.field? kConfirmKey = none := by
  unfold PipelineState.makeBackendCall
  dsimp only
  rw [field?_caps isObject_callMeta (by decide),
    Json.field?_set _ (by rw [Json.isObject_erase]; exact isObject_orObject _), if_neg (by decide),
    Json.field?_erase, if_pos rfl]

/-- Neither stage touches capabilities that the client has sent. -/
theorem declaresTasks_callMeta :
    HttpMcp.declaresTasks (PipelineState.makeBackendCall call).metaJson =
      HttpMcp.declaresTasks call.req.metaJson := by
  unfold PipelineState.makeBackendCall
  dsimp only
  rw [declaresTasks_caps isObject_callMeta]
  apply declaresTasks_congr
  rw [Json.field?_set _ (by rw [Json.isObject_erase]; exact isObject_orObject _),
    if_neg (by decide), Json.field?_erase, if_neg (by decide), field?_orObject]

/-- The request of a call is sanitised if and only if the client declares no tasks. -/
theorem sanitised_iff {req : Request} (params : call.req.params = req.params)
    (metas : call.req.metaJson = req.metaJson) :
    Sanitised req (requestBody (PipelineState.makeBackendCall call)) ↔
      HttpMcp.declaresTasks req.metaJson = false := by
  have metaJson : (requestParams (PipelineState.makeBackendCall call)).field? "_meta" =
      some (requestMeta (PipelineState.makeBackendCall call)) := by
    rw [field?_requestParams, if_neg fun h => absurd h.1 (by decide), if_pos rfl]
  constructor
  · rintro ⟨-, params, metaJson', found, metaFound, -, none⟩
    obtain rfl := Option.some.inj (field?_requestBody.symm.trans found)
    -- the capabilities are what the client sent, through both stages
    obtain rfl := Option.some.inj (metaJson.symm.trans metaFound)
    rw [declaresTasks_requestMeta, declaresTasks_callMeta, metas] at none
    exact none
  · intro none
    refine ⟨⟨_, field?_requestBody, fun key plain other => ?_⟩,
      ⟨_, _, field?_requestBody, metaJson, ?_, ?_⟩⟩
    · rw [field?_requestParams, if_neg fun h => other h.1, if_neg plain,
        field?_callParams other plain, params]
    · rw [Json.contains, field?_requestMeta (by decide) (by decide), field?_callMeta_confirm]
      rfl
    · rw [declaresTasks_requestMeta, declaresTasks_callMeta, metas, none]

end HttpMcpBackend

/-! ## What comes back -/

/-- What a post comes to. -/
structure KeepAlivePost where
  transportOk : Bool := false
  timeout : Bool := false
  status : ℤ := 0
  body : String := ""

namespace HttpMcpBackend

/-- A failure that the gateway words itself. -/
def failure (klass : FailureClass) (code : ℤ) (msg : String) (upstreamMs : UInt64) : Response :=
  { Response.ofError klass 200 (jsonRpcError code msg .object) with
    upstreamId := "1", upstreamMs := upstreamMs }

/-- `HttpMcpBackend::callBlocking`, whose post comes to `res`. -/
def callBlocking (parser : JsonParser) (bc : BackendCall) (clk : Clock) (res : KeepAlivePost) :
    Response :=
  if 0 < bc.deadlineMs ∧ bc.deadlineMs ≤ clk 1 then
    failure .timeout (-32000) "upstream deadline" 0
  else
    -- the second reading is the remaining time, which becomes the timeout of the post
    let upstreamMs := clk 3 - clk 0
    if !res.transportOk then
      failure (if res.timeout then .timeout else .unavailable) (-32000) "upstream unreachable"
        upstreamMs
    else if 500 ≤ res.status then failure .unavailable (-32000) "upstream 5xx" upstreamMs
    else
      match parser.parse res.body with
      | none => failure .protocol (-32700) "upstream not json-rpc" upstreamMs
      | some parsed =>
        if !parsed.isObject then failure .protocol (-32700) "upstream not json-rpc" upstreamMs
        else
          match parsed.field? "error" with
          | some err =>
            let out := { Response.ofError .ok 200 err with
              upstreamId := "1", upstreamMs := upstreamMs }
            { out with klass := classify out false }
          | none =>
            { Response.ofBody ((parsed.field? "result").getD parsed) with
              upstreamId := "1", upstreamMs := upstreamMs }

/-- `failQueue`: the outcome of a call for which no worker is free. -/
def workerQueueFull : Response :=
  .ofError .unavailable 200 (jsonRpcError (-32000) "worker queue full" .object)

/-- If an upstream answers with an error, it is a JSON-RPC error object and nothing else. -/
def WellFormed (parser : JsonParser) (res : KeepAlivePost) : Prop :=
  ∀ parsed err, parser.parse res.body = some parsed → parsed.field? "error" = some err →
    err.IsRpcError ∧ ¬ err.IsToolResult

/-- What the callback of `HttpMcpBackend::call` may be given. -/
inductive Outcome (parser : JsonParser) : Response → Prop
  | queueFull : Outcome parser workerQueueFull
  | called (bc : BackendCall) (clk : Clock) (res : KeepAlivePost) : WellFormed parser res →
      Outcome parser (callBlocking parser bc clk res)

namespace Outcome

variable {parser : JsonParser} {r : Response}

/-- An outcome is a failure with a JSON-RPC error, or a result of class `Ok`. -/
theorem cases_isError (h : Outcome parser r) :
    (r.isError = true ∧ r.klass ≠ .ok ∧ r.body.IsRpcError ∧ ¬ r.body.IsToolResult) ∨
      (r.isError = false ∧ r.klass = .ok) := by
  have worded : ∀ klass code msg ms, klass ≠ .ok →
      (failure klass code msg ms).isError = true ∧ (failure klass code msg ms).klass ≠ .ok ∧
        (failure klass code msg ms).body.IsRpcError ∧
        ¬ (failure klass code msg ms).body.IsToolResult :=
    fun _ code msg _ other => ⟨rfl, other, Json.isRpcError_jsonRpcError code msg .object⟩
  cases h with
  | queueFull =>
    exact .inl ⟨rfl, by decide, Json.isRpcError_jsonRpcError (-32000) "worker queue full" .object⟩
  | called bc clk res wellFormed =>
    unfold callBlocking
    dsimp only
    split
    · exact .inl (worded _ _ _ _ (by decide))
    split
    · refine .inl (worded _ _ _ _ ?_)
      split <;> decide
    split
    · exact .inl (worded _ _ _ _ (by decide))
    split
    · exact .inl (worded _ _ _ _ (by decide))
    next parsed found =>
    split
    · exact .inl (worded _ _ _ _ (by decide))
    split
    · next err member =>
      refine .inl ⟨rfl, ?_, wellFormed parsed err found member⟩
      dsimp only
      exact classify_ne_ok rfl false
    · exact .inr ⟨rfl, rfl⟩

theorem failure (h : Outcome parser r) (failed : r.isError = true) :
    r.klass ≠ .ok ∧ r.body.IsRpcError ∧ ¬ r.body.IsToolResult := by
  rcases h.cases_isError with ⟨-, spec⟩ | ⟨result, -⟩
  · exact spec
  · rw [failed] at result
    cases result

theorem klass_eq_ok (h : Outcome parser r) (result : r.isError = false) : r.klass = .ok := by
  rcases h.cases_isError with ⟨failed, -⟩ | ⟨-, ok⟩
  · rw [failed] at result
    cases result
  · exact ok

end Outcome

end HttpMcpBackend

end Perfacet
