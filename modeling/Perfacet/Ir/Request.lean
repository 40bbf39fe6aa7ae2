import Perfacet.Ir.Json

/-!
# Requests and responses

The values that cross the layers of the gateway: who asks (`Principal`), for which tool
(`ToolKey`), what goes upstream (`BackendCall`) and what comes back (`Response`, with
the `FailureClass` that retries and status codes depend on).

## Main results

* `ToolKey.parse_spec` — what a name that parses looks like
* `ToolKey.parse_str_iff` — which names are read back as the key they were made from
-/

namespace Perfacet

/-! ## Tool names -/

/-- A tool of a backend. Clients see it as one name, `backend__tool`. -/
structure ToolKey where
  backend : String
  tool : String
  deriving DecidableEq, Repr

namespace ToolKey

/-- The public name. -/
def str (k : ToolKey) : String := k.backend ++ "__" ++ k.tool

/-- Cut at the first double underscore. -/
def cut : List Char → Option (List Char × List Char)
  | '_' :: '_' :: rest => some ([], rest)
  | c :: rest => (cut rest).map fun parts => (c :: parts.1, parts.2)
  | [] => none

/-- A name parses if both sides of its first double underscore are non-empty. -/
def parse (s : String) : Option ToolKey :=
  match cut s.toList with
  | some (backend, tool) =>
    if backend.isEmpty || tool.isEmpty then none
    else some ⟨String.ofList backend, String.ofList tool⟩
  | none => none

theorem cut_spec {s b t : List Char} (h : cut s = some (b, t)) : s = b ++ '_' :: '_' :: t := by
  fun_induction cut s generalizing b with
  | case1 rest => cases h; rfl
  | case2 c rest _ ih =>
    obtain ⟨⟨b', t'⟩, found, same⟩ := Option.map_eq_some_iff.mp h
    cases same
    rw [List.cons_append, ← ih found]
  | case3 => cases h

/-- A name that parses is the public name of its key. -/
theorem parse_spec {s : String} {k : ToolKey} (h : parse s = some k) : k.str = s := by
  unfold parse at h
  split at h
  · next backend tool found =>
    split at h
    · cases h
    · cases h
      apply String.toList_inj.mp
      rw [cut_spec found]
      simp [str]
  · cases h

/-- The cut is at the separator if the part before it has no underscores that could be taken
for it. -/
theorem cut_append {b : List Char} (t : List Char) (plain : ¬ ['_', '_'] <:+: b)
    (last : b.getLast? ≠ some '_') : cut (b ++ '_' :: '_' :: t) = some (b, t) := by
  induction b with
  | nil => rfl
  | cons c b ih =>
    have inner : ¬ ['_', '_'] <:+: b :=
      fun inside => plain (inside.trans (List.suffix_cons c b).isInfix)
    have rest : cut (b ++ '_' :: '_' :: t) = some (b, t) := by
      refine ih inner fun same => last ?_
      cases b with
      | nil => cases same
      | cons d b => rwa [List.getLast?_cons_cons]
    rw [List.cons_append, cut, rest]
    · rfl
    · -- The first two characters are no separator.
      rintro rest' rfl same
      cases b with
      | nil => exact last rfl
      | cons d b =>
        cases same
        exact plain (List.prefix_append ['_', '_'] b).isInfix

theorem parse_str {k : ToolKey} (named : k.backend ≠ "") (tool : k.tool ≠ "")
    (plain : ¬ ['_', '_'] <:+: k.backend.toList) (last : k.backend.toList.getLast? ≠ some '_') :
    parse k.str = some k := by
  have name : k.str.toList = k.backend.toList ++ '_' :: '_' :: k.tool.toList := by simp [str]
  have backend : k.backend.toList.isEmpty = false := by simpa using named
  have toolName : k.tool.toList.isEmpty = false := by simpa using tool
  simp [parse, name, cut_append _ plain last, backend, toolName]

/-- Which names are read back as the key they were made from. -/
theorem parse_str_iff {k : ToolKey} (named : k.backend ≠ "")
    (plain : ¬ ['_', '_'] <:+: k.backend.toList) :
    parse k.str = some k ↔ k.tool ≠ "" ∧ k.backend.toList.getLast? ≠ some '_' := by
  refine ⟨fun parsed => ⟨?_, fun last => ?_⟩, fun h => parse_str named h.1 plain h.2⟩
  · rintro empty
    unfold parse at parsed
    split at parsed
    · split at parsed
      · cases parsed
      · next nonempty =>
        cases parsed
        simp at empty
        simp [empty] at nonempty
    · cases parsed
  · -- The name is cut one character too early.
    obtain ⟨b, same⟩ := List.getLast?_eq_some_iff.mp last
    have early : cut k.str.toList = some (b, '_' :: k.tool.toList) := by
      have name : k.str.toList = b ++ '_' :: '_' :: '_' :: k.tool.toList := by simp [str, same]
      rw [name]
      refine cut_append _ (fun inside => plain ?_) fun again => plain ?_
      · rw [same]
        exact inside.trans (List.prefix_append b _).isInfix
      · obtain ⟨b', rfl⟩ := List.getLast?_eq_some_iff.mp again
        rw [same, List.append_assoc]
        exact (List.suffix_append b' _).isInfix
    unfold parse at parsed
    rw [early] at parsed
    dsimp only at parsed
    split at parsed
    · cases parsed
    · have backend := congrArg (fun k => k.backend.toList) (Option.some.inj parsed)
      simp [same] at backend

/-- Two keys whose names are read back differ in their names. -/
theorem eq_of_str_eq {k k' : ToolKey} (parsed : parse k.str = some k)
    (parsed' : parse k'.str = some k') (same : k.str = k'.str) : k = k' := by
  rw [same] at parsed
  exact Option.some.inj (parsed.symm.trans parsed')

end ToolKey

/-! ## Failure classes -/

/-- How a call ended. Retries look at nothing else. -/
inductive FailureClass
  | ok | cancelled | timeout | unavailable | throttled | protocol | capability | upstream
  | authz | internal
  deriving DecidableEq, Repr

def failureClassName : FailureClass → String
  | .ok => "Ok"
  | .cancelled => "Cancelled"
  | .timeout => "Timeout"
  | .unavailable => "Unavailable"
  | .throttled => "Throttled"
  | .protocol => "Protocol"
  | .capability => "Capability"
  | .upstream => "Upstream"
  | .authz => "Authz"
  | .internal => "Internal"

/-! ## Principals -/

/-- A position in the list of access levels. -/
abbrev Rank := UInt16

/-- An authenticated client. `level` only means something when `hasLevel` is set. -/
structure Principal where
  agentId : String
  level : Rank
  grantBump : Rank
  hasLevel : Bool
  admin : Bool
  levelName : String
  deriving DecidableEq, Repr

def effectiveRank (w : Principal) : Rank := if w.level > w.grantBump then w.level else w.grantBump

/-! ## Requests -/

def kProtocolVersion : String := "2026-07-28"
def kTasksExt : String := "io.modelcontextprotocol/tasks"
def kMetaProtocol : String := "io.modelcontextprotocol/protocolVersion"
def kMetaCaps : String := "io.modelcontextprotocol/clientCapabilities"
def kConfirmKey : String := "perfacet/confirm"
def kMetaTimeoutMs : String := "perfacet/timeout_ms"

/-- What the operator says about a backend. -/
structure BackendMeta where
  level : Rank
  secret : Bool
  idempotentTools : List String
  deriving DecidableEq, Repr

structure TraceContext where
  traceId : String
  spanId : String
  parentSpanId : String
  deriving DecidableEq, Repr

/-- The extensions a client declares for this request. -/
structure ClientCaps where
  tasks : Bool
  deriving DecidableEq, Repr

/-- A request as the front end hands it to the pipeline. -/
structure Request where
  method : String
  name : String
  upstreamId : String
  idJson : Json
  params : Json
  metaJson : Json
  who : Principal
  trace : TraceContext
  deadlineMs : UInt64
  caps : ClientCaps
  deriving Repr

/-- What a backend gets to see; it carries no principal. -/
structure BackendCall where
  method : String
  name : String
  params : Json
  metaJson : Json
  deadlineMs : UInt64
  trace : TraceContext
  deriving Repr

/-- A JSON-RPC result or error on its way to the client. -/
structure Response where
  upstreamId : String
  body : Json
  isError : Bool
  klass : FailureClass
  gatewayMs : UInt64
  upstreamMs : UInt64
  httpStatus : Int
  deriving Repr

/-- A default-constructed response with a body. -/
def Response.ofBody (body : Json) : Response :=
  { upstreamId := "", body := body, isError := false, klass := .ok, gatewayMs := 0,
    upstreamMs := 0, httpStatus := 200 }

/-- The result of a tool call that only says something. -/
def callToolText (text : String) (isError : Bool) : Json :=
  .ofMembers
    [("content", .arr [.ofMembers [("type", .str "text"), ("text", .str text)]]),
      ("isError", .bool isError)]

/-- A JSON-RPC error object; empty data is left out. -/
def jsonRpcError (code : Int) (msg : String) (data : Json) : Json :=
  let err := Json.ofMembers [("code", .int code), ("message", .str msg)]
  if !data.isNull && !data.isEmpty then err.set "data" data else err

/-- `classify` without a transport error: the class of what came back. -/
def classify (r : Response) (gatewayOwn : Bool) : FailureClass :=
  if r.klass ≠ .ok then r.klass
  else if !r.isError then .ok
  else
    match r.body.field? "code" with
    | some (.int n) =>
      -- the code is narrowed to an `int`
      let code := (Int32.ofInt n).toInt
      if code = -32021 then if gatewayOwn then .capability else .upstream
      else if code = -32600 ∨ code = -32601 ∨ code = -32602 ∨ code = -32700 then .protocol
      else .upstream
    | _ => .upstream

/-- An error of class `Ok` gets another class. -/
theorem classify_ne_ok {r : Response} (failed : r.isError = true) (gatewayOwn : Bool) :
    classify r gatewayOwn ≠ .ok := by
  unfold classify
  split
  · assumption
  · rw [failed]
    dsimp only [Bool.not_true]
    rw [if_neg (by simp)]
    split
    · split_ifs <;> simp
    · simp

/-! ## Errors and results -/

namespace Json

/-- A JSON-RPC error object, which has an integer code and a message. -/
structure IsRpcError (body : Json) : Prop where
  code : ∃ code, body.field? "code" = some (.int code)
  message : ∃ text, body.field? "message" = some (.str text)

/-- A `CallToolResult`, which has content. -/
def IsToolResult (body : Json) : Prop := (body.field? "content").isSome

theorem isRpcError_jsonRpcError (code : Int) (message : String) (data : Json) :
    (jsonRpcError code message data).IsRpcError ∧
      ¬ (jsonRpcError code message data).IsToolResult := by
  unfold jsonRpcError IsToolResult
  dsimp only
  split
  · refine ⟨⟨⟨code, ?_⟩, message, ?_⟩, ?_⟩ <;>
      simp [ofMembers, Json.set, field?, lookup_setField]
  · refine ⟨⟨⟨code, ?_⟩, message, ?_⟩, ?_⟩ <;> simp [ofMembers, field?, lookup_setField]

theorem not_isRpcError {body : Json} (none : body.field? "code" = none) : ¬ body.IsRpcError := by
  rintro ⟨⟨code, some⟩, -⟩
  rw [none] at some
  cases some

theorem not_isRpcError_callToolText (text : String) (isError : Bool) :
    ¬ (callToolText text isError).IsRpcError := by
  apply not_isRpcError
  simp [callToolText, ofMembers, field?, lookup_setField]

end Json

end Perfacet
