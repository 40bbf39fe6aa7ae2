import Perfacet.Frontend.HttpMcp
import Perfacet.Lib.Except

/-!
# What the front end lets through

Every group of checks has a lemma that says which messages pass it, and one that says how the
others end. Together they are the gate: exactly the messages that meet it become requests.

## Main definitions

* `HttpMcp.Checked`, `HttpMcp.Gate` — what a message that becomes a request looks like
* `HttpMcp.Typed` — the members that `onMessage` reads as strings are strings
* `HttpMcp.serve` — `onMessage` together with the pipeline

## Main results

* `HttpMcp.onMessage_eq_ok_iff` — exactly the messages that meet the checks become requests
* `front_end_gate_iff` — when every request meets the gate
* `front_end_total_iff` — when nothing is thrown
-/

namespace Perfacet

/-! ## Endings -/

/-- An error response. -/
def Exit.IsError : Exit → Prop
  | .reply status _ => 400 ≤ status
  | .threw _ => False

/-- An exception leaves `onMessage`. -/
def Exit.IsThrow (exit : Exit) : Prop := ∃ e, exit = .threw e

theorem allUtf8_jsonRpcError {code : ℤ} {text : String} {data : Json}
    (plain : Json.utf8 text = true)
    (ok : data.allUtf8 = true) : (jsonRpcError code text data).allUtf8 = true := by
  have err : (Json.ofMembers [("code", .int code), ("message", .str text)]).allUtf8 = true := by
    apply Json.allUtf8_ofMembers
    have keys : Json.utf8 "code" = true ∧ Json.utf8 "message" = true := by decide
    simp [Json.allUtf8, plain, keys]
  unfold jsonRpcError
  split
  · exact Json.allUtf8_set err (by decide) ok
  · exact err

/-- An error can always be sent: what it says of the request is UTF-8. -/
theorem Exit.isError_error {status : ℤ} {id err : Json} (high : 400 ≤ status)
    (id8 : id.allUtf8 = true) (err8 : err.allUtf8 = true) : (Exit.error status id err).IsError := by
  have ok : (Json.ofMembers
      [("jsonrpc", .str "2.0"), ("id", id), ("error", err)]).allUtf8 = true := by
    apply Json.allUtf8_ofMembers
    have keys : Json.utf8 "jsonrpc" = true ∧ Json.utf8 "2.0" = true ∧ Json.utf8 "id" = true ∧
      Json.utf8 "error" = true := by decide
    simp [Json.allUtf8, id8, err8, keys]
  simp only [Exit.error, Json.dump, ok, if_true]
  exact high

theorem isError_rpcErr {status code : ℤ} {text : String} {id data : Json} (high : 400 ≤ status)
    (id8 : id.allUtf8 = true) (plain : Json.utf8 text = true) (data8 : data.allUtf8 = true) :
    (Exit.error status id (jsonRpcError code text data)).IsError :=
  Exit.isError_error high id8 (allUtf8_jsonRpcError plain data8)

namespace HttpMcp

variable {srv : HttpMcp} {cfg : YamlConfig} {grants : GrantTable} {msg : HttpMessage}
  {clk : Clock} {headers : UnorderedMap String String} {body j id err : Json}
  {key method name text : String} {req : Request} {exit : Exit}

/-! ## Members that are read as strings -/

/-- The member is a string, or is not there. -/
def StringOrAbsent (j : Json) (key : String) : Prop :=
  ∀ v, j.field? key = some v → ∃ text, v = .str text

theorem valueOf_of_field? (object : j.isObject = true) : valueOf j key =
    match j.field? key with
    | some v =>
      match v.getString with
      | .ok s => .ok s
      | .error e => .error (.threw e)
    | none => .ok "" := by
  cases j with
  | obj members =>
    rw [valueOf, Json.valueString, Json.field?]
    cases members.lookup key <;> rfl
  | _ => cases object

theorem valueOf_eq_ok (object : j.isObject = true) :
    valueOf j key = .ok text ↔
      j.field? key = some (.str text) ∨ j.field? key = none ∧ text = "" := by
  rw [valueOf_of_field? object]
  cases j.field? key with
  | none => simp [eq_comm]
  | some v => cases v <;> simp [Json.getString]

/-- A member that has a text other than the default. -/
theorem field?_of_valueOf (object : j.isObject = true) (nonempty : text ≠ "") :
    valueOf j key = .ok text ↔ j.field? key = some (.str text) := by
  simp [valueOf_eq_ok object, nonempty]

theorem valueOf_threw (failed : valueOf j key = .error exit) : exit.IsThrow := by
  unfold valueOf at failed
  split at failed
  · cases failed
  · cases failed
    exact ⟨_, rfl⟩

/-- Exactly a member of another type makes `value` throw. -/
theorem stringOrAbsent_iff (object : j.isObject = true) :
    StringOrAbsent j key ↔ ∃ text, valueOf j key = .ok text := by
  simp only [valueOf_eq_ok object, StringOrAbsent]
  constructor
  · intro typed
    cases found : j.field? key with
    | none => exact ⟨"", .inr ⟨rfl, rfl⟩⟩
    | some v =>
      obtain ⟨text, rfl⟩ := typed v found
      exact ⟨text, .inl rfl⟩
  · rintro ⟨text, present | ⟨absent, -⟩⟩ v found
    · rw [present] at found
      cases found
      exact ⟨text, rfl⟩
    · rw [absent] at found
      cases found

/-! ## The groups of checks -/

/-- What the headers alone have to be like. -/
structure Carried (cfg : YamlConfig) (stopping : Bool) (headers : UnorderedMap String String) :
    Prop where
  origin : originOk cfg (header headers "origin") = true
  sessionless : hasForbiddenSessionHeader headers = false
  running : stopping = false
  accept : acceptIncludesJson (header headers "accept") = true
  version : header headers "mcp-protocol-version" = kProtocolVersion

theorem transport_eq_ok {stopping : Bool} :
    transport cfg stopping headers = .ok () ↔ Carried cfg stopping headers := by
  constructor
  · intro passed
    unfold transport at passed
    split_ifs at passed with origin session stopped accept version
    exact ⟨by simpa using origin, by simpa using session, by simpa using stopped,
      by simpa using accept, by simpa using version⟩
  · intro h
    simp [transport, h.origin, h.sessionless, h.running, h.accept, h.version]

theorem transport_eq_error {stopping : Bool}
    (failed : transport cfg stopping headers = .error exit) :
    exit.IsError := by
  unfold transport at failed
  split_ifs at failed
  all_goals
    rw [← Except.error.inj failed]
    apply isError_rpcErr <;> decide +kernel

theorem parseBody_eq_ok : parseBody srv.parser text = .ok body ↔
    srv.parser.parse text = some body ∧ body.isObject = true ∧ isNotification body = false := by
  unfold parseBody
  cases srv.parser.parse text with
  | none => simp
  | some j =>
    dsimp only
    split_ifs with scalar notification
    · simp only [false_iff, not_and, Option.some.injEq]
      rintro rfl object
      simp [object] at scalar
    · simp only [false_iff, not_and, Option.some.injEq]
      rintro rfl - quiet
      simp [quiet] at notification
    · constructor
      · intro same
        cases same
        exact ⟨rfl, by simpa using scalar, by simpa using notification⟩
      · rintro ⟨same, -⟩
        cases same
        rfl

theorem parseBody_eq_error (failed : parseBody srv.parser text = .error exit) : exit.IsError := by
  unfold parseBody at failed
  split at failed
  · rw [← Except.error.inj failed]
    apply isError_rpcErr <;> decide +kernel
  · split_ifs at failed
    all_goals
      rw [← Except.error.inj failed]
      apply isError_rpcErr <;> decide +kernel

/-- What the versions and the method have to be like. -/
structure Versioned (headers : UnorderedMap String String) (body : Json) (method : String) :
    Prop where
  bodyVersion : (metaOf body).field? kMetaProtocol = some (.str kProtocolVersion)
  caps : (metaOf body).contains kMetaCaps = true
  present : body.field? "method" = some (.str method)
  methodHeader : header headers "mcp-method" = method
  named : method ≠ ""

theorem isError_missingMeta (id8 : id.allUtf8 = true) : (missingMeta id).IsError :=
  isError_rpcErr (by decide) id8 (by decide) rfl

theorem isError_headerMismatch (id8 : id.allUtf8 = true) : (headerMismatch id).IsError :=
  isError_rpcErr (by decide) id8 (by decide) rfl

theorem bodyVersion_eq_ok : bodyVersion body = .ok kProtocolVersion ↔
    (metaOf body).field? kMetaProtocol = some (.str kProtocolVersion) := by
  unfold bodyVersion
  split
  · next object => exact field?_of_valueOf object (by decide)
  · next scalar =>
    have absent : (metaOf body).field? kMetaProtocol = none := by
      cases m : metaOf body with
      | obj members => simp [m, Json.isObject] at scalar
      | _ => rfl
    simp [absent, kProtocolVersion]

theorem exists_bodyVersion :
    (∃ version, bodyVersion body = .ok version) ↔ StringOrAbsent (metaOf body) kMetaProtocol := by
  unfold bodyVersion
  split
  · next object => exact (stringOrAbsent_iff object).symm
  · next scalar =>
    simp only [Except.ok.injEq, exists_eq', true_iff]
    intro v found
    cases m : metaOf body with
    | obj members => simp [m, Json.isObject] at scalar
    | _ => simp [m, Json.field?] at found

theorem bodyVersion_threw (failed : bodyVersion body = .error exit) : exit.IsThrow := by
  unfold bodyVersion at failed
  split at failed
  · exact valueOf_threw failed
  · cases failed

theorem protocol_eq_ok (object : body.isObject = true)
    (version : header headers "mcp-protocol-version" = kProtocolVersion) :
    protocol headers body = .ok method ↔ Versioned headers body method := by
  unfold protocol
  constructor
  · intro passed
    obtain ⟨method', read, passed⟩ := Except.bind_eq_ok.mp passed
    obtain ⟨version', declared, passed⟩ := Except.bind_eq_ok.mp passed
    split_ifs at passed with other both caps differs mismatch
    cases passed
    obtain rfl : version' = kProtocolVersion := not_not.mp other
    simp only [Bool.or_eq_true, decide_eq_true_eq, not_or, not_not] at mismatch
    obtain ⟨present, same⟩ := mismatch
    rw [same] at present
    have named : method ≠ "" := fun empty => present (by rw [empty]; rfl)
    exact ⟨bodyVersion_eq_ok.mp declared, by simpa using caps,
      (field?_of_valueOf object named).mp read, same, named⟩
  · intro h
    have read := (field?_of_valueOf object h.named).mpr h.present
    have declared := bodyVersion_eq_ok.mpr h.bodyVersion
    have present : method.isEmpty = false := by simpa using h.named
    simp [read, declared, bind, Except.bind, h.caps, version, h.methodHeader, present]

/-- A message that fails here is answered, unless the method or the version has a wrong
type. -/
theorem protocol_eq_error (object : body.isObject = true) (id8 : (idOf body).allUtf8 = true)
    (failed : protocol headers body = .error exit) : exit.IsError ∨ exit.IsThrow ∧
      ¬ (StringOrAbsent body "method" ∧ StringOrAbsent (metaOf body) kMetaProtocol) := by
  unfold protocol at failed
  -- first the method is read, and then the version
  rcases Except.bind_eq_error.mp failed with threw | ⟨method, -, failed⟩
  · refine .inr ⟨valueOf_threw threw, fun typed => ?_⟩
    obtain ⟨text, read⟩ := (stringOrAbsent_iff object).mp typed.1
    rw [threw] at read
    cases read
  rcases Except.bind_eq_error.mp failed with threw | ⟨version, -, failed⟩
  · refine .inr ⟨bodyVersion_threw threw, fun typed => ?_⟩
    obtain ⟨text, read⟩ := exists_bodyVersion.mpr typed.2
    rw [threw] at read
    cases read
  left
  split_ifs at failed
  · exact Except.error.inj failed ▸ isError_missingMeta id8
  · exact Except.error.inj failed ▸ isError_headerMismatch id8
  · exact Except.error.inj failed ▸ isError_missingMeta id8
  · exact Except.error.inj failed ▸ isError_headerMismatch id8
  · exact Except.error.inj failed ▸ isError_headerMismatch id8

/-- A method or a version of a wrong type makes `onMessage` throw. -/
theorem protocol_threw (object : body.isObject = true)
    (mistyped : ¬ (StringOrAbsent body "method" ∧ StringOrAbsent (metaOf body) kMetaProtocol)) :
    ∃ exit, protocol headers body = .error exit ∧ exit.IsThrow := by
  unfold protocol
  cases read : valueOf body "method" with
  | error exit => exact ⟨exit, rfl, valueOf_threw read⟩
  | ok method =>
    cases declared : bodyVersion body with
    | error exit => exact ⟨exit, rfl, bodyVersion_threw declared⟩
    | ok version =>
      exact absurd ⟨(stringOrAbsent_iff object).mpr ⟨_, read⟩, exists_bodyVersion.mp ⟨_, declared⟩⟩
        mistyped

/-- What the name has to be like: in its parameter and in the header, if the method has one. -/
def Named (headers : UnorderedMap String String) (body : Json) (method name : String) : Prop :=
  match nameKey method with
  | some key => (paramsOf body).field? key = some (.str name) ∧ header headers "mcp-name" = name ∧
      name ≠ ""
  | none => name = ""

/-- Of the methods that are served, exactly those with a parameter for the name need one. -/
theorem needName_of_mem (served : method ∈ kKnown) :
    needName method = (nameKey method).isSome := by
  simp only [kKnown, List.mem_cons, List.not_mem_nil, or_false] at served
  rcases served with rfl | rfl | rfl | rfl | rfl <;> decide

theorem bodyName_eq_ok (object : (paramsOf body).isObject = true)
    (keyed : nameKey method = some key) (nonempty : name ≠ "") :
    bodyName method body = .ok name ↔ (paramsOf body).field? key = some (.str name) := by
  simp only [bodyName, keyed, object, if_true]
  exact field?_of_valueOf object nonempty

theorem nameOf_eq_ok (object : (paramsOf body).isObject = true) :
    nameOf headers method body = .ok name ↔ method ∈ kKnown ∧ Named headers body method name := by
  unfold nameOf Named
  constructor
  · intro passed
    obtain ⟨name', read, passed⟩ := Except.bind_eq_ok.mp passed
    split_ifs at passed with mismatch unknown
    obtain rfl := Except.ok.inj passed
    have served : method ∈ kKnown := unknown
    refine ⟨served, ?_⟩
    rw [needName_of_mem served] at mismatch
    cases keyed : nameKey method with
    | none =>
      simp only [bodyName, keyed, Except.ok.injEq] at read
      exact read.symm
    | some key =>
      simp only [keyed, Option.isSome_some, Bool.true_and, Bool.or_eq_true, decide_eq_true_eq,
        not_or, not_not] at mismatch
      obtain ⟨present, same⟩ := mismatch
      rw [same] at present
      have nonempty : name' ≠ "" := fun empty => present (by rw [empty]; rfl)
      exact ⟨(bodyName_eq_ok object keyed nonempty).mp read, same, nonempty⟩
  · rintro ⟨served, named⟩
    apply Except.bind_eq_ok.mpr
    refine ⟨name, ?_, ?_⟩
    · cases keyed : nameKey method with
      | none =>
        rw [keyed] at named
        rw [bodyName, keyed, named]
      | some key =>
        rw [keyed] at named
        exact (bodyName_eq_ok object keyed named.2.2).mpr named.1
    · rw [needName_of_mem served]
      cases keyed : nameKey method with
      | none => simp [served]
      | some key =>
        rw [keyed] at named
        obtain ⟨-, same, nonempty⟩ := named
        have present : name.isEmpty = false := by simpa using nonempty
        simp [served, same, present]

/-- The name is read if the method has one. -/
theorem exists_bodyName (object : (paramsOf body).isObject = true) :
    (∃ name, bodyName method body = .ok name) ↔
      ∀ key, nameKey method = some key → StringOrAbsent (paramsOf body) key := by
  unfold bodyName
  cases keyed : nameKey method with
  | none => simp
  | some key => simp [object, ← stringOrAbsent_iff object]

theorem bodyName_threw (failed : bodyName method body = .error exit) : exit.IsThrow := by
  unfold bodyName at failed
  split at failed
  · split at failed
    · exact valueOf_threw failed
    · cases failed
  · cases failed

theorem nameOf_eq_error (object : (paramsOf body).isObject = true)
    (id8 : (idOf body).allUtf8 = true) (failed : nameOf headers method body = .error exit) :
    exit.IsError ∨
      exit.IsThrow ∧ ¬ ∀ key, nameKey method = some key → StringOrAbsent (paramsOf body) key := by
  unfold nameOf at failed
  rcases Except.bind_eq_error.mp failed with threw | ⟨name, -, failed⟩
  · refine .inr ⟨bodyName_threw threw, fun typed => ?_⟩
    obtain ⟨text, read⟩ := (exists_bodyName object).mpr typed
    rw [threw] at read
    cases read
  left
  split_ifs at failed
  · exact Except.error.inj failed ▸ isError_headerMismatch id8
  · exact Except.error.inj failed ▸ isError_rpcErr (by decide) id8 (by decide) rfl

/-- A name of a wrong type makes `onMessage` throw. -/
theorem nameOf_threw (object : (paramsOf body).isObject = true)
    (mistyped : ¬ ∀ key, nameKey method = some key → StringOrAbsent (paramsOf body) key) :
    ∃ exit, nameOf headers method body = .error exit ∧ exit.IsThrow := by
  unfold nameOf
  cases read : bodyName method body with
  | error exit => exact ⟨exit, rfl, bodyName_threw read⟩
  | ok name => exact absurd ((exists_bodyName object).mp ⟨name, read⟩) mistyped

/-- The client is the one that the token belongs to, with the rank of its grants. -/
def IsClient (srv : HttpMcp) (grants : GrantTable) (headers : UnorderedMap String String)
    (now : UInt64) (who : Principal) : Prop :=
  bearerOf headers ≠ "" ∧ ∃ agent, srv.identity.authenticate (bearerOf headers) = some agent ∧
    who = { agent with grantBump := grants.effectiveBump agent.agentId now }

theorem client_eq_ok {now : UInt64} {who : Principal} :
    client srv.identity grants headers id now = .ok who ↔ IsClient srv grants headers now who := by
  unfold client IsClient
  cases bearer : (bearerOf headers).isEmpty with
  | true =>
    have empty : bearerOf headers = "" := by simpa using bearer
    simp [empty]
  | false =>
    have nonempty : bearerOf headers ≠ "" := by simpa using bearer
    cases srv.identity.authenticate (bearerOf headers) with
    | none => simp
    | some agent => simp [nonempty, eq_comm]

theorem client_eq_error {now : UInt64} (id8 : id.allUtf8 = true)
    (failed : client srv.identity grants headers id now = .error exit) : exit.IsError := by
  have unauthorized : (Exit.error 401 id (jsonRpcError (-32000) "unauthorized" .null)).IsError :=
    isError_rpcErr (by decide) id8 (by decide) rfl
  unfold client at failed
  dsimp only at failed
  split at failed
  · exact Except.error.inj failed ▸ unauthorized
  · split at failed
    · exact Except.error.inj failed ▸ unauthorized
    · cases failed

/-! ## The gate -/

/-- What a message has to be like to become the request `req`, but for its id. -/
structure Checked (srv : HttpMcp) (cfg : YamlConfig) (grants : GrantTable) (msg : HttpMessage)
    (clk : Clock) (body : Json) (req : Request) : Prop where
  parsed : srv.parser.parse msg.body = some body
  object : body.isObject = true
  carried : Carried cfg srv.stopping msg.headers
  versioned : Versioned msg.headers body req.method
  served : req.method ∈ kKnown
  named : Named msg.headers body req.method req.name
  client : IsClient srv grants msg.headers (clk 0) req.who
  tasks : req.caps.tasks = declaresTasks (metaOf body)
  carries : ∃ upstreamId, (idOf body).dump = .ok upstreamId ∧
    req = requestOf msg.headers req.method req.name upstreamId body req.who (clk 1)

/-- What a message has to be like to become the request `req`. -/
structure Gate (srv : HttpMcp) (cfg : YamlConfig) (grants : GrantTable) (msg : HttpMessage)
    (clk : Clock) (body : Json) (req : Request) : Prop
    extends Checked srv cfg grants msg clk body req where
  id : body.contains "id" = true

/-- Parameters with a `_meta` that has members are an object. -/
theorem Versioned.isObject (h : Versioned headers body method) :
    (paramsOf body).isObject = true := by
  have caps := h.caps
  unfold metaOf at caps
  cases params : paramsOf body with
  | obj members => rfl
  | _ => simp [params, Json.field?, Json.contains, Json.object] at caps

/-- So a message that is checked has parameters. -/
theorem Versioned.contains (h : Versioned headers body method) : body.contains "params" = true := by
  have caps := h.caps
  unfold metaOf paramsOf at caps
  cases params : body.field? "params" with
  | some v => simp [Json.contains, params]
  | none =>
    rw [params, Option.getD_none] at caps
    exact absurd caps (by decide)

/-- A message that is checked is refused as a notification only if it has a result. -/
theorem Checked.isNotification (h : srv.Checked cfg grants msg clk body req) :
    isNotification body = false ↔ body.contains "id" = true ∨ body.contains "result" = false := by
  have method : body.contains "method" = true := by
    rw [Json.contains, h.versioned.present]
    rfl
  rw [HttpMcp.isNotification, method, h.versioned.contains]
  cases body.contains "id" <;> simp

theorem allUtf8_idOf (parsed : srv.parser.parse text = some body) :
    (idOf body).allUtf8 = true :=
  Json.allUtf8_getD_field? (srv.parser.utf8 parsed) rfl

/-- Exactly the messages that meet the checks and are not refused as notifications become
requests. -/
theorem onMessage_eq_ok_iff : srv.onMessage cfg grants msg clk = .ok req ↔
    ∃ body, srv.Checked cfg grants msg clk body req ∧ isNotification body = false := by
  unfold onMessage
  simp only [Except.bind_eq_ok, parseBody_eq_ok]
  constructor
  · rintro ⟨⟨⟩, carried, body, ⟨parsed, object, quiet⟩, method, versioned, name, named, who,
      isClient, built⟩
    have carried := transport_eq_ok.mp carried
    rw [protocol_eq_ok object carried.version] at versioned
    rw [nameOf_eq_ok versioned.isObject] at named
    rw [client_eq_ok] at isClient
    split at built
    · next upstreamId dumped =>
      obtain rfl := Except.ok.inj built
      exact ⟨body, ⟨parsed, object, carried, versioned, named.1, named.2, isClient, rfl,
        upstreamId, dumped, rfl⟩, quiet⟩
    · cases built
  · rintro ⟨body, h, quiet⟩
    obtain ⟨upstreamId, dumped, built⟩ := h.carries
    refine ⟨(), transport_eq_ok.mpr h.carried, body, ⟨h.parsed, h.object, quiet⟩, req.method,
      (protocol_eq_ok h.object h.carried.version).mpr h.versioned, req.name,
      (nameOf_eq_ok h.versioned.isObject).mpr ⟨h.served, h.named⟩, req.who,
      client_eq_ok.mpr h.client, ?_⟩
    rw [dumped]
    exact congrArg _ built.symm

/-- The members that are read as strings are strings, as far as the checks get to them. -/
structure Typed (headers : UnorderedMap String String) (body : Json) : Prop where
  method : StringOrAbsent body "method"
  bodyVersion : StringOrAbsent (metaOf body) kMetaProtocol
  name : ∀ {method}, Versioned headers body method → ∀ key, nameKey method = some key →
    StringOrAbsent (paramsOf body) key

/-- A message that does not become a request is answered with an error, or has a member of a
wrong type and makes `onMessage` throw. -/
theorem onMessage_eq_error (failed : srv.onMessage cfg grants msg clk = .error exit) :
    exit.IsError ∨ exit.IsThrow ∧ ∃ body, srv.parser.parse msg.body = some body ∧
      body.isObject = true ∧ Carried cfg srv.stopping msg.headers ∧ isNotification body = false ∧
      ¬ Typed msg.headers body := by
  unfold onMessage at failed
  rcases Except.bind_eq_error.mp failed with failed | ⟨⟨⟩, carried, failed⟩
  · exact .inl (transport_eq_error failed)
  have carried := transport_eq_ok.mp carried
  rcases Except.bind_eq_error.mp failed with failed | ⟨body, checked, failed⟩
  · exact .inl (parseBody_eq_error failed)
  obtain ⟨parsed, object, quiet⟩ := parseBody_eq_ok.mp checked
  have id8 := allUtf8_idOf parsed
  rcases Except.bind_eq_error.mp failed with failed | ⟨method, versioned, failed⟩
  · refine (protocol_eq_error object id8 failed).imp_right fun ⟨threw, mistyped⟩ => ?_
    exact ⟨threw, body, parsed, object, carried, quiet,
      fun typed => mistyped ⟨typed.method, typed.bodyVersion⟩⟩
  rw [protocol_eq_ok object carried.version] at versioned
  rcases Except.bind_eq_error.mp failed with failed | ⟨name, -, failed⟩
  · refine (nameOf_eq_error versioned.isObject id8 failed).imp_right fun ⟨threw, mistyped⟩ => ?_
    exact ⟨threw, body, parsed, object, carried, quiet,
      fun typed => mistyped (typed.name versioned)⟩
  rcases Except.bind_eq_error.mp failed with failed | ⟨who, -, failed⟩
  · exact .inl (client_eq_error id8 failed)
  -- The id was parsed, so it can be printed.
  rw [Json.dump, if_pos id8] at failed
  cases failed

/-- A member of a wrong type makes `onMessage` throw. -/
theorem onMessage_threw (parsed : srv.parser.parse msg.body = some body)
    (object : body.isObject = true) (carried : Carried cfg srv.stopping msg.headers)
    (quiet : isNotification body = false) (mistyped : ¬ Typed msg.headers body) :
    ∃ exit, srv.onMessage cfg grants msg clk = .error exit ∧ exit.IsThrow := by
  have front : srv.onMessage cfg grants msg clk = (do
      let method ← protocol msg.headers body
      let name ← nameOf msg.headers method body
      let who ← client srv.identity grants msg.headers (idOf body) (clk 0)
      match (idOf body).dump with
      | .ok upstreamId => .ok (requestOf msg.headers method name upstreamId body who (clk 1))
      | .error e => .error (.threw e)) := by
    rw [onMessage, transport_eq_ok.mpr carried, parseBody_eq_ok.mpr ⟨parsed, object, quiet⟩]
    rfl
  rw [front]
  by_cases early : StringOrAbsent body "method" ∧ StringOrAbsent (metaOf body) kMetaProtocol
  · by_cases versioned : ∃ method, Versioned msg.headers body method
    · obtain ⟨method, versioned⟩ := versioned
      have late : ¬ ∀ key, nameKey method = some key → StringOrAbsent (paramsOf body) key := by
        refine fun typed => mistyped ⟨early.1, early.2, fun {method'} versioned' => ?_⟩
        have same := versioned.present.symm.trans versioned'.present
        cases same
        exact typed
      obtain ⟨exit, failed, threw⟩ := nameOf_threw versioned.isObject late
      have passed := (protocol_eq_ok object carried.version).mpr versioned
      refine ⟨exit, Except.bind_eq_error.mpr (.inr ⟨method, passed, ?_⟩), threw⟩
      exact Except.bind_eq_error.mpr (.inl failed)
    · exact absurd ⟨early.1, early.2, fun h => absurd ⟨_, h⟩ versioned⟩ mistyped
  · obtain ⟨exit, failed, threw⟩ := protocol_threw object early
    exact ⟨exit, Except.bind_eq_error.mpr (.inl failed), threw⟩

/-- `onMessage` with the call of `Pipeline::handle`, which may throw as well. -/
def serve (srv : HttpMcp) (cfg : YamlConfig) (grants : GrantTable) (msg : HttpMessage)
    (clk : Clock) (handle : Request → Except JsonError Unit) : Except Exit Request := do
  let req ← srv.onMessage cfg grants msg clk
  match handle req with
  | .ok () => .ok req
  | .error e => .error (.threw e)

theorem serve_eq_error (handle : Request → Except JsonError Unit)
    (failed : srv.onMessage cfg grants msg clk = .error exit) :
    srv.serve cfg grants msg clk handle = .error exit :=
  Except.bind_eq_error.mpr (.inl failed)

end HttpMcp

/-! ## An example -/

namespace FrontEndExample

/-- A parser that knows one text: what the serialiser writes for `body`. -/
def parser (body : Json) (ok : body.allUtf8 = true) : JsonParser where
  parse text := if text = String.ofList body.write then some body else none
  utf8 := by
    intro text j found
    split at found
    · cases found
      exact ok
    · cases found

/-- A client with a token of its own. -/
def server (body : Json) (ok : body.allUtf8 = true) : HttpMcp where
  parser := parser body ok
  identity := .ofAgents [⟨"ann", "secret", 0, true, false, "default"⟩]
  stopping := false

def headers : UnorderedMap String String :=
  [("accept", "application/json"), ("authorization", "Bearer secret"),
    ("mcp-protocol-version", kProtocolVersion), ("mcp-method", "tools/list")].foldl
      (fun m h => m.insert h.1 h.2) ∅

/-- A request for the tool list, with the given members in addition. -/
def body (members : List (String × Json)) : Json :=
  .ofMembers (("params", .ofMembers [("_meta",
    .ofMembers [(kMetaProtocol, .str kProtocolVersion), (kMetaCaps, .object)])]) :: members)

def message (body : Json) : HttpMessage := { headers := headers, body := String.ofList body.write }

theorem parse_message (body : Json) (ok : body.allUtf8 = true) :
    (server body ok).parser.parse (message body).body = some body := if_pos rfl

/-- A request for the tool list without an id. -/
def notification : Json := body [("method", .str "tools/list")]

/-- A request whose method is a number. -/
def numbered : Json := body [("id", .int 1), ("method", .int 1)]

theorem allUtf8_notification : notification.allUtf8 = true := by decide +kernel

theorem allUtf8_numbered : numbered.allUtf8 = true := by decide +kernel

theorem carried_headers : HttpMcp.Carried {} false headers where
  origin := by decide +kernel
  sessionless := by decide +kernel
  running := rfl
  accept := by decide +kernel
  version := by decide +kernel

end FrontEndExample

/-! ## When the gate holds, and when nothing is thrown -/

section FrontEnd

variable (srv : HttpMcp) (cfg : YamlConfig) (grants : GrantTable) (msg : HttpMessage) (clk : Clock)

/-- A message that becomes a request meets the gate, and any other is answered with an error,
if and only if a message that meets all checks has an id, or else a result. -/
theorem front_end_gate_iff :
    ((∀ req, srv.onMessage cfg grants msg clk = .ok req →
        ∃ body, srv.Gate cfg grants msg clk body req) ∧
      ∀ exit, srv.onMessage cfg grants msg clk = .error exit → ¬ exit.IsThrow → exit.IsError) ↔
    ∀ body req, srv.Checked cfg grants msg clk body req →
      body.contains "id" = true ∨ body.contains "result" = true := by
  constructor
  · rintro ⟨gated, -⟩ body req checked
    cases result : body.contains "result" with
    | true => exact .inr rfl
    | false =>
      -- with no result, a message that passed was taken for a request
      have passed := HttpMcp.onMessage_eq_ok_iff.mpr
        ⟨body, checked, checked.isNotification.mpr (.inr result)⟩
      obtain ⟨body', gate⟩ := gated req passed
      have same := checked.parsed.symm.trans gate.parsed
      cases same
      exact .inl gate.id
  · intro complete
    refine ⟨fun req passed => ?_, fun exit failed quiet => ?_⟩
    · obtain ⟨body, checked, accepted⟩ := HttpMcp.onMessage_eq_ok_iff.mp passed
      refine ⟨body, checked, ?_⟩
      rcases complete body req checked with id | result
      · exact id
      · rcases checked.isNotification.mp accepted with id | none
        · exact id
        · rw [none] at result
          cases result
    · rcases HttpMcp.onMessage_eq_error failed with answered | ⟨threw, -⟩
      · exact answered
      · exact absurd threw quiet

/-- Nothing is thrown if and only if the members that are read as strings are strings and the
pipeline does not throw. -/
theorem front_end_total_iff (handle : Request → Except JsonError Unit) :
    ((∃ exit, srv.serve cfg grants msg clk handle = .error exit ∧ exit.IsError) ∨
      ∃ req, srv.serve cfg grants msg clk handle = .ok req) ↔
    (∀ body, srv.parser.parse msg.body = some body → body.isObject = true →
      HttpMcp.Carried cfg srv.stopping msg.headers → HttpMcp.isNotification body = false →
      HttpMcp.Typed msg.headers body) ∧
    ∀ body req, srv.Checked cfg grants msg clk body req → HttpMcp.isNotification body = false →
      handle req = .ok () := by
  have thrown : ∀ {exit : Exit}, exit.IsThrow → ¬ exit.IsError := by
    rintro _ ⟨e, rfl⟩ answered
    exact answered
  constructor
  · intro total
    -- what is answered does not throw
    have quiet : ∀ exit, srv.serve cfg grants msg clk handle = .error exit → ¬ exit.IsThrow := by
      intro exit failed threw
      rcases total with ⟨exit', failed', answered⟩ | ⟨req, passed⟩
      · rw [failed] at failed'
        cases failed'
        exact thrown threw answered
      · rw [failed] at passed
        cases passed
    constructor
    · intro body parsed object carried accepted
      by_contra mistyped
      obtain ⟨exit, failed, threw⟩ :=
        HttpMcp.onMessage_threw parsed object carried accepted mistyped
      exact quiet exit (HttpMcp.serve_eq_error handle failed) threw
    · intro body req checked accepted
      have passed := HttpMcp.onMessage_eq_ok_iff.mpr ⟨body, checked, accepted⟩
      cases handled : handle req with
      | ok u => rfl
      | error e =>
        have thrown := quiet (.threw e) (Except.bind_eq_error.mpr (.inr ⟨req, passed, ?_⟩))
        · exact absurd ⟨e, rfl⟩ thrown
        · rw [handled]
  · rintro ⟨typed, returns⟩
    cases passed : srv.onMessage cfg grants msg clk with
    | ok req =>
      obtain ⟨body, checked, accepted⟩ := HttpMcp.onMessage_eq_ok_iff.mp passed
      refine .inr ⟨req, Except.bind_eq_ok.mpr ⟨req, passed, ?_⟩⟩
      rw [returns body req checked accepted]
    | error exit =>
      refine .inl ⟨exit, HttpMcp.serve_eq_error handle passed, ?_⟩
      rcases HttpMcp.onMessage_eq_error passed with
        answered | ⟨-, body, parsed, object, carried, accepted, mistyped⟩
      · exact answered
      · exact absurd (typed body parsed object carried accepted) mistyped

end FrontEnd

open FrontEndExample in
/-- A notification is executed. -/
theorem notification_executed : ∃ req,
    (server notification allUtf8_notification).onMessage {} ∅ (message notification)
      (fun _ => 0) = .ok req ∧
    ¬ ∃ body, (server notification allUtf8_notification).Gate {} ∅ (message notification)
      (fun _ => 0) body req := by
  have executed : ((server notification allUtf8_notification).onMessage {} ∅
      (message notification) (fun _ => 0)).toBool = true := by decide +kernel
  cases passed : (server notification allUtf8_notification).onMessage {} ∅ (message notification)
    (fun _ => 0) with
  | error exit =>
    rw [passed] at executed
    cases executed
  | ok req =>
    refine ⟨req, rfl, ?_⟩
    rintro ⟨body, gate⟩
    have same := (parse_message _ allUtf8_notification).symm.trans gate.parsed
    cases same
    exact absurd gate.id (by decide +kernel)

open FrontEndExample in
/-- The method is a number: an exception leaves `onMessage`, although the pipeline never
throws. -/
theorem mistyped_method_escapes :
    ¬ ((∃ exit, (server numbered allUtf8_numbered).serve {} ∅ (message numbered) (fun _ => 0)
        (fun _ => .ok ()) = .error exit ∧ exit.IsError) ∨
      ∃ req, (server numbered allUtf8_numbered).serve {} ∅ (message numbered) (fun _ => 0)
        (fun _ => .ok ()) = .ok req) := by
  have mistyped : ¬ HttpMcp.Typed headers numbered := by
    intro typed
    have method : numbered.field? "method" = some (.int 1) := rfl
    obtain ⟨text, same⟩ := typed.method _ method
    cases same
  have threw : ∃ exit, (server numbered allUtf8_numbered).onMessage {} ∅ (message numbered)
      (fun _ => 0) = .error exit ∧ exit.IsThrow :=
    HttpMcp.onMessage_threw (parse_message numbered allUtf8_numbered) (by decide +kernel)
      carried_headers (by decide +kernel) mistyped
  obtain ⟨exit, failed, e, rfl⟩ := threw
  have failed := HttpMcp.serve_eq_error (fun _ => .ok ()) failed
  rintro (⟨exit, replied, answered⟩ | ⟨req, passed⟩)
  · cases failed.symm.trans replied
    exact answered
  · cases failed.symm.trans passed

end Perfacet
