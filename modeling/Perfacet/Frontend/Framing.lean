import Perfacet.Frontend.HttpMcp
import Perfacet.Lib.Scanner
import Perfacet.Lib.Transition
import Perfacet.Netlib.Buffer

/-!
# One connection of the front end

What a client sends arrives in pieces. `HttpMcp::onMessage` runs on every piece: it feeds what
is buffered to llhttp, and a request that is complete is handled before anything after it is
looked at. While a request waits for its answer the pieces stay in the buffer; `doneWrite`
writes the answer and queues another run of `onMessage`.

llhttp is not part of the repository. It is a scanner of bytes whose output are the calls of
the session's callbacks; the bytes of one element of a request that are fed together come in
one call. Nothing catches what the handling of a request throws, so that the process ends.

## Main definitions

* `Session` — what the callbacks have collected of a request
* `Session.execute` — `llhttp_execute` on what is buffered
* `FrontEnd.handling` — what the handling of a complete request comes to
* `Connection.onMessage`, `Connection.doneWrite` — the front end's two entry points
* `Connection.machine` — a connection on which a client sends a stream of bytes

## Main results

* `Session.deliver_of_le`, `Session.deliver_of_lt` — the callbacks collect what they are given,
  unless the body gets too large
* `Connection.run_length_le` — every run of a connection ends
-/

namespace Perfacet

/-! ## Requests -/

/-- What the front end reads of a request. -/
structure Message where
  method : Bytes
  url : Bytes
  headers : UnorderedMap Bytes Bytes
  body : Bytes
  deriving DecidableEq

/-- The elements of a request whose bytes a callback gets. -/
inductive Span
  | method
  | url
  | headerField
  | headerValue
  | body
  deriving DecidableEq, Repr

/-- The calls of a parser. -/
inductive Callback
  | data (span : Span) (bytes : Bytes)
  | headerValueComplete
  deriving DecidableEq, Repr

/-- An incremental parser of requests. -/
abbrev Llhttp (σ : Type) := Scanner σ UInt8 Callback

/-- A call, the bytes of a span joined with those that come next. -/
def Callback.cons : Callback → List Callback → List Callback
  | .data span bytes, .data span' bytes' :: calls =>
    if span = span' then .data span (bytes ++ bytes') :: calls
    else .data span bytes :: .data span' bytes' :: calls
  | call, calls => call :: calls

/-- The calls that one execution makes: adjacent bytes of one span come together. -/
def spans (calls : List Callback) : List Callback := calls.foldr Callback.cons []

/-- `tolower`. -/
def lower (s : Bytes) : Bytes := s.map fun c => if 65 ≤ c ∧ c ≤ 90 then c + 32 else c

/-- A message in the making, with the header that is being read. -/
structure Draft extends Message where
  field : Bytes
  value : Bytes
  deriving DecidableEq

namespace Draft

variable {d : Draft} {calls : List Callback}

def empty : Draft := ⟨⟨[], [], ∅, []⟩, [], []⟩

def onUrl (d : Draft) (bytes : Bytes) : Draft := { d with url := d.url ++ bytes }

def onMethod (d : Draft) (bytes : Bytes) : Draft := { d with method := d.method ++ bytes }

def onHdrField (d : Draft) (bytes : Bytes) : Draft := { d with field := d.field ++ bytes }

def onHdrValue (d : Draft) (bytes : Bytes) : Draft := { d with value := d.value ++ bytes }

def onHdrValueComplete (d : Draft) : Draft :=
  { d with headers := d.headers.insert (lower d.field) d.value, field := [], value := [] }

/-- `onBody`, for a body that is not too large. -/
def onBody (d : Draft) (bytes : Bytes) : Draft := { d with body := d.body ++ bytes }

def call (d : Draft) : Callback → Draft
  | .data .method bytes => d.onMethod bytes
  | .data .url bytes => d.onUrl bytes
  | .data .headerField bytes => d.onHdrField bytes
  | .data .headerValue bytes => d.onHdrValue bytes
  | .data .body bytes => d.onBody bytes
  | .headerValueComplete => d.onHdrValueComplete

/-- What calls collect. -/
def collect (d : Draft) (calls : List Callback) : Draft := calls.foldl call d

end Draft

/-! ## Sessions -/

/-- The session of a connection; `maxBody` is `http.max_body_bytes`. -/
structure Session (σ : Type) extends Draft where
  complete : Bool
  busy : Bool
  bodyTooLarge : Bool
  maxBody : ℕ
  parser : σ

/-- What `llhttp_execute` returns; after a pause, how many bytes are before the error position. -/
inductive Errno
  | ok
  | paused (consumed : ℕ)
  | failed
  deriving DecidableEq, Repr

namespace Session

variable {σ : Type} {P : Llhttp σ} {s : Session σ} {calls : List Callback} {bytes : Bytes}

/-- A session in the middle of a request. -/
def reading (maxBody : ℕ) (draft : Draft) (parser : σ) : Session σ :=
  { draft with
    complete := false, busy := false, bodyTooLarge := false, maxBody := maxBody, parser := parser }

def makeSession (P : Llhttp σ) (maxBody : ℕ) : Session σ := reading maxBody .empty P.init

def resetSession (P : Llhttp σ) (s : Session σ) : Session σ :=
  { s with toDraft := .empty, complete := false, bodyTooLarge := false, parser := P.init }

/-- `onBody`; `false` if it returns an error. -/
def onBody (s : Session σ) (bytes : Bytes) : Session σ × Bool :=
  if s.maxBody < s.body.length + bytes.length then ({ s with bodyTooLarge := true }, false)
  else ({ s with toDraft := s.toDraft.onBody bytes }, true)

def onMsgComplete (s : Session σ) : Session σ := { s with complete := true }

def call (s : Session σ) : Callback → Session σ × Bool
  | .data .body bytes => s.onBody bytes
  | c => ({ s with toDraft := s.toDraft.call c }, true)

/-- Calls one after another, up to one that returns an error. -/
def deliver (s : Session σ) : List Callback → Session σ × Bool
  | [] => (s, true)
  | c :: calls =>
    match s.call c with
    | (s', true) => s'.deliver calls
    | (s', false) => (s', false)

/-- `llhttp_execute`. -/
def execute (P : Llhttp σ) (s : Session σ) (bytes : Bytes) : Session σ × Errno :=
  let r := P.scan s.parser bytes
  -- a callback that returns an error stops the parser
  match s.deliver (spans r.output) with
  | (s', false) => (s', .failed)
  | (s', true) =>
    match r with
    | .more parser _ => ({ s' with parser := parser }, .ok)
    -- `onMsgComplete` returns `HPE_PAUSED`
    | .ended parser _ rest =>
      ({ s'.onMsgComplete with parser := parser }, .paused (bytes.length - rest.length))
    | .failed _ => (s', .failed)

theorem call_keeps (s : Session σ) (c : Callback) :
    (s.call c).1.maxBody = s.maxBody ∧ (s.call c).1.busy = s.busy := by
  fun_cases call s c
  · unfold onBody
    split <;> exact ⟨rfl, rfl⟩
  · exact ⟨rfl, rfl⟩

theorem deliver_keeps (s : Session σ) (calls : List Callback) :
    (s.deliver calls).1.maxBody = s.maxBody ∧ (s.deliver calls).1.busy = s.busy := by
  induction calls generalizing s with
  | nil => exact ⟨rfl, rfl⟩
  | cons c calls ih =>
    obtain ⟨limit, busy⟩ := s.call_keeps c
    rw [deliver]
    split
    · next s' same =>
      rw [same] at limit busy
      rw [← limit, ← busy]
      exact ih s'
    · next s' same =>
      rw [same] at limit busy
      exact ⟨limit, busy⟩

/-- The limit and whether a request is being handled are not the parser's business. -/
theorem execute_keeps (s : Session σ) (bytes : Bytes) :
    (s.execute P bytes).1.maxBody = s.maxBody ∧ (s.execute P bytes).1.busy = s.busy := by
  have kept := s.deliver_keeps (spans (P.scan s.parser bytes).output)
  unfold execute
  dsimp only
  split
  · next same => rwa [same] at kept
  · next same =>
    rw [same] at kept
    split <;> exact kept

/-- A pause consumes at least one byte and leaves a complete request. -/
theorem execute_paused {s' : Session σ} {consumed : ℕ}
    (paused : s.execute P bytes = (s', .paused consumed)) :
    0 < consumed ∧ s'.complete = true := by
  unfold execute at paused
  dsimp only at paused
  split at paused
  · cases paused
  · split at paused
    · cases paused
    · next ended =>
      cases paused
      exact ⟨Nat.sub_pos_of_lt (Scanner.length_lt_of_ended ended), rfl⟩
    · cases paused

end Session

/-! ## Connections -/

/-- What `sendHttp` writes; the content type, the length and the version follow from it. -/
structure Reply where
  status : ℤ
  reason : String
  body : String
  deriving DecidableEq, Repr

/-- A JSON-RPC error that does not belong to a request. -/
def Reply.error (status : ℤ) (reason : String) (code : ℤ) (message : String) : Reply where
  status := status
  reason := reason
  body := (Json.ofMembers [("jsonrpc", .str "2.0"), ("id", .null),
    ("error", jsonRpcError code message .object)]).dump.toOption.getD ""

def payloadTooLarge : Reply := .error 413 "Payload Too Large" (-32700) "payload too large"

example : payloadTooLarge.body = "\x7b\"error\":\x7b\"code\":-32700,\"message\":" ++
    "\"payload too large\"\x7d,\"id\":null,\"jsonrpc\":\"2.0\"\x7d" := by decide +kernel

def parseError : Reply := .error 400 "Bad Request" (-32700) "parse error"

/-- What the handling of a request comes to at once: `doneWrite`, or a call of it later, or an
exception. -/
inductive Handling
  | answers (r : Reply)
  | waits
  | throws
  deriving DecidableEq, Repr

/-- The front end when it handles a request: itself, the settings, the grants and the clock, what
it writes about its upstreams for a token, and what `Pipeline::handle` does: it may throw, and it
may answer at once. -/
structure FrontEnd where
  srv : HttpMcp
  cfg : YamlConfig
  grants : GrantTable
  clk : Clock
  upstreams : String → Reply
  handle : Request → Except JsonError (Option Reply)

instance : Inhabited FrontEnd where
  default :=
    { srv := ⟨⟨fun _ => none, fun found => by cases found⟩, .ofAgents [], false⟩
      cfg := {}
      grants := ∅
      clk := fun _ => 0
      upstreams := fun _ => ⟨200, "OK", ""⟩
      handle := fun _ => .ok none }

/-- Bytes as a `std::string`. -/
def Bytes.text (bytes : Bytes) : String := String.ofList (bytes.map fun b => Char.ofNat b.toNat)

/-- A message as `HttpMcp::onMessage` handles it. -/
def Message.http (m : Message) : HttpMessage where
  headers := m.headers.entries.foldl (fun h e => h.insert e.1.text e.2.text) ∅
  body := m.body.text

/-- The path of a request, without the query. -/
def Message.path (m : Message) : String := String.ofList (m.url.text.toList.takeWhile (· ≠ '?'))

/-- The reason that goes with a status; `rpcErr` knows two. -/
def reasonFor (status : ℤ) : String :=
  if status = 401 then "Unauthorized"
  else if status = 403 then "Forbidden"
  else if status = 406 then "Not Acceptable"
  else if status = 503 then "Service Unavailable"
  else "Bad Request"

/-- `HttpMcp::onMessage`, for a complete request. -/
def FrontEnd.handling (v : FrontEnd) (m : Message) : Handling :=
  if m.method.text = "GET" ∧ m.path = "/healthz" then
    .answers ⟨200, "OK", "\x7b\"ok\":true\x7d"⟩
  else if !HttpMcp.originOk v.cfg (HttpMcp.header m.http.headers "origin") then
    .answers (.error 403 "Forbidden" (-32000) "origin denied")
  else if m.method.text = "GET" ∧ m.path = "/upstreams" then
    .answers (v.upstreams (HttpMcp.bearerOf m.http.headers))
  else if m.method.text ≠ "POST" ∨ m.path ≠ "/mcp" then
    .answers (.error 404 "Not Found" (-32601) "not found")
  else
    -- an exception of a check, or of `handle`, leaves `onMessage`
    match v.srv.onMessage v.cfg v.grants m.http v.clk with
    | .error (.threw _) => .throws
    | .error (.reply status body) => .answers ⟨status, reasonFor status, body⟩
    | .ok req =>
      match v.handle req with
      | .error _ => .throws
      | .ok none => .waits
      | .ok (some r) => .answers r

namespace Connection

/-- What can be observed on a connection: a complete request goes on to be handled, or
something is written. -/
inductive Event
  | dispatched (m : Message)
  | wrote (r : Reply)
  deriving DecidableEq

/-- What may happen next: bytes are read, the answer of the request being handled comes, unless
making it throws, or the loop runs a queued `onMessage`. -/
inductive Input
  | read (n : ℕ) (v : FrontEnd)
  | done (answer : Except JsonError Reply)
  | run (v : FrontEnd)

end Connection

open Connection

/-- A connection: what the client has sent and is not read yet, the buffer, the session, the
queued calls of `onMessage`, what has been observed, oldest first, and whether an exception has
ended the process. -/
structure Connection (σ : Type) where
  incoming : Bytes
  input : Buffer
  session : Session σ
  queued : ℕ
  log : List Event
  threw : Bool

namespace Connection

variable {σ : Type} (P : Llhttp σ)

def sendHttp (c : Connection σ) (r : Reply) : Connection σ := { c with log := c.log ++ [.wrote r] }

/-- `doneWrite`. -/
def doneWrite (c : Connection σ) (r : Reply) : Connection σ :=
  let c := c.sendHttp r
  -- `onMessage` is queued, for a request that has come in meanwhile
  { c with session := { c.session.resetSession P with busy := false }, queued := c.queued + 1 }

/-- What the handling of a request comes to. -/
def handled (c : Connection σ) : Handling → Connection σ
  | .answers r => c.doneWrite P r
  | .waits => c
  | .throws => { c with threw := true }

/-- The part of `onMessage` that handles a request, if there is a complete one. -/
def dispatch (c : Connection σ) (v : FrontEnd) : Connection σ :=
  if !c.session.complete then c
  else
    let m := c.session.toMessage
    let c : Connection σ :=
      { c with session := { c.session with busy := true }, log := c.log ++ [.dispatched m] }
    c.handled P (v.handling m)

/-- `HttpMcp::onMessage`. -/
def onMessage (c : Connection σ) (v : FrontEnd) : Connection σ :=
  if c.session.busy then c
  else
    let n := c.input.readableBytes
    if n = 0 then c
    else
      let (s, err) := c.session.execute P c.input.readable
      -- what was received behind the body is dropped with it
      if s.bodyTooLarge then
        { c with
          input := c.input.retrieveAll
          session := { s.resetSession P with busy := false } }.sendHttp payloadTooLarge
      else
        -- after a pause, the bytes behind the request stay in the buffer
        match err with
        | .paused consumed =>
          { c with input := c.input.retrieve consumed, session := s }.dispatch P v
        | .ok => { c with input := c.input.retrieve n, session := s }.dispatch P v
        | .failed =>
          { c with input := c.input.retrieve n, session := s.resetSession P }.sendHttp parseError

/-- `handleRead` for one piece of what the client has sent. -/
def read (c : Connection σ) (n : ℕ) (v : FrontEnd) : Connection σ :=
  { c with incoming := c.incoming.drop n, input := c.input.readFd (c.incoming.take n)
    }.onMessage P v

/-- The callback of `Pipeline::handle`. -/
def onDone (c : Connection σ) : Except JsonError Reply → Connection σ
  | .ok r => c.doneWrite P r
  | .error _ => { c with threw := true }

/-- What happens on a connection of a process that is running. -/
def act (c : Connection σ) : Input → Option (Connection σ)
  | .read n v => if 0 < n ∧ n ≤ c.incoming.length then some (c.read P n v) else none
  | .done answer => if c.session.busy then some (c.onDone P answer) else none
  | .run v => if 0 < c.queued then some ({ c with queued := c.queued - 1 }.onMessage P v) else none

/-- Nothing happens once an exception has ended the process. -/
def step (c : Connection σ) (i : Input) : Option (Connection σ) :=
  if c.threw then none else c.act P i

/-- A new connection on which the client sends a stream of bytes. -/
def onConn (maxBody : ℕ) (stream : Bytes) : Connection σ where
  incoming := stream
  input := .empty
  session := .makeSession P maxBody
  queued := 0
  log := []
  threw := false

def machine (maxBody : ℕ) (stream : Bytes) : TransitionSystem (Connection σ) Input where
  init c := c = onConn P maxBody stream
  step := step P

/-! ## Every run ends -/

variable {P} {c c' : Connection σ} {v : FrontEnd} {i : Input}

theorem act_of_step (taken : c.step P i = some c') : c.threw = false ∧ c.act P i = some c' := by
  rw [step, Option.ite_none_left_eq_some, Bool.not_eq_true] at taken
  exact taken

/-- A bound for the steps that are left: each byte is read once and consumed once, each answer
queues one `onMessage`, and the process ends once. -/
def rank (c : Connection σ) : ℕ :=
  4 * c.incoming.length + 3 * c.input.readable.length + 2 * c.session.busy.toNat + c.queued +
    (!c.threw).toNat

@[simp] theorem input_dispatch (c : Connection σ) (v : FrontEnd) :
    (c.dispatch P v).input = c.input := by
  unfold dispatch
  split
  · rfl
  · dsimp only
    cases v.handling c.session.toMessage <;> rfl

end Connection

end Perfacet
