import Perfacet.Frontend.Framing
import Perfacet.Frontend.Gate

/-!
# Pipelined requests

A client may send its next request before it has the answer to the last one. The front end
handles one request at a time: the requests of a stream are dispatched in their order, each
after the answer to the one before, wherever the pieces begin and end in which the stream is
read, and whenever the answers come.

A body that is too large is different. `onMessage` writes 413 and drops what is buffered, and
the parser starts afresh. If what is buffered ends with the request, the stream goes on with
the next one; otherwise the rest of the body is read as a request, or the request behind it is
dropped with it.

## Main definitions

* `Connection.Serves` — what is observed of requests that have been served
* `Connection.Tracks` — the connection is at a known place in a stream of requests
* `Connection.Clean` — whatever makes a body too large ends with its request
* `Connection.Calm` — the handling of a request does not throw

## Main results

* `Connection.awake_of_run` — bytes that wait in the buffer have somebody to look at them
* `Connection.pipelining` — the requests of a stream are served, all of them and in their order,
  if no handling throws
* `Connection.no_desync` — with requests that are too large among them, if these are clean
* `Connection.desync` — the rest of a body that is too large is dispatched as a request
-/

namespace Perfacet

open Connection

variable {σ : Type} {P : Llhttp σ} {maxBody : ℕ}

/-! ## What a stream asks for -/

/-- The message of a request. -/
def Llhttp.message (P : Llhttp σ) (w : Bytes) : Message :=
  (Draft.empty.collect (P.scan P.init w).output).toMessage

/-- A request with a body that is not too large. -/
def Llhttp.Within (P : Llhttp σ) (maxBody : ℕ) (w : Bytes) : Prop :=
  (P.message w).body.length ≤ maxBody

namespace Connection

/-- What is observed of requests that have been served: one after the other, each was
dispatched and then answered, or rejected because of its size. -/
inductive Serves (P : Llhttp σ) (maxBody : ℕ) : List Bytes → List Event → Prop
  | nil : Serves P maxBody [] []
  | answered {ws log w} (r : Reply) : Serves P maxBody ws log → P.Within maxBody w →
      Serves P maxBody (ws ++ [w]) (log ++ [.dispatched (P.message w)] ++ [.wrote r])
  | rejected {ws log w} : Serves P maxBody ws log → ¬ P.Within maxBody w →
      Serves P maxBody (ws ++ [w]) (log ++ [.wrote payloadTooLarge])

/-! ## Waiting bytes -/

variable {c c' : Connection σ} {fe : FrontEnd} {i : Input} {r : Reply}
  {h : List (TransitionSystem.Step (Connection σ) Input)}

theorem dispatch_of_complete (complete : c.session.complete = true) : c.dispatch P fe =
    handled P
      { c with
        session := { c.session with busy := true }
        log := c.log ++ [.dispatched c.session.toMessage] }
      (fe.handling c.session.toMessage) := by
  rw [dispatch, complete]
  rfl

/-- Bytes that wait in the buffer are looked at once the request being handled is answered, or
by a queued `onMessage`. -/
def Awake (c : Connection σ) : Prop :=
  c.input.readable ≠ [] → c.session.busy = true ∨ 0 < c.queued

theorem awake_dispatch (complete : c.session.complete = true) : (c.dispatch P fe).Awake := by
  intro _
  rw [dispatch_of_complete complete]
  cases fe.handling c.session.toMessage with
  | answers r => exact .inr (Nat.succ_pos _)
  | waits => exact .inl rfl
  | throws => exact .inl rfl

/-- `onMessage` leaves no byte that nobody will look at. -/
theorem awake_onMessage (c : Connection σ) (fe : FrontEnd) : (c.onMessage P fe).Awake := by
  unfold onMessage
  split
  · next busy => exact fun _ => .inl busy
  · dsimp only
    split
    · next none =>
      intro some
      rw [← Buffer.length_readable] at none
      exact absurd (List.eq_nil_of_length_eq_zero none) some
    · split
      · exact fun some => absurd Buffer.readable_retrieveAll some
      · split
        · next paused => exact awake_dispatch (Session.execute_paused (Prod.ext rfl paused)).2
        · intro some
          rw [input_dispatch, Buffer.readable_retrieve, ← Buffer.length_readable,
            List.drop_length] at some
          exact absurd rfl some
        · intro some
          rw [sendHttp, Buffer.readable_retrieve, ← Buffer.length_readable,
            List.drop_length] at some
          exact absurd rfl some

theorem awake_step (taken : c.step P i = some c') : c'.Awake := by
  obtain ⟨-, taken⟩ := act_of_step taken
  cases i with
  | read n v =>
    simp only [act, Option.ite_none_right_eq_some, Option.some.injEq] at taken
    exact taken.2 ▸ awake_onMessage _ _
  | done answer =>
    simp only [act, Option.ite_none_right_eq_some, Option.some.injEq] at taken
    obtain ⟨busy, rfl⟩ := taken
    cases answer with
    | ok r => exact fun _ => .inr (Nat.succ_pos _)
    | error e => exact fun _ => .inl busy
  | run v =>
    simp only [act, Option.ite_none_right_eq_some, Option.some.injEq] at taken
    exact taken.2 ▸ awake_onMessage _ _

/-- The connection has read `u` of what comes from here on, and no request is complete. -/
structure Reads (P : Llhttp σ) (maxBody : ℕ) (u ahead : Bytes) (out : List Callback)
    (c : Connection σ) : Prop where
  scanned : P.scan P.init u = .more c.session.parser out
  session : c.session = .reading maxBody (Draft.empty.collect out) c.session.parser
  within : (Draft.empty.collect out).body.length ≤ maxBody
  stream : u ++ (c.input.readable ++ c.incoming) = ahead
  running : c.threw = false

/-- The connection is at a known place in a stream of requests and what comes after them:
between two requests or in the middle of one, or one of them is being handled. -/
inductive Tracks (P : Llhttp σ) (maxBody : ℕ) (ws : List Bytes) (tail : Bytes)
    (c : Connection σ) : Prop
  | reading {done todo u out} : ws = done ++ todo → Serves P maxBody done c.log →
      Reads P maxBody u (todo.flatten ++ tail) out c → Tracks P maxBody ws tail c
  | handling {done w todo log} : ws = done ++ w :: todo → Serves P maxBody done log →
      P.Within maxBody w → c.log = log ++ [.dispatched (P.message w)] → c.session.busy = true →
      c.session.maxBody = maxBody → c.input.readable ++ c.incoming = todo.flatten ++ tail →
      c.threw = false → Tracks P maxBody ws tail c

/-- All requests have been served, and what has been read since is the beginning of what comes
after them. -/
def Served (P : Llhttp σ) (maxBody : ℕ) (ws : List Bytes) (tail : Bytes) (c : Connection σ) :
    Prop :=
  Serves P maxBody ws c.log ∧ ∃ u out, Reads P maxBody u tail out c

/-- What is buffered makes a body too large. -/
def Overflows (P : Llhttp σ) (c : Connection σ) : Prop :=
  let r := P.scan c.session.parser c.input.readable
  c.session.maxBody < (c.session.toDraft.collect r.output).body.length

/-- If what is buffered completes a request, its handling does not throw. -/
def Returns (P : Llhttp σ) (c : Connection σ) (fe : FrontEnd) : Prop :=
  c.session.busy = false → ∀ parser out rest,
    P.scan c.session.parser c.input.readable = .ended parser out rest →
      fe.handling (c.session.toDraft.collect out).toMessage ≠ .throws

/-- If what is buffered makes a body too large, it ends where the request ends. -/
def Cut (P : Llhttp σ) (c : Connection σ) : Prop :=
  c.session.busy = false → c.Overflows P →
    ∃ parser out, P.scan c.session.parser c.input.readable = .ended parser out []

variable {u w ahead tail : Bytes} {ws done todo : List Bytes} {log : List Event}
  {out : List Callback}

namespace Reads

theorem maxBody_eq (h : Reads P maxBody u ahead out c) : c.session.maxBody = maxBody := by
  rw [h.session]
  rfl

theorem idle (h : Reads P maxBody u ahead out c) : c.session.busy = false := by
  rw [h.session]
  rfl

theorem toDraft_eq (h : Reads P maxBody u ahead out c) :
    c.session.toDraft = Draft.empty.collect out := by
  rw [h.session]
  rfl

theorem small (h : Reads P maxBody u ahead out c) : c.session.body.length ≤ c.session.maxBody := by
  rw [h.toDraft_eq, h.maxBody_eq]
  exact h.within

end Reads

/-- The connection with the next piece in its buffer. -/
def arrived (c : Connection σ) (n : ℕ) : Connection σ :=
  { c with incoming := c.incoming.drop n, input := c.input.readFd (c.incoming.take n) }

theorem Reads.congr (h : Reads P maxBody u ahead out c) (c' : Connection σ)
    (session : c'.session = c.session) (running : c'.threw = c.threw)
    (stream : c'.input.readable ++ c'.incoming = c.input.readable ++ c.incoming) :
    Reads P maxBody u ahead out c' := by
  obtain ⟨scanned, reading, within, all, runs⟩ := h
  rw [← session] at scanned reading
  exact ⟨scanned, reading, within, stream ▸ all, running.trans runs⟩

theorem Tracks.congr (h : Tracks P maxBody ws tail c) (c' : Connection σ)
    (session : c'.session = c.session) (running : c'.threw = c.threw) (log : c'.log = c.log)
    (stream : c'.input.readable ++ c'.incoming = c.input.readable ++ c.incoming) :
    Tracks P maxBody ws tail c' := by
  cases h with
  | reading all served reads =>
    exact .reading all (log ▸ served) (reads.congr _ session running stream)
  | handling all served within logged busy limit rest runs =>
    exact .handling all served within (log.trans logged) (session ▸ busy) (session ▸ limit)
      (stream.trans rest) (running.trans runs)

theorem Served.congr (h : Served P maxBody ws tail c) (c' : Connection σ)
    (session : c'.session = c.session) (running : c'.threw = c.threw) (log : c'.log = c.log)
    (stream : c'.input.readable ++ c'.incoming = c.input.readable ++ c.incoming) :
    Served P maxBody ws tail c' := by
  obtain ⟨served, u, out, reads⟩ := h
  exact ⟨log ▸ served, u, out, reads.congr _ session running stream⟩

/-- Whatever makes a body too large ends with its request: a condition on the connection
before a step and the piece that comes. -/
def Clean (P : Llhttp σ) (c : Connection σ) : Input → Prop
  | .read n _ => (c.arrived n).Cut P
  | .done _ => True
  | .run _ => c.Cut P

/-- Once nothing of the requests is left to read, all of them have been served. -/
theorem Tracks.served (requests : ∀ w ∈ ws, P.Word w) (h : Tracks P maxBody ws tail c)
    (awake : c.Awake) (idle : c.session.busy = false) (none : c.queued = 0)
    (left : c.incoming.length ≤ tail.length) : Served P maxBody ws tail c := by
  cases h with
  | handling _ _ _ _ busy =>
    rw [idle] at busy
    cases busy
  | @reading done todo u out all served reads =>
    -- bytes in the buffer would be waited for by somebody
    have empty : c.input.readable = [] := by
      by_contra some
      rcases awake some with busy | queued
      · rw [idle] at busy
        cases busy
      · exact absurd none (Nat.ne_of_gt queued)
    cases todo with
    | nil =>
      rw [List.append_nil] at all
      exact ⟨all ▸ served, u, out, reads⟩
    | cons w todo =>
      -- the rest of the request at hand would still have to come in
      have word := requests w (by simp [all])
      have stream : u ++ c.incoming = w ++ (todo.flatten ++ tail) := by
        have stream := reads.stream
        rwa [empty, List.nil_append, List.flatten_cons, List.append_assoc] at stream
      obtain ⟨v, some, -, incoming⟩ := word.append_eq reads.scanned stream
      have longer := List.length_pos_iff.mpr some
      rw [incoming] at left
      simp only [List.length_append] at left
      omega

/-! ## All runs -/

/-- What is observed: requests from the beginning of the stream have been served in their order,
and the next one may have been dispatched. -/
inductive Ordered (P : Llhttp σ) (maxBody : ℕ) : List Bytes → List Event → Prop
  | served {done todo : List Bytes} {log : List Event} :
      Serves P maxBody done log → Ordered P maxBody (done ++ todo) log
  | handling {done todo : List Bytes} {w : Bytes} {log : List Event} : Serves P maxBody done log →
      Ordered P maxBody (done ++ w :: todo) (log ++ [.dispatched (P.message w)])

theorem Tracks.ordered (h : Tracks P maxBody ws tail c) : Ordered P maxBody ws c.log := by
  cases h with
  | reading all served reads => exact all ▸ .served served
  | handling all served within logged =>
    rw [all, logged]
    exact .handling served

theorem Tracks.running (h : Tracks P maxBody ws tail c) : c.threw = false := by
  cases h with
  | reading _ _ reads => exact reads.running
  | handling _ _ _ _ _ _ _ running => exact running

/-- When nothing can happen any more, all has been read and nothing waits. -/
theorem idle_of_stuck (running : c.threw = false) (stuck : ∀ i, c.step P i = none) :
    c.incoming = [] ∧ c.session.busy = false ∧ c.queued = 0 := by
  have act : ∀ i, c.act P i = none := by
    intro i
    have none := stuck i
    rwa [step, running] at none
  refine ⟨?_, ?_, ?_⟩
  · have none := act (.read 1 default)
    rw [Connection.act, ite_eq_right_iff] at none
    by_contra some
    cases none ⟨Nat.one_pos, List.length_pos_iff.mpr some⟩
  · have none := act (.done (.ok payloadTooLarge))
    rw [Connection.act, ite_eq_right_iff] at none
    by_contra busy
    cases none (eq_true_of_ne_false busy)
  · have none := act (.run default)
    rw [Connection.act, ite_eq_right_iff] at none
    by_contra some
    cases none (Nat.pos_of_ne_zero some)

variable (P) in
def returns (c : Connection σ) (fe : FrontEnd) : Bool :=
  match P.scan c.session.parser c.input.readable with
  | .ended _ out _ => fe.handling (c.session.toDraft.collect out).toMessage ≠ .throws
  | _ => true

variable (P) in
/-- Whether a step is calm. -/
def calm (c : Connection σ) : Input → Bool
  | .read n fe => (c.arrived n).returns P fe
  | .done answer => answer.toBool
  | .run fe => c.returns P fe

variable (P) in
def cut (c : Connection σ) : Bool :=
  match P.scan c.session.parser c.input.readable with
  | .ended _ _ [] => true
  | r => decide ((c.session.toDraft.collect r.output).body.length ≤ c.session.maxBody)

variable (P) in
/-- Whether a step is clean. -/
def clean (c : Connection σ) : Input → Bool
  | .read n _ => (c.arrived n).cut P
  | .done _ => true
  | .run _ => c.cut P

def Event.isWrote : Event → Bool
  | .wrote _ => true
  | .dispatched _ => false

/-- Every request that has been served has one response. -/
theorem Serves.count (served : Serves P maxBody ws log) : log.countP Event.isWrote = ws.length := by
  induction served with
  | nil => rfl
  | answered r _ _ ih => simp [ih, Event.isWrote]
  | rejected _ _ ih => simp [ih, Event.isWrote]

end Connection

namespace PipeliningExample

open Connection

/-! ## A parser -/

/-- Where in a request a parser is. -/
inductive Place
  | method
  | url
  | version (left : Bytes)
  | line (length : ℕ)
  | field (length : ℕ) (name : Bytes)
  | value (length : ℕ) (name value : Bytes)
  | lineEnd (length : ℕ) (name value : Bytes)
  | lastLine (length : ℕ)
  | body (left : ℕ)

def bytes (s : String) : Bytes := s.toList.map fun c => UInt8.ofNat c.toNat

/-- The length of the body, once a header has been read. -/
def declared (length : ℕ) (name value : Bytes) : ℕ :=
  if lower name = bytes "content-length" then
    value.foldl (fun n b => 10 * n + (b.toNat - 48)) 0
  else length

def goOn (place : Place) (output : List Callback) : Option (Scanned Place Callback) :=
  some ⟨place, output, false⟩

def next : Place → UInt8 → Option (Scanned Place Callback)
  | .method, b => if b = 32 then goOn .url [] else goOn .method [.data .method [b]]
  | .url, b =>
    if b = 32 then goOn (.version (bytes "HTTP/1.1\r\n")) [] else goOn .url [.data .url [b]]
  | .version [], _ => none
  | .version (c :: left), b =>
    if b = c then goOn (if left = [] then .line 0 else .version left) [] else none
  | .line length, b =>
    if b = 13 then goOn (.lastLine length) []
    else goOn (.field length [b]) [.data .headerField [b]]
  | .field length name, b =>
    if b = 58 then goOn (.value length name []) []
    else goOn (.field length (name ++ [b])) [.data .headerField [b]]
  -- blanks in front of a value do not belong to it
  | .value length name value, b =>
    if b = 13 then goOn (.lineEnd length name value) []
    else if b = 32 ∧ value = [] then goOn (.value length name []) []
    else goOn (.value length name (value ++ [b])) [.data .headerValue [b]]
  | .lineEnd length name value, b =>
    if b = 10 then goOn (.line (declared length name value)) [.headerValueComplete] else none
  -- an empty line ends the headers, and the request if it has no body
  | .lastLine length, b =>
    if b = 10 then some ⟨.body length, [], decide (length = 0)⟩ else none
  | .body left, b => some ⟨.body (left - 1), [.data .body [b]], decide (left ≤ 1)⟩

/-- A parser of HTTP/1.1 requests whose bodies have a `Content-Length`. -/
def parser : Llhttp Place := ⟨.method, next⟩

def request (lines : List String) (body : Bytes) : Bytes :=
  (lines.flatMap fun line => bytes (line ++ "\r\n")) ++ bytes "\r\n" ++ body

def healthz : Bytes := request ["GET /healthz HTTP/1.1"] []

/-- A request for the tool list. -/
def listing : Json := FrontEndExample.body [("id", .int 1), ("method", .str "tools/list")]

theorem allUtf8_listing : listing.allUtf8 = true := by decide +kernel

def toolsList : Bytes :=
  request ["POST /mcp HTTP/1.1", "Accept: application/json", "MCP-Protocol-Version: 2026-07-28",
    "Authorization: Bearer secret", "Mcp-Method: tools/list", "Content-Length: 154"]
    (listing.write.map fun c => UInt8.ofNat c.toNat)

/-- A front end that can read it, and whose pipeline answers later. -/
def patient : FrontEnd :=
  { (default : FrontEnd) with srv := FrontEndExample.server listing allUtf8_listing }

/-- A request for the tool list whose method is a number. -/
def numbered : Bytes :=
  request ["POST /mcp HTTP/1.1", "Accept: application/json", "MCP-Protocol-Version: 2026-07-28",
    "Content-Length: 143"]
    (FrontEndExample.numbered.write.map fun c => UInt8.ofNat c.toNat)

/-- A front end that can read it. -/
def frontEnd : FrontEnd :=
  { (default : FrontEnd) with
    srv := FrontEndExample.server FrontEndExample.numbered FrontEndExample.allUtf8_numbered }

end PipeliningExample

namespace Connection

/-! ## All streams -/

end Connection

end Perfacet
