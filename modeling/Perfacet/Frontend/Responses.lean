import Perfacet.Frontend.Gate
import Perfacet.Frontend.Pipelining
import Perfacet.Ir.JsonText
import Perfacet.Lib.HttpReader

/-!
# The responses on the wire

`sendHttp` writes a response: a status line, four fields and a body. The responses of a connection
follow each other without anything between them. A client that reads them by their length finds
each of them as it was written, whatever the bodies contain: what an upstream or another client
has put into a body is never taken for a response.

## Main definitions

* `Reply.sendHttp` — the characters of a response
* `Reply.decode` — the responses that a client reads
* `HttpMcp.finish` — what the callback of `Pipeline::handle` writes

## Main results

* `Connection.decode_of_run` — in every run, a client reads the responses that were written
-/

namespace Perfacet

/-! ## The code -/

/-- What `sendHttp` writes. -/
def Reply.sendHttp (r : Reply) : List Char :=
  "HTTP/1.1 ".toList ++ (toString r.status).toList ++ ' ' :: r.reason.toList ++ "\r\n".toList ++
    "Content-Type: application/json\r\n".toList ++
    "Content-Length: ".toList ++ (toString (r.body.toList.length : ℤ)).toList ++ "\r\n".toList ++
    "MCP-Protocol-Version: ".toList ++ kProtocolVersion.toList ++ "\r\n".toList ++
    "Connection: keep-alive\r\n\r\n".toList ++
    r.body.toList

namespace HttpMcp

/-- `httpStatusFor`; a code is narrowed to an `int` before it is compared. -/
def httpStatusFor (trunc : FloatText → ℤ) (r : Response) : Except JsonError ℤ :=
  if r.httpStatus ≠ 200 then .ok r.httpStatus
  else if r.klass = .capability then .ok 400
  else if r.klass = .protocol ∧ r.isError then
    if r.body.isObject then
      match Json.valueAs (Json.getInt trunc) r.body "code" 0 with
      | .ok code => .ok (if code.bmod (2 ^ 32) = -32601 then 404 else 400)
      | .error e => .error e
    else .ok 400
  else .ok 200

/-- The reason for a status. -/
def reason (st : ℤ) : String :=
  if st = 200 then "OK"
  else if st = 400 then "Bad Request"
  else if st = 401 then "Unauthorized"
  else if st = 404 then "Not Found"
  else if st = 406 then "Not Acceptable"
  else if st = 503 then "Service Unavailable"
  else "OK"

/-- The callback of `Pipeline::handle`. -/
def finish (trunc : FloatText → ℤ) (id : Json) (r : Response) : Except JsonError Reply :=
  match httpStatusFor trunc r, (wrapRpc id r).dump with
  | .ok st, .ok body => .ok ⟨st, reason st, body⟩
  | .error e, _ => .error e
  | _, .error e => .error e

end HttpMcp

/-! ## A client -/

namespace Reply

/-- The response that a message is. -/
def ofMessage (m : HttpReader.Message) : Option Reply :=
  -- the version is as long as in `HTTP/1.1`
  let line := m.first.drop 9
  (HttpReader.number (line.takeWhile (· ≠ ' '))).map fun status =>
    ⟨status, String.ofList ((line.dropWhile (· ≠ ' ')).drop 1), String.ofList m.body⟩

/-- The responses that a client reads. -/
def decode (n : ℕ) (stream : List Char) : Option (List Reply) :=
  (HttpReader.readAll n stream).bind fun ms => ms.mapM ofMessage

/-- The response as a message. -/
def message (r : Reply) : HttpReader.Message where
  first := "HTTP/1.1 ".toList ++ (toString r.status).toList ++ ' ' :: r.reason.toList
  fields := ["Content-Type: application/json".toList,
    "Content-Length: ".toList ++ (toString (r.body.toList.length : ℤ)).toList,
    "MCP-Protocol-Version: ".toList ++ kProtocolVersion.toList,
    "Connection: keep-alive".toList]
  body := r.body.toList

/-- A status that is a number, and a reason within its line. -/
def Plain (r : Reply) : Prop := 0 ≤ r.status ∧ '\r' ∉ r.reason.toList

instance (r : Reply) : Decidable r.Plain := inferInstanceAs (Decidable (_ ∧ _))

variable {r : Reply} {rs : List Reply} {trunc : FloatText → ℤ} {id : Json} {res : Response}

theorem message_first (r : Reply) : r.message.first =
    "HTTP/1.1 ".toList ++ (toString r.status).toList ++ ' ' :: r.reason.toList := rfl

theorem message_fields (r : Reply) : r.message.fields =
    ["Content-Type: application/json".toList,
      "Content-Length: ".toList ++ (toString (r.body.toList.length : ℤ)).toList,
      "MCP-Protocol-Version: ".toList ++ kProtocolVersion.toList,
      "Connection: keep-alive".toList] := rfl

theorem crlf : "\r\n".toList = ['\r', '\n'] := by decide

theorem sendHttp_eq (r : Reply) : r.sendHttp = r.message.write := by
  have contentType : "Content-Type: application/json\r\n".toList =
      "Content-Type: application/json".toList ++ ['\r', '\n'] := by decide
  have connection : "Connection: keep-alive\r\n\r\n".toList =
      "Connection: keep-alive".toList ++ ['\r', '\n'] ++ ['\r', '\n'] := by decide
  have body : r.message.body = r.body.toList := rfl
  unfold sendHttp
  simp only [message_first, message_fields, body, HttpReader.Message.write, crlf, contentType,
    connection, List.flatMap_cons, List.flatMap_nil, List.append_assoc, List.cons_append,
    List.nil_append, List.append_nil]

/-! ## Reading what was written -/

theorem toList_status (plain : r.Plain) :
    ∃ n : ℕ, r.status = n ∧ (toString r.status).toList = Nat.toDigits 10 n := by
  obtain ⟨n, status⟩ := Int.eq_ofNat_of_zero_le plain.1
  exact ⟨n, status, by rw [status]; exact Json.toList_natural n⟩

/-- A response is found in its message. -/
theorem ofMessage_message (plain : r.Plain) : ofMessage r.message = some r := by
  obtain ⟨n, status, digits⟩ := toList_status plain
  have version : "HTTP/1.1 ".toList.length = 9 := by decide
  have line : r.message.first.drop 9 = Nat.toDigits 10 n ++ ' ' :: r.reason.toList := by
    rw [message_first, digits, List.append_assoc]
    exact List.drop_left' version
  have spaceless : ' ' ∉ Nat.toDigits 10 n := HttpReader.notMem_toDigits (by decide) n
  rw [ofMessage, line, HttpReader.takeWhile_ne spaceless, HttpReader.dropWhile_ne spaceless,
    HttpReader.number_toDigits]
  show some (Reply.mk n (String.ofList r.reason.toList) (String.ofList r.body.toList)) = some r
  rw [String.ofList_toList, String.ofList_toList, ← status]

/-- The length of the body is found in the head. -/
theorem contentLength_message (r : Reply) :
    HttpReader.contentLength r.message.fields = some r.message.body.length := by
  have contentLength : "Content-Length: ".toList = "Content-Length".toList ++ [':', ' '] := by
    decide
  have lower : "Content-Length".toList.map Char.toLower = "content-length".toList := by
    decide
  have digits := Json.toList_natural r.body.toList.length
  have found : HttpReader.fieldOf "content-length".toList r.message.fields =
      some (Nat.toDigits 10 r.body.toList.length) := by
    rw [message_fields, digits, contentLength, HttpReader.fieldOf_cons_of_ne (by decide)]
    refine HttpReader.fieldOf_cons_self ?_ _
    rw [HttpReader.field_append (by decide)
      (HttpReader.notMem_toDigits (by decide) _), lower]
  rw [HttpReader.contentLength, found]
  exact HttpReader.number_toDigits _

theorem wrote_message (plain : r.Plain) : HttpReader.Wrote r.message where
  first := by
    obtain ⟨n, -, digits⟩ := toList_status plain
    rw [message_first, digits]
    refine ⟨by simp, ?_⟩
    simp only [List.mem_append, List.mem_cons, not_or]
    exact ⟨⟨by decide, HttpReader.notMem_toDigits (by decide) n⟩, by decide, plain.2⟩
  fields := by
    intro line member
    simp only [message_fields, List.mem_cons, List.not_mem_nil, or_false] at member
    rcases member with rfl | rfl | rfl | rfl
    · decide
    · refine ⟨by simp, ?_⟩
      rw [Json.toList_natural, List.mem_append, not_or]
      exact ⟨by decide, HttpReader.notMem_toDigits (by decide) _⟩
    · decide
    · decide
  length := contentLength_message r

theorem mapM_ofMessage (plain : ∀ r ∈ rs, r.Plain) : (rs.map message).mapM ofMessage = some rs := by
  induction rs with
  | nil => rfl
  | cons r rs ih =>
    obtain ⟨first, others⟩ := List.forall_mem_cons.mp plain
    rw [List.map_cons, List.mapM_cons, ofMessage_message first, ih others]
    rfl

/-- Responses that are written one after the other are read one after the other. -/
theorem decode_sendHttp (plain : ∀ r ∈ rs, r.Plain) :
    decode rs.length (rs.flatMap sendHttp) = some rs := by
  have written : rs.flatMap sendHttp = (rs.map message).flatMap HttpReader.Message.write := by
    rw [List.flatMap_map]
    exact List.flatMap_congr fun r _ => sendHttp_eq r
  have all : HttpReader.readAll (rs.map message).length _ = some (rs.map message) :=
    HttpReader.readAll_of_wrote fun m member => by
      obtain ⟨r, known, rfl⟩ := List.mem_map.mp member
      exact wrote_message (plain r known)
  rw [List.length_map] at all
  rw [decode, written, all]
  exact mapM_ofMessage plain

/-! ## What the front end writes -/

theorem plain_error {status code : ℤ} {text message : String} (number : 0 ≤ status)
    (line : '\r' ∉ text.toList) : (Reply.error status text code message).Plain := ⟨number, line⟩

end Reply

namespace HttpMcp

variable {trunc : FloatText → ℤ} {id : Json} {res : Response} {r : Reply}

theorem httpStatusFor_nonneg {st : ℤ} (number : 0 ≤ res.httpStatus)
    (status : httpStatusFor trunc res = .ok st) : 0 ≤ st := by
  unfold httpStatusFor at status
  split_ifs at status with h₁ h₂ h₃ h₄
  · obtain rfl := Except.ok.inj status
    exact number
  · obtain rfl := Except.ok.inj status
    decide
  · split at status
    · obtain rfl := Except.ok.inj status
      split <;> decide
    · cases status
  · obtain rfl := Except.ok.inj status
    decide
  · obtain rfl := Except.ok.inj status
    decide

/-- The reasons are words. -/
theorem reason_plain (st : ℤ) : '\r' ∉ (reason st).toList := by
  unfold reason
  split_ifs <;> decide

theorem plain_finish (number : 0 ≤ res.httpStatus) (finished : finish trunc id res = .ok r) :
    r.Plain := by
  unfold finish at finished
  split at finished
  · next st body status _ =>
    obtain rfl := Except.ok.inj finished
    exact ⟨httpStatusFor_nonneg number status, reason_plain st⟩
  · cases finished
  · cases finished

end HttpMcp

/-- What the callback of `Pipeline::handle` writes. -/
def Reply.Finished (r : Reply) : Prop :=
  ∃ trunc id res, 0 ≤ res.httpStatus ∧ HttpMcp.finish trunc id res = .ok r

/-- What a front end is given to write: the answers of the pipeline are written by its callback, and
what it says about its upstreams has one of two statuses. -/
structure FrontEnd.Answers (v : FrontEnd) : Prop where
  handle : ∀ req r, v.handle req = .ok (some r) → r.Finished
  upstreams : ∀ bearer, ∃ body,
    v.upstreams bearer = ⟨200, "OK", body⟩ ∨ v.upstreams bearer = ⟨401, "Unauthorized", body⟩

theorem reasonFor_plain (status : ℤ) : '\r' ∉ (reasonFor status).toList := by
  unfold reasonFor
  split_ifs <;> decide

/-- What a request is answered at once. -/
theorem FrontEnd.Answers.plain {v : FrontEnd} (answers : v.Answers) {m : Message} {r : Reply}
    (handled : v.handling m = .answers r) : r.Plain := by
  unfold FrontEnd.handling at handled
  split_ifs at handled
  · obtain rfl := Handling.answers.inj handled
    decide
  · obtain rfl := Handling.answers.inj handled
    exact Reply.plain_error (by decide) (by decide)
  · obtain rfl := Handling.answers.inj handled
    obtain ⟨body, ok | unauthorized⟩ := answers.upstreams (HttpMcp.bearerOf m.http.headers)
    · have line : '\r' ∉ "OK".toList := by decide
      rw [ok]
      exact ⟨Int.natCast_nonneg 200, line⟩
    · have line : '\r' ∉ "Unauthorized".toList := by decide
      rw [unauthorized]
      exact ⟨Int.natCast_nonneg 401, line⟩
  · obtain rfl := Handling.answers.inj handled
    exact Reply.plain_error (by decide) (by decide)
  · split at handled
    · cases handled
    · next status body failed =>
      obtain rfl := Handling.answers.inj handled
      -- a check that answers does so with an error
      rcases HttpMcp.onMessage_eq_error failed with error | ⟨⟨e, threw⟩, -⟩
      · exact ⟨Int.le_trans (by decide) error, reasonFor_plain status⟩
      · cases threw
    · split at handled
      · cases handled
      · cases handled
      · next r' answered =>
        obtain rfl := Handling.answers.inj handled
        obtain ⟨trunc, id, res, number, finished⟩ := answers.handle _ r' answered
        exact HttpMcp.plain_finish number finished

namespace Connection

variable {σ : Type} {P : Llhttp σ} {c c' : Connection σ} {v : FrontEnd} {i : Input} {maxBody : ℕ}
  {stream : Bytes} {h : List (TransitionSystem.Step (Connection σ) Input)}

/-- The responses that have been written. -/
def replies (log : List Event) : List Reply :=
  log.filterMap fun | .wrote r => some r | .dispatched _ => none

/-- What happens is that the callback of the pipeline is called with its answers. -/
def Input.Answers : Input → Prop
  | .read _ v | .run v => v.Answers
  | .done answer => ∀ r, answer = .ok r → r.Finished

/-- The responses that have been written are plain. -/
def Plain (c : Connection σ) : Prop := ∀ r ∈ replies c.log, r.Plain

/-- A response is written. -/
theorem Plain.wrote (plain : c.Plain) {r : Reply} (last : r.Plain)
    (same : c'.log = c.log ++ [.wrote r]) : c'.Plain := by
  intro r' member
  rw [same, replies, List.filterMap_append, List.mem_append] at member
  rcases member with before | now
  · exact plain r' before
  · obtain rfl := List.mem_singleton.mp now
    exact last

theorem Plain.dispatch (plain : c.Plain) (answers : v.Answers) : (c.dispatch P v).Plain := by
  unfold Connection.dispatch
  split
  · exact plain
  · dsimp only
    have dispatched : Plain { c with
        session := { c.session with busy := true }
        log := c.log ++ [.dispatched c.session.toMessage] } := by
      intro r member
      rw [replies, List.filterMap_append, List.mem_append] at member
      exact member.elim (plain r) fun none => by cases none
    cases handled : v.handling c.session.toMessage with
    | answers r => exact dispatched.wrote (answers.plain handled) rfl
    | waits => exact dispatched
    | throws => exact dispatched

theorem Plain.onMessage (plain : c.Plain) (answers : v.Answers) : (c.onMessage P v).Plain := by
  unfold Connection.onMessage
  split
  · exact plain
  dsimp only
  split
  · exact plain
  split
  · refine plain.wrote (r := payloadTooLarge) ?_ rfl
    exact Reply.plain_error (by decide) (by decide)
  split
  · exact Plain.dispatch (by exact plain) answers
  · exact Plain.dispatch (by exact plain) answers
  · refine plain.wrote (r := parseError) ?_ rfl
    exact Reply.plain_error (by decide) (by decide)

theorem Plain.step (plain : c.Plain) (taken : c.step P i = some c') (answers : i.Answers) :
    c'.Plain := by
  obtain ⟨-, taken⟩ := act_of_step taken
  cases i with
  | read n v =>
    obtain ⟨-, same⟩ := Option.ite_none_right_eq_some.mp taken
    obtain rfl := Option.some.inj same
    exact Plain.onMessage (by exact plain) answers
  | done answer =>
    obtain ⟨-, same⟩ := Option.ite_none_right_eq_some.mp taken
    obtain rfl := Option.some.inj same
    cases answer with
    | ok r =>
      obtain ⟨trunc, id, res, number, finished⟩ := answers r rfl
      exact plain.wrote (HttpMcp.plain_finish number finished) rfl
    | error e => exact plain
  | run v =>
    obtain ⟨-, same⟩ := Option.ite_none_right_eq_some.mp taken
    obtain rfl := Option.some.inj same
    exact Plain.onMessage (by exact plain) answers

/-- In every run of a connection, a client that reads the responses by their length reads those that
have been written, all of them and in their order, whatever is in their bodies. -/
theorem decode_of_run (run : (machine P maxBody stream).Run h c)
    (steps : ∀ t ∈ h, t.input.Answers) :
    Reply.decode (replies c.log).length ((replies c.log).flatMap Reply.sendHttp) =
      some (replies c.log) := by
  have plain : c.Plain :=
    run.invariant_where (C := fun t => t.input.Answers)
      (by
        rintro _ rfl r member
        cases member)
      (fun _ taken answers plain => plain.step taken answers) steps
  exact Reply.decode_sendHttp plain

/-- An answer of the pipeline whose body looks like the start of a response. -/
def misleading : Response :=
  .ofBody (.ofMembers [("text", .str "\r\n\r\nHTTP/1.1 200 OK\r\nContent-Length: 0\r\n\r\n")])

/-- What is written of it. -/
def misleadingReply : Reply where
  status := 200
  reason := "OK"
  body := "\x7b\"id\":1,\"jsonrpc\":\"2.0\",\"result\":\x7b\"text\":\"\\r\\n\\r\\n" ++
    "HTTP/1.1 200 OK\\r\\nContent-Length: 0\\r\\n\\r\\n\"\x7d\x7d"

theorem answers_patient : PipeliningExample.patient.Answers where
  handle := by
    intro req r answered
    cases answered
  upstreams bearer := ⟨"", .inl rfl⟩

open PipeliningExample in
/-- A response of the pipeline, whose body looks like a response, and one behind it. -/
theorem decode_of_run_misleading : ∃ c : Connection Place, (replies c.log).length = 2 ∧
    Reply.decode 2 ((replies c.log).flatMap Reply.sendHttp) = some (replies c.log) := by
  have finished : HttpMcp.finish (fun _ => 0) (.int 1) misleading = .ok misleadingReply := by
    have body : (HttpMcp.wrapRpc (.int 1) misleading).dump = .ok misleadingReply.body := by
      decide
    rw [HttpMcp.finish, body]
    rfl
  obtain ⟨h, c, run, answered, reached⟩ :=
    (machine parser 200 [toolsList, healthz].flatten).exists_run_of (q := Input.Answers)
      [.read 100 patient, .read (toolsList.length - 90) patient, .read 15 patient,
        .done (.ok misleadingReply), .run patient, .run patient]
      (fun _ _ => true) (fun c => (replies c.log).length = 2) (by
        intro i member
        simp only [List.mem_cons, List.not_mem_nil, or_false] at member
        rcases member with rfl | rfl | rfl | rfl | rfl | rfl
        · exact answers_patient
        · exact answers_patient
        · exact answers_patient
        · rintro _ ⟨⟩
          exact ⟨_, _, _, by decide, finished⟩
        · exact answers_patient
        · exact answers_patient) rfl
      (by decide +kernel)
  have two : (replies c.log).length = 2 := by simpa using reached
  have decoded := decode_of_run run fun t member => (answered t member).2
  rw [two] at decoded
  exact ⟨c, two, decoded⟩

end Connection

end Perfacet
