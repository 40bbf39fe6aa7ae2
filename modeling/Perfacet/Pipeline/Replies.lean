import Perfacet.Pipeline.Guarantees

/-!
# What the gateway's own answers name

Most answers of the gateway say something that has nothing to do with any task or call, and
most code leaves the task store alone. This module says so of all of it, so that the few
pieces of code that hand out task ids and confirm tokens can be looked at by themselves. It
also says that the gateway's own answers are errors exactly if they are marked as errors.

## Main definitions

* `Json.Nameless` — the body names no task and no call
* `Response.Consistent` — the mark for errors agrees with the body
* `PipelineState.Answers`, `PipelineState.Aside` — what a piece of code answers, and that it
  leaves the store alone and answers without names
-/

namespace Perfacet

/-! ## Bodies -/

namespace Json

/-- The body is no task handle and no task, and no text that ends with a quotation mark, as the
text with a confirm token does. -/
structure Nameless (body : Json) : Prop where
  task : body.field? "taskId" = none
  handle : body.field? "resultType" = none
  token : ∀ text, body ≠ callToolText (text ++ "\"") true

theorem field?_callToolText (text : String) (isError : Bool) :
    (callToolText text isError).field? "isError" = some (.bool isError) ∧
      (callToolText text isError).field? "content" =
        some (.arr [.ofMembers [("type", .str "text"), ("text", .str text)]]) := by
  constructor <;> simp [callToolText, ofMembers, field?, lookup_setField]

theorem unnamed_callToolText (text : String) (isError : Bool) :
    (callToolText text isError).field? "taskId" = none ∧
      (callToolText text isError).field? "resultType" = none := by
  constructor <;> simp [callToolText, ofMembers, field?, lookup_setField]

/-- A body without content is no text at all. -/
theorem nameless_of_content {body : Json} (task : body.field? "taskId" = none)
    (handle : body.field? "resultType" = none) (content : body.field? "content" = none) :
    body.Nameless where
  task := task
  handle := handle
  token := by
    rintro text rfl
    rw [(field?_callToolText _ true).2] at content
    cases content

theorem callToolText_inj {text text' : String} {isError isError' : Bool}
    (same : callToolText text isError = callToolText text' isError') :
    text = text' ∧ isError = isError' := by
  obtain ⟨failed, content⟩ := field?_callToolText text isError
  obtain ⟨failed', content'⟩ := field?_callToolText text' isError'
  rw [same] at failed content
  have items := Option.some.inj (content.symm.trans content')
  have part := (List.cons.inj (Json.arr.inj items)).1
  have said := congrArg (Json.field? · "text") part
  constructor
  · simpa [ofMembers, field?, lookup_setField] using said
  · simpa using failed.symm.trans failed'

theorem nameless_callToolText {text : String} {isError : Bool}
    (plain : isError = false ∨ text.toList.getLast? ≠ some '"') :
    (callToolText text isError).Nameless where
  task := (unnamed_callToolText text isError).1
  handle := (unnamed_callToolText text isError).2
  token := by
    intro text' same
    obtain ⟨rfl, failed⟩ := callToolText_inj same
    rcases plain with worked | plain
    · rw [worked] at failed
      cases failed
    · simp at plain

theorem nameless_text {text : String} (plain : text.toList.getLast? ≠ some '"') (isError : Bool) :
    (callToolText text isError).Nameless :=
  nameless_callToolText (.inr plain)

/-- A result that is no error offers no token, whatever it says. -/
theorem nameless_result (text : String) : (callToolText text false).Nameless :=
  nameless_callToolText (.inl rfl)

theorem nameless_jsonRpcError (code : ℤ) (message : String) (data : Json) :
    (jsonRpcError code message data).Nameless := by
  unfold jsonRpcError
  dsimp only
  split
  · apply nameless_of_content <;> simp [ofMembers, Json.set, field?, lookup_setField]
  · apply nameless_of_content <;> simp [ofMembers, field?, lookup_setField]

end Json

/-- A response is marked as an error exactly if its body is a JSON-RPC error, and then the body
is no `CallToolResult`. -/
structure Response.Consistent (r : Response) : Prop where
  error : r.isError = true → r.body.IsRpcError ∧ ¬ r.body.IsToolResult
  result : r.isError = false → ¬ r.body.IsRpcError

/-- Two responses say the same, and differ in numbers and classes at most. -/
structure Response.Alike (r r' : Response) : Prop where
  body : r'.body = r.body
  isError : r'.isError = r.isError

/-- A response of the gateway that has to do with no task and no call. -/
structure Response.Plain (r : Response) : Prop where
  nameless : r.body.Nameless
  consistent : r.Consistent

namespace Response

variable {r r' : Response}

theorem Consistent.congr (h : r.Consistent) (alike : r.Alike r') : r'.Consistent where
  error := by
    rw [alike.body, alike.isError]
    exact h.error
  result := by
    rw [alike.body, alike.isError]
    exact h.result

theorem Plain.congr (h : r.Plain) (alike : r.Alike r') : r'.Plain where
  nameless := alike.body ▸ h.nameless
  consistent := h.consistent.congr alike

theorem consistent_ofBody {body : Json} (none : body.field? "code" = none) :
    (ofBody body).Consistent where
  error := by rintro ⟨⟩
  result := fun _ => Json.not_isRpcError none

/-- A text that does not end as the text with a confirm token does. -/
theorem plain_text {text : String} (plain : text.toList.getLast? ≠ some '"')
    (klass : FailureClass) : (ofText klass text).Plain where
  nameless := Json.nameless_text plain true
  consistent := ⟨by rintro ⟨⟩, fun _ => Json.not_isRpcError_callToolText text true⟩

theorem plain_result (text : String) : (ofBody (callToolText text false)).Plain where
  nameless := Json.nameless_result text
  consistent := ⟨by rintro ⟨⟩, fun _ => Json.not_isRpcError_callToolText text false⟩

theorem plain_error (klass : FailureClass) (status code : ℤ) (message : String) (data : Json) :
    (ofError klass status (jsonRpcError code message data)).Plain where
  nameless := Json.nameless_jsonRpcError code message data
  consistent := ⟨fun _ => Json.isRpcError_jsonRpcError code message data, by rintro ⟨⟩⟩

end Response

theorem failureClassName_plain (klass : FailureClass) :
    (failureClassName klass).toList.getLast? ≠ some '"' := by
  cases klass <;> decide

namespace PipelineState

variable {env : Env} {s s' s'' : PipelineState} {c : ℕ} {call : Call} {r : Response}
  {p q : ℕ → Response → Prop}

/-! ## Answers -/

/-- A piece of code answers only as `p` says, and what it leaves for a missing backend is a plain
result. -/
structure Answers (p : ℕ → Response → Prop) (s s' : PipelineState) : Prop where
  log : Grows (fun e => ∀ rid r, e = .answered rid r → p rid r) s.log s'.log
  stack : ∀ c r, .onUpstream c r ∈ s'.stack →
    (r.Plain ∧ r.isError = false) ∨ .onUpstream c r ∈ s.stack

namespace Answers

theorem of_eq (log : s'.log = s.log) (stack : s'.stack = s.stack) : Answers p s s' where
  log := log ▸ .refl _
  stack := fun _ _ member => .inr (stack ▸ member)

theorem refl (s : PipelineState) : Answers p s s := of_eq rfl rfl

theorem trans (h : Answers p s s') (h' : Answers p s' s'') : Answers p s s'' where
  log := h.log.trans h'.log
  stack := fun c r member => (h'.stack c r member).elim .inl (h.stack c r)

theorem mono (h : Answers p s s') (weaker : ∀ rid r, p rid r → q rid r) : Answers q s s' where
  log := h.log.mono fun _ holds rid r same => weaker rid r (holds rid r same)
  stack := h.stack

theorem emit (s : PipelineState) {e : PipelineEvent}
    (plain : ∀ rid r, e = .answered rid r → p rid r) :
    Answers p s (s.emit e) where
  log := (Grows.refl s.log).cons plain
  stack := fun _ _ => .inr

end Answers

theorem answers_endSpan (s : PipelineState) (ctx : TraceContext) (klass : FailureClass)
    (latencyMs : UInt64) : Answers p s (s.endSpan ctx klass latencyMs) := by
  unfold endSpan
  split <;> exact .of_eq rfl rfl

/-- What goes out is the response but for its numbers. -/
theorem answers_finish (s : PipelineState) (fin : Finish) (r : Response) (now : UInt64)
    (said : p fin.rid (stamp fin r now)) : Answers p s (s.finish fin r now) := by
  have ended := (answers_endSpan s fin.gateway r.klass (now - fin.t0) (p := p)).trans
    (answers_endSpan _ fin.total r.klass (now - fin.t0))
  refine ended.trans (.emit _ fun rid r' same => ?_)
  cases same
  exact said

theorem answers_startSpan (env : Env) (s : PipelineState) (req : Request) (spanName : String)
    (now : UInt64) : Answers p s (s.startSpan env req spanName now).1 := by
  unfold startSpan
  by_cases new : req.trace.traceId.isEmpty <;> simp only [new] <;> exact .of_eq rfl rfl

/-! ## Code that stays aside -/

/-- The answer to a request is plain. -/
abbrev Plain : ℕ → Response → Prop := fun _ r => r.Plain

/-- The store is left alone, and answers are plain. -/
structure Aside (s s' : PipelineState) : Prop where
  tasks : s'.tasks = s.tasks
  answers : Answers Plain s s'

namespace Aside

theorem refl (s : PipelineState) : Aside s s := ⟨rfl, .refl s⟩

theorem of_eq (tasks : s'.tasks = s.tasks) (log : s'.log = s.log) (stack : s'.stack = s.stack) :
    Aside s s' := ⟨tasks, .of_eq log stack⟩

theorem trans (h : Aside s s') (h' : Aside s' s'') : Aside s s'' :=
  ⟨h'.tasks.trans h.tasks, h.answers.trans h'.answers⟩

end Aside

@[simp] theorem tasks_endSpan (s : PipelineState) (ctx : TraceContext) (klass : FailureClass)
    (latencyMs : UInt64) : (s.endSpan ctx klass latencyMs).tasks = s.tasks :=
  (untouched_endSpan ..).tasks

@[simp] theorem tasks_finish (s : PipelineState) (fin : Finish) (r : Response) (now : UInt64) :
    (s.finish fin r now).tasks = s.tasks :=
  (untouched_finish ..).tasks

theorem alike_stamp (fin : Finish) (r : Response) (now : UInt64) : r.Alike (stamp fin r now) :=
  ⟨rfl, rfl⟩

theorem aside_finish (s : PipelineState) (fin : Finish) (now : UInt64) (plain : r.Plain) :
    Aside s (s.finish fin r now) :=
  ⟨tasks_finish .., answers_finish s fin r now (plain.congr (alike_stamp ..))⟩

@[simp] theorem tasks_respond (s : PipelineState) (call : Call) (r : Response) (clk : Clock) :
    (s.respond call r clk).1.tasks = s.tasks := by
  unfold respond
  split
  · rfl
  · exact tasks_finish ..

theorem answers_respond (s : PipelineState) (call : Call) (r : Response) (clk : Clock)
    (said : call.responded = false → ∀ r', r.Alike r' → p call.onDone.rid r') :
    Answers p s (s.respond call r clk).1 := by
  unfold respond
  split
  · exact .refl s
  · next silent => exact answers_finish _ _ _ _ (said (by simpa using silent) _ ⟨rfl, rfl⟩)

theorem plain_cancelled : (cancelledResponse).Plain := Response.plain_text (by decide) _

theorem plain_unavailable : (Response.ofText .unavailable "upstream unavailable").Plain :=
  Response.plain_text (by decide) _

/-- An attempt answers nobody. -/
theorem answers_fireAttempt (s : PipelineState) (c : ℕ) (call : Call) (decided : Option UInt64)
    (clk : Clock) : Answers p s (s.fireAttempt env c call decided clk) := by
  unfold fireAttempt
  split
  · refine ⟨.refl _, fun c' r member => ?_⟩
    rcases List.mem_cons.mp member with same | older
    · cases same
      exact .inl ⟨plain_unavailable, rfl⟩
    · exact .inr older
  · -- an attempt is logged and the backend entered
    have entered : ∀ (s' : PipelineState) (call' : Call) (e : PipelineEvent),
        Answers p s s' → (∀ rid r, e ≠ .answered rid r) →
        Answers p s { (s'.put c call').emit e with stack := .inBackend c :: s'.stack } := by
      intro s' call' e started plain
      refine started.trans ⟨(Grows.refl _).cons fun rid r same => absurd same (plain rid r), ?_⟩
      exact fun c' r member => .inr (by simpa using member)
    refine entered _ _ _ (answers_startSpan env s _ "upstream" (clk 0)) ?_
    intro rid r same
    cases same

theorem aside_fireAttempt (s : PipelineState) (c : ℕ) (call : Call) (decided : Option UInt64)
    (clk : Clock) : Aside s (s.fireAttempt env c call decided clk) := by
  refine ⟨?_, answers_fireAttempt ..⟩
  unfold fireAttempt
  split
  · rfl
  · dsimp only
    generalize (if call.attempt + 1 = 1 then _ else _ : Call) = call'
    exact (untouched_startSpan s { call'.req with trace := call'.trace } "upstream" (clk 0)).tasks

/-- An outcome is noted, and nobody is answered. -/
theorem answers_heard (s : PipelineState) (c : ℕ) (call : Call) (r : Response) (clk : Clock) :
    Answers p s (s.heard c call r clk) := by
  have same := core_heard s c call r clk .empty
  have log : (s.heard c call r clk).log = .outcome c r.klass :: s.log := congrArg Core.log same
  have stack : (s.heard c call r clk).stack = s.stack := congrArg Core.stack same
  refine ⟨?_, fun c' r' member => .inr (stack ▸ member)⟩
  rw [log]
  exact (Grows.refl s.log).cons fun rid r' event => by cases event

@[simp] theorem tasks_heard (s : PipelineState) (c : ℕ) (call : Call) (r : Response)
    (clk : Clock) : (s.heard c call r clk).tasks = s.tasks := by
  unfold heard report
  split <;> (dsimp only; split) <;> first | rfl | exact tasks_endSpan ..

theorem aside_rejected (s : PipelineState) (w : Waiting) (now : UInt64) :
    Aside s (s.rejected w now) := by
  have counted : Aside s { s with
      counters := { s.counters with throttled := s.counters.throttled + 1 } } :=
    .of_eq rfl rfl rfl
  exact counted.trans (aside_finish _ _ _ (Response.plain_text (by decide) _))

theorem aside_refused (s : PipelineState) (w : Waiting) (circuitOpen : Bool) (now : UInt64) :
    Aside s (s.refused w circuitOpen now) := by
  unfold refused
  dsimp only
  generalize counted : (if circuitOpen then _ else s : PipelineState) = s'
  have first : Aside s s' := by
    rw [← counted]
    split <;> exact .of_eq rfl rfl rfl
  have answered : Aside s' (s'.finish w.onDone (.ofText .unavailable "upstream unavailable") now) :=
    aside_finish _ _ _ plain_unavailable
  refine (first.trans answered).trans ⟨rfl, .refl _, fun c r member => .inr ?_⟩
  simpa [releasePermit] using member

theorem aside_startCall (s : PipelineState) (w : Waiting) (summary : String) (now : UInt64)
    (clk : Clock) : Aside s (s.startCall env w summary now clk) := by
  unfold startCall
  dsimp only [draw]
  refine Aside.trans ?_ (aside_fireAttempt ..)
  refine ⟨rfl, (Grows.refl s.log).cons fun rid r same => ?_, fun c r member => .inr ?_⟩
  · cases same
  · simpa using member

theorem aside_admitted (s : PipelineState) (w : Waiting) (clk : Clock) :
    Aside s (s.admitted env w clk) := by
  unfold admitted
  dsimp only
  have seen : Aside s { s with circuit := (s.circuit.isOpen w.key.backend (clk 0)).1 } :=
    .of_eq rfl rfl rfl
  split
  · exact seen.trans (aside_refused ..)
  · split
    · exact .of_eq rfl rfl rfl
    · exact seen.trans (aside_startCall ..)

theorem aside_acquire (s : PipelineState) (w : Waiting) (clk : Clock) :
    Aside s (s.acquire env w clk) := by
  have governed : ∀ gov, Aside s { s with gov := gov } := fun _ => .of_eq rfl rfl rfl
  unfold acquire
  split
  · exact (governed _).trans (aside_admitted ..)
  · exact governed _
  · exact (governed _).trans (aside_rejected ..)

theorem aside_handOver (s : PipelineState) (w : Waiting) (clk : Clock) :
    Aside s (s.handOver env w clk) := by
  unfold handOver
  dsimp only
  generalize counted : (if w.confirmed then _ else s : PipelineState) = s'
  have first : Aside s s' := by
    rw [← counted]
    split <;> exact .of_eq rfl rfl rfl
  split
  · exact first.trans (aside_finish _ _ _ (Response.plain_error ..))
  · exact first.trans (aside_acquire ..)

theorem aside_destroy (s : PipelineState) (c : ℕ) (call : Call) (clk : Clock) :
    Aside s (s.destroy c call clk) := by
  unfold destroy
  dsimp only
  generalize closed : (if call.upSpanLive then _ else s : PipelineState) = s'
  have first : Aside s s' := by
    rw [← closed]
    split
    · exact ⟨tasks_endSpan .., answers_endSpan ..⟩
    · exact .refl s
  have answered : Aside s' (s'.respond call cancelledResponse (clk.after 1)).1 :=
    ⟨tasks_respond .., answers_respond _ _ _ _ fun _ _ => plain_cancelled.congr⟩
  refine (first.trans answered).trans ⟨rfl, (Grows.refl _).cons ?_, fun c r member => .inr ?_⟩
  · intro rid r same
    cases same
  · exact (List.mem_cons.mp member).resolve_left (by simp)

end PipelineState

end Perfacet
