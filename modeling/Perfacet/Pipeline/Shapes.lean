import Perfacet.Backend.HttpMcpBackend
import Perfacet.Frontend.Gate
import Perfacet.Pipeline.Effects

/-!
# Errors are marked as errors

What the pipeline answers has a mark that says whether the body is a JSON-RPC error, and the front
end goes by the mark. The gateway's own answers are marked as they should be. An outcome that is a
failure is marked by the backend; if it is told to the client, the body is replaced by a
`CallToolResult`, and the mark stays.

## Main definitions

* `Shaped` — the mark of an answer agrees with its body
* `PipelineState.misreports` — a failure of an upstream is told to a client

## Main results

* `response_shape_iff` — when all answers of a run are shaped
-/

namespace Perfacet

variable {env : Env} {parser : JsonParser} {c rid : ℕ} {call : Call} {r r' : Response}
  {h : List (TransitionSystem.Step PipelineState PipelineInput)} {s s' : PipelineState}
  {input : PipelineInput}

/-- An answer is marked as an error only if it is a JSON-RPC error and no `CallToolResult`, so what
the front end sends as an error has a code and a message; and an answer that is not marked is no
JSON-RPC error, unless an upstream has returned it as a result. -/
structure Shaped (input : PipelineInput) (r : Response) : Prop where
  error : r.isError = true → r.body.IsRpcError ∧ ¬ r.body.IsToolResult
  result : r.isError = false → ¬ r.body.IsRpcError ∨
    ∃ c r₀ clk, input = .upstream c r₀ clk ∧ r₀.isError = false ∧ r.body = r₀.body
  wrapped : ∀ id err, (HttpMcp.wrapRpc id r).field? "error" = some err → err.IsRpcError

/-- Only what is marked as an error is sent as one. -/
theorem error_of_wrapRpc {id err : Json} (sent : (HttpMcp.wrapRpc id r).field? "error" = some err) :
    r.isError = true ∧ err = r.body := by
  unfold HttpMcp.wrapRpc at sent
  dsimp only at sent
  split at sent
  · next failed =>
    refine ⟨failed, ?_⟩
    rw [Json.field?_set _ (by rfl), if_pos rfl] at sent
    exact (Option.some.inj sent).symm
  · rw [Json.field?_set _ (by rfl), if_neg (by decide)] at sent
    simp [Json.ofMembers, Json.field?, Json.lookup_setField] at sent

theorem Shaped.of (error : r.isError = true → r.body.IsRpcError ∧ ¬ r.body.IsToolResult)
    (result : r.isError = false → ¬ r.body.IsRpcError ∨
      ∃ c r₀ clk, input = .upstream c r₀ clk ∧ r₀.isError = false ∧ r.body = r₀.body) :
    Shaped input r where
  error := error
  result := result
  wrapped := by
    intro id err sent
    obtain ⟨failed, rfl⟩ := error_of_wrapRpc sent
    exact (error failed).1

theorem Response.Consistent.shaped (h : r.Consistent) : Shaped input r :=
  .of h.error fun result => .inl (h.result result)

namespace PipelineState

/-- A failure of an upstream is told to a client: the call still waits for its outcome and is not
going to try again. -/
def misreports (env : Env) (s : PipelineState) : PipelineInput → Bool
  | .upstream c r clk =>
    match s.calls.lookup c with
    | some call =>
      r.isError && !call.cancelled && !call.responded &&
        !retries env call.delivered r (s.circuit.isOpen call.key.backend (clk 0)).2 (clk 2)
    | none => false
  | _ => false

/-- A step with an outcome is what `Call::onUpstream` makes of it. -/
theorem upstream_of_step {clk : Clock} (step : s.step env (.upstream c r clk) = some s') :
    ∃ call, s.calls.lookup c = some call ∧ 0 < call.pending ∧
      s' = s.onUpstream env c call.delivered r clk := by
  have attempt := (Option.filter_eq_some_iff.mp step).1
  simp only [PipelineState.attempt] at attempt
  split at attempt
  · next call listening stored =>
    split at attempt
    · next waits => exact ⟨call, stored, waits, (Option.some.inj attempt).symm⟩
    · cases attempt
  · cases attempt

/-- What is relayed of an outcome that is no failure is shaped. -/
theorem Relays.shaped {clk : Clock} (relays : Relays r r')
    (outcome : HttpMcpBackend.Outcome parser r) (result : r.isError = false) :
    Shaped (.upstream c r clk) r' := by
  refine .of (fun failed => ?_) fun _ => .inr ⟨c, r, clk, rfl, result, ?_⟩
  · rw [relays.isError, result] at failed
    cases failed
  · rw [relays.body, outcome.klass_eq_ok result]
    rfl

/-- What is relayed of a failure is not. -/
theorem Relays.not_shaped (relays : Relays r r') (outcome : HttpMcpBackend.Outcome parser r)
    (failed : r.isError = true) : ¬ Shaped input r' := by
  intro shaped
  obtain ⟨other, error, plain⟩ := outcome.failure failed
  have marked : r'.isError = true := relays.isError.trans failed
  have content : r.body.contains "content" = false := by
    simpa [Json.IsToolResult, Json.contains] using plain
  have text := relays.body
  rw [if_pos ⟨other, by rw [content, Bool.and_false]; rfl⟩] at text
  refine (shaped.error marked).2 ?_
  rw [text, Json.IsToolResult, (Json.field?_callToolText ..).2]
  rfl

/-- All answers of a step that misreports nothing are shaped. -/
theorem shaped_of_step (regular : s.Regular env) (step : s.step env input = some s')
    (served : ∀ c r clk, input = .upstream c r clk → HttpMcpBackend.Outcome parser r)
    (right : s.misreports env input = false) (answered : .answered rid r ∈ s'.log)
    (new : .answered rid r ∉ s.log) : Shaped input r := by
  by_cases outcome : ∃ c r₀ clk, input = .upstream c r₀ clk
  · obtain ⟨c, r₀, clk, rfl⟩ := outcome
    obtain ⟨call, stored, waits, rfl⟩ := upstream_of_step step
    have told := (answers_onUpstream s c call.delivered r₀ clk).log.mem answered
    obtain ⟨relays, silent, runs, last⟩ := told.resolve_right new rid r rfl
    have result : r₀.isError = false := by
      by_contra failed
      rw [Bool.not_eq_false] at failed
      have silent : call.responded = false := silent
      have runs : call.cancelled = false := runs
      have last : retries env call.delivered r₀ (s.circuit.isOpen call.key.backend (clk 0)).2
        (clk 2) = false := last
      simp [misreports, stored, failed, silent, runs, last] at right
    exact relays.shaped (served c r₀ clk rfl) result
  · have said := (step_effect regular step).answers.log.mem answered
    refine (((said.resolve_right new) rid r rfl).fits fun c r₀ clk same => ?_).shaped
    exact outcome ⟨c, r₀, clk, same⟩

/-- A call that has not responded responds. -/
theorem log_respond (s : PipelineState) (call : Call) (r : Response) (clk : Clock)
    (silent : call.responded = false) : ∃ r', r.Alike r' ∧
      (s.respond call r clk).1.log = .answered call.onDone.rid r' :: s.log := by
  unfold respond
  rw [if_neg (by rw [silent]; simp)]
  dsimp only
  exact ⟨stamp call.onDone { r with gatewayMs := clk 0 - call.t0 } (clk 1), ⟨rfl, rfl⟩,
    congrArg Core.log (core_finish s call.onDone _ (clk 1) .empty)⟩

/-- The end of an outcome is told to the client that waits for it. -/
theorem log_settle (s : PipelineState) (c : ℕ) (call : Call) (r : Response) (clk : Clock)
    (silent : call.responded = false) : ∃ r', Relays r r' ∧
      (s.settle c call r clk).log = .answered call.onDone.rid r' :: s.log := by
  unfold settle
  dsimp only
  generalize built : (if call.promoteTimer.isSome then _ else _ : Call) = call'
  have same : call'.responded = call.responded ∧ call'.onDone = call.onDone := by
    rw [← built]
    split <;> exact ⟨rfl, rfl⟩
  generalize written : (if call'.taskId.isEmpty then s else _ : PipelineState) = s'
  have log : s'.log = s.log := by
    rw [← written]
    split <;> rfl
  generalize told : (if r.klass ≠ .ok ∧ !(r.body.isObject && r.body.contains "content") then _
    else r : Response) = r₁
  obtain ⟨r', alike, logged⟩ := log_respond s' call' r₁ (clk.after 1) (same.1.trans silent)
  rw [log, same.2] at logged
  refine ⟨r', ⟨?_, ?_⟩, logged⟩
  · rw [alike.isError, ← told]
    split <;> rfl
  · rw [alike.body, ← told]
    split <;> rfl

/-- A step that misreports a failure tells the client something that is not shaped. -/
theorem not_shaped_of_step (regular : s.Regular env) (step : s.step env input = some s')
    (served : ∀ c r clk, input = .upstream c r clk → HttpMcpBackend.Outcome parser r)
    (wrong : s.misreports env input = true) :
    ∃ rid r, .answered rid r ∈ s'.log ∧ .answered rid r ∉ s.log ∧ ¬ Shaped input r := by
  cases input with
  | upstream c r clk =>
    obtain ⟨call, stored, waits, rfl⟩ := upstream_of_step step
    simp only [misreports, stored, Bool.and_eq_true, Bool.not_eq_true'] at wrong
    obtain ⟨⟨⟨failed, runs⟩, silent⟩, last⟩ := wrong
    have ended : s.onUpstream env c call.delivered r clk = _ := onUpstream_last s c r clk runs last
    rw [ended]
    obtain ⟨r', relays, logged⟩ := log_settle (s.heard c call.delivered r clk) c
      { call.delivered with upSpanLive := false } r (clk.after 3) silent
    have heard : (s.heard c call.delivered r clk).log = .outcome c r.klass :: s.log :=
      congrArg Core.log (core_heard s c call.delivered r clk .empty)
    rw [logged, heard]
    refine ⟨call.onDone.rid, r', List.mem_cons_self, fun earlier => ?_,
      relays.not_shaped (served c r clk rfl) failed⟩
    -- the call owes its request an answer, so nobody has given one
    have none : answersTo call.onDone.rid s.log = 0 := by
      refine regular.ok.orderly.settled.unanswered (.inr ⟨c, call, stored, ?_⟩)
      simp [Call.owes, silent]
    have once : 0 < answersTo call.onDone.rid s.log :=
      List.countP_pos_iff.mpr ⟨_, earlier, decide_eq_true rfl⟩
    omega
  | _ => cases wrong

end PipelineState

/-- Answers of a run are shaped if and only if no failure of an upstream is told to a client: a
failure is tried again, or comes when nobody waits for it any more. -/
theorem response_shape_iff (run : (Pipeline.machine env).Run h s)
    (served : ∀ t ∈ h, ∀ c r clk, t.input = .upstream c r clk → HttpMcpBackend.Outcome parser r) :
    (∀ t ∈ h, ∀ rid r, .answered rid r ∈ t.post.log → .answered rid r ∉ t.pre.log →
      Shaped t.input r) ↔ ∀ t ∈ h, t.pre.misreports env t.input = false := by
  constructor
  · intro all t member
    obtain ⟨earlier, before, step, -⟩ := run.of_mem member
    by_contra wrong
    rw [Bool.not_eq_false] at wrong
    -- a misreported outcome is answered in the same step
    obtain ⟨rid, r, answered, new, unshaped⟩ := PipelineState.not_shaped_of_step
      (PipelineState.regular_of_run before) step (served t member) wrong
    exact unshaped (all t member rid r answered new)
  · intro right t member rid r answered new
    obtain ⟨earlier, before, step, -⟩ := run.of_mem member
    exact PipelineState.shaped_of_step (PipelineState.regular_of_run before) step
      (served t member) (right t member) answered new

namespace ShapesExample

open PipelineExample HttpMcpBackend

/-- What the upstream answers to a call. -/
def reply : Json := .ofMembers [("id", .int 1), ("jsonrpc", .str "2.0"), ("result", .object)]

theorem allUtf8_reply : reply.allUtf8 = true := by decide

def replyParser : JsonParser := FrontEndExample.parser reply allUtf8_reply

/-- What the upstream is called with. -/
def sent : BackendCall :=
  { method := "tools/call", name := "t", params := .object, metaJson := .object, deadlineMs := 0,
    trace := ⟨"", "", ""⟩ }

/-- The upstream cannot be reached. -/
def unreachable : Response := callBlocking replyParser sent clk {}

/-- The upstream has answered. -/
def answered : Response :=
  callBlocking replyParser sent clk
    { transportOk := true, status := 200, body := String.ofList reply.write }

theorem outcome_unreachable : Outcome replyParser unreachable := by
  refine .called _ _ _ fun parsed err found => ?_
  have none : replyParser.parse "" = none := by decide
  rw [none] at found
  cases found

theorem outcome_answered : Outcome replyParser answered := by
  refine .called _ _ _ fun parsed err found failed => ?_
  have same : replyParser.parse (String.ofList reply.write) = some reply :=
    FrontEndExample.parse_message reply allUtf8_reply
  rw [same] at found
  rw [← Option.some.inj found] at failed
  have none : reply.field? "error" = none := by decide
  rw [none] at failed
  cases failed

/-- Only outcomes that the backend may have. -/
def Served (input : PipelineInput) : Prop :=
  ∀ c r clk, input = .upstream c r clk → Outcome replyParser r

/-- The upstream cannot be reached at first, and then it answers. -/
def retried : List PipelineInput :=
  forwarded (PipelineExample.call "b__t" 1) ++
    [.upstream 0 unreachable clk, .backendReturns, .upstream 0 answered clk]

/-- The upstream cannot be reached, and there is no other attempt. -/
def lost : List PipelineInput :=
  forwarded (PipelineExample.call "b__t" 1) ++ [.upstream 0 unreachable clk, .backendReturns]

end ShapesExample

open PipelineExample ShapesExample

/-- A failure is tried again, and then there is a result. -/
theorem response_shape_iff_retried : ∃ h s, (Pipeline.machine (gateway {})).Run h s ∧
    answersTo 0 s.log = 1 ∧ attemptsOf 0 s.log = 2 ∧
    ∀ t ∈ h, ∀ rid r, .answered rid r ∈ t.post.log → .answered rid r ∉ t.pre.log →
      Shaped t.input r := by
  obtain ⟨h, s, run, checked, reached⟩ := TransitionSystem.exists_run_of (q := Served)
    (M := Pipeline.machine (gateway {})) retried
    (fun s input => !s.misreports (gateway {}) input)
    (fun s => decide (answersTo 0 s.log = 1 ∧ attemptsOf 0 s.log = 2))
    (by simp [retried, forwarded, Served, outcome_unreachable, outcome_answered])
    (start_init _) (by decide +kernel)
  obtain ⟨once, twice⟩ := of_decide_eq_true reached
  exact ⟨h, s, run, once, twice, (response_shape_iff run fun t member => (checked t member).2).mpr
    fun t member => by simpa using (checked t member).1⟩

/-- The upstream cannot be reached twice, and the client gets a `CallToolResult` as an error. -/
theorem failure_misreported : ∃ h s, (Pipeline.machine (gateway {})).Run h s ∧
    (∀ t ∈ h, Served t.input) ∧
    ∃ t ∈ h, ∃ rid r, .answered rid r ∈ t.post.log ∧ .answered rid r ∉ t.pre.log ∧
      ¬ Shaped t.input r := by
  obtain ⟨h, s, run, checked, reached⟩ := TransitionSystem.exists_run_of (q := Served)
    (M := Pipeline.machine (gateway {})) lost (fun _ _ => true)
    (fun s => s.misreports (gateway {}) (.upstream 0 unreachable clk) &&
      (s.step (gateway {}) (.upstream 0 unreachable clk)).isSome)
    (by simp [lost, forwarded, Served, outcome_unreachable]) (start_init _) (by decide +kernel)
  obtain ⟨wrong, some⟩ := Bool.and_eq_true _ _ |>.mp reached
  obtain ⟨s', step⟩ := Option.isSome_iff_exists.mp some
  have served : Served (.upstream 0 unreachable clk) := by
    rintro c r clk ⟨⟩
    exact outcome_unreachable
  refine ⟨_, s', run.next step, List.forall_mem_cons.mpr ⟨served, fun t member =>
    (checked t member).2⟩, _, List.mem_cons_self, ?_⟩
  exact PipelineState.not_shaped_of_step (PipelineState.regular_of_run run) step served wrong

end Perfacet
