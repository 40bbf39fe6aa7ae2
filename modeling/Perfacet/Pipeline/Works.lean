import Perfacet.Govern.Limits
import Perfacet.Pipeline.Effects

/-!
# What the code works on

Only `handle` receives a request. All other code works on requests that have been received: it adds
to the log, but no request, and it grants slots only below the limits of the governor. This is said
once of every piece of code, since all of it is made of the same few.

## Main definitions

* `PipelineState.Works` — a piece of code works on what has been received

## Main results

* `PipelineState.works_step` — so does every step but the arrival of a request and a list of tools
* `PipelineState.works_of_handle` — and `handle`, from the arrival on
-/

namespace Perfacet

variable {env : Env} {s s' s'' : PipelineState} {c : ℕ} {call : Call}

/-- The arrival of a request. -/
def PipelineEvent.arrival : PipelineEvent → Bool
  | .request _ _ => true
  | _ => false

/-- A request comes in. -/
def PipelineInput.asks : PipelineInput → Bool
  | .handle _ _ => true
  | _ => false

/-- A list of tools comes in. -/
def PipelineInput.lists : PipelineInput → Bool
  | .toolsListed _ _ => true
  | _ => false

namespace PipelineState

/-- A piece of code receives no request, and grants slots only below the limits. -/
structure Works (s s' : PipelineState) : Prop where
  next : s'.nextRequest = s.nextRequest
  log : Grows (fun e => e.arrival = false) s.log s'.log
  gov : s.gov.Grants s'.gov

namespace Works

theorem of_eq (next : s'.nextRequest = s.nextRequest) (log : s'.log = s.log)
    (gov : s'.gov = s.gov) : Works s s' :=
  ⟨next, log ▸ .refl _, gov ▸ .refl _⟩

theorem refl (s : PipelineState) : Works s s := of_eq rfl rfl rfl

theorem trans (h : Works s s') (h' : Works s' s'') : Works s s'' :=
  ⟨h'.next.trans h.next, h.log.trans h'.log, h.gov.trans h'.gov⟩

/-- Something is logged that is no request. -/
theorem emit (s : PipelineState) {e : PipelineEvent} (other : e.arrival = false) :
    Works s (s.emit e) :=
  ⟨rfl, (Grows.refl s.log).cons other, .refl _⟩

/-- Only the governor changes. -/
theorem of_grants (s : PipelineState) {gov : LocalGovernor Waiting} (grants : s.gov.Grants gov) :
    Works s { s with gov := gov } :=
  ⟨rfl, .refl _, grants⟩

theorem foldl {α : Type*} {f : PipelineState → α → PipelineState}
    (each : ∀ s x, Works s (f s x)) (s : PipelineState) (xs : List α) : Works s (xs.foldl f s) := by
  induction xs generalizing s with
  | nil => exact .refl s
  | cons x xs ih => exact (each s x).trans (ih _)

end Works

/-! ## Spans and answers -/

theorem works_endSpan (s : PipelineState) (ctx : TraceContext) (klass : FailureClass)
    (ms : UInt64) : Works s (s.endSpan ctx klass ms) := by
  unfold endSpan
  split <;> exact .of_eq rfl rfl rfl

theorem works_finish (s : PipelineState) (fin : Finish) (r : Response) (now : UInt64) :
    Works s (s.finish fin r now) := by
  unfold finish
  exact ((works_endSpan ..).trans (works_endSpan ..)).trans (.emit _ rfl)

theorem works_startSpan (env : Env) (s : PipelineState) (req : Request) (spanName : String)
    (now : UInt64) : Works s (s.startSpan env req spanName now).1 := by
  obtain ⟨n, tracer, ctx, started⟩ := startSpan_eq env s req spanName now
  rw [started]
  exact .of_eq rfl rfl rfl

/-! ## The life of a call -/

theorem works_respond (s : PipelineState) (call : Call) (r : Response) (clk : Clock) :
    Works s (s.respond call r clk).1 := by
  unfold respond
  split
  · exact .refl s
  · exact works_finish ..

theorem works_cancelWait (s : PipelineState) (c : ℕ) (call : Call) (clk : Clock) :
    Works s (s.cancelWait c call clk) := by
  have told := works_respond s { call with cancelled := true } cancelledResponse clk
  unfold cancelWait
  dsimp only
  refine (told.trans ?_).trans (.emit _ rfl)
  split <;> exact .of_eq rfl rfl rfl

theorem works_answerTask (s : PipelineState) (taskId : String) (now : UInt64) :
    Works s (s.answerTask taskId now).1 := by
  unfold answerTask
  dsimp only
  split <;> exact .of_eq rfl rfl rfl

theorem works_promoteTask (env : Env) (s : PipelineState) (c : ℕ) (call : Call) (clk : Clock) :
    Works s (s.promoteTask env c call clk).1 := by
  unfold promoteTask
  split
  · dsimp only [draw]
    generalize MemTaskStore.insert _ _ _ = inserted
    obtain ⟨store, stored⟩ := inserted
    cases stored with
    | true => exact .of_eq rfl rfl rfl
    | false => exact .of_eq rfl rfl rfl
  · exact .refl s

/-- A call responds and is written back. -/
theorem works_put_respond (s : PipelineState) (c : ℕ) (call : Call) (r : Response)
    (clk : Clock) : Works s ((s.respond call r clk).1.put c (s.respond call r clk).2) :=
  (works_respond s call r clk).trans (.of_eq rfl rfl rfl)

theorem works_onPromote (env : Env) (s : PipelineState) (c : ℕ) (call : Call) (clk : Clock) :
    Works s (s.onPromote env c call clk) := by
  unfold onPromote
  split
  · exact .of_eq rfl rfl rfl
  split
  · have promoted := works_promoteTask env s c call clk
    generalize s.promoteTask env c call clk = out at promoted ⊢
    obtain ⟨s₁, call₁, stored⟩ := out
    refine promoted.trans ?_
    cases stored with
    | true => exact (works_answerTask ..).trans (works_put_respond ..)
    | false => exact works_put_respond ..
  · exact works_put_respond ..

theorem works_fireAttempt (env : Env) (s : PipelineState) (c : ℕ) (call : Call)
    (decided : Option UInt64) (clk : Clock) : Works s (s.fireAttempt env c call decided clk) := by
  unfold fireAttempt
  split
  · exact .of_eq rfl rfl rfl
  · dsimp only
    generalize (if call.attempt + 1 = 1 then _ else _ : Call) = call'
    have started := works_startSpan env s { call'.req with trace := call'.trace } "upstream" (clk 0)
    generalize s.startSpan env { call'.req with trace := call'.trace } "upstream" (clk 0) = out
      at started ⊢
    obtain ⟨s₁, upTrace⟩ := out
    refine started.trans ⟨rfl, ?_, .refl _⟩
    exact (Grows.refl s₁.log).cons rfl

theorem works_settle (s : PipelineState) (c : ℕ) (call : Call) (r : Response) (clk : Clock) :
    Works s (s.settle c call r clk) := by
  unfold settle
  dsimp only
  generalize (if call.promoteTimer.isSome then _ else _ : Call) = call'
  generalize noted : (if call'.taskId.isEmpty then s else _ : PipelineState) = s₁
  have same : Works s s₁ := by
    rw [← noted]
    split
    · exact .refl s
    · exact .of_eq rfl rfl rfl
  exact same.trans (works_put_respond ..)

theorem works_report (s : PipelineState) (backend : String) (r : Response) (now : UInt64) :
    Works s (s.report backend r now) := by
  unfold report
  split <;> exact .of_eq rfl rfl rfl

theorem works_onUpstream (env : Env) (s : PipelineState) (c : ℕ) (call : Call) (r : Response)
    (clk : Clock) : Works s (s.onUpstream env c call r clk) := by
  unfold onUpstream
  dsimp only
  generalize closed : (if call.upSpanLive then _ else _ : PipelineState) = s₁
  have outcome : Works s s₁ := by
    rw [← closed]
    split
    · exact (Works.emit s rfl).trans (works_endSpan ..)
    · exact .emit s rfl
  refine outcome.trans ?_
  split
  · exact .of_eq rfl rfl rfl
  · generalize s₁.circuit.isOpen call.key.backend (clk 0) = looked
    obtain ⟨circuit, circuitOpen⟩ := looked
    dsimp only
    have looked : Works s₁ { s₁ with circuit := circuit } := .of_eq rfl rfl rfl
    have reported := looked.trans
      (works_report { s₁ with circuit := circuit } call.key.backend r (clk 1))
    split
    · exact reported.trans (works_fireAttempt ..)
    · exact reported.trans (works_settle ..)

theorem works_releasePermit (s : PipelineState) (permit : ToolKey × String) :
    Works s (s.releasePermit permit) :=
  ⟨rfl, .refl _, .releaseSlot ..⟩

theorem works_destroy (s : PipelineState) (c : ℕ) (call : Call) (clk : Clock) :
    Works s (s.destroy c call clk) := by
  unfold destroy
  dsimp only
  generalize closed : (if call.upSpanLive then _ else s : PipelineState) = s₁
  have ended : Works s s₁ := by
    rw [← closed]
    split
    · exact works_endSpan ..
    · exact .refl s
  have told := works_respond s₁ call cancelledResponse (clk.after 1)
  generalize s₁.respond call cancelledResponse (clk.after 1) = out at told ⊢
  obtain ⟨s₂, call₂⟩ := out
  refine (ended.trans told).trans (Works.trans ?_ (works_releasePermit ..))
  exact ⟨rfl, (Grows.refl s₂.log).cons rfl, .refl _⟩

/-! ## Admission -/

theorem works_rejected (s : PipelineState) (w : Waiting) (now : UInt64) :
    Works s (s.rejected w now) := by
  have counted : Works s
      { s with counters := { s.counters with throttled := s.counters.throttled + 1 } } :=
    .of_eq rfl rfl rfl
  exact counted.trans (works_finish ..)

theorem works_refused (s : PipelineState) (w : Waiting) (circuitOpen : Bool) (now : UInt64) :
    Works s (s.refused w circuitOpen now) := by
  unfold refused
  dsimp only
  generalize counted : (if circuitOpen then _ else s : PipelineState) = s₁
  have same : Works s s₁ := by
    rw [← counted]
    split
    · exact .of_eq rfl rfl rfl
    · exact .refl s
  exact same.trans ((works_finish ..).trans (works_releasePermit ..))

theorem works_startCall (env : Env) (s : PipelineState) (w : Waiting) (summary : String)
    (now : UInt64) (clk : Clock) : Works s (s.startCall env w summary now clk) := by
  unfold startCall
  dsimp only [draw]
  refine .trans ?_ (works_fireAttempt ..)
  exact ⟨rfl, (Grows.refl s.log).cons rfl, .refl _⟩

/-- Whoever has been admitted keeps the slot, or gives it back at once. -/
theorem works_admitted (env : Env) (s : PipelineState) (w : Waiting) (clk : Clock) :
    Works s (s.admitted env w clk) := by
  unfold admitted
  dsimp only
  generalize s.circuit.isOpen w.key.backend (clk 0) = looked
  obtain ⟨circuit, circuitOpen⟩ := looked
  have same : Works s { s with circuit := circuit } := .of_eq rfl rfl rfl
  refine same.trans ?_
  dsimp only
  split
  · exact works_refused ..
  · split
    · exact .of_eq rfl rfl rfl
    · exact works_startCall ..

theorem works_acquire (env : Env) (s : PipelineState) (w : Waiting) (clk : Clock) :
    Works s (s.acquire env w clk) := by
  have asked := LocalGovernor.Grants.acquire s.gov w.req.who w.key (clk 0 + queueWait env w.key) w
    (clk 1)
  unfold acquire
  generalize s.gov.acquire _ _ _ _ _ = out at asked ⊢
  obtain ⟨gov, admission⟩ := out
  cases admission with
  | go => exact (Works.of_grants s asked).trans (works_admitted ..)
  | queued => exact .of_grants s asked
  | reject => exact (Works.of_grants s asked).trans (works_rejected ..)

/-! ## Requests -/

/-- A client is told of a task. -/
theorem works_tellTask (s : PipelineState) (taskId : String) (now : UInt64) (ctx : TraceContext) :
    Works s (if (s.answerTask taskId now).2.klass = .ok then
        (s.answerTask taskId now).1.setSpan ctx "task_id" taskId
      else (s.answerTask taskId now).1) := by
  have told := works_answerTask s taskId now
  split
  · exact told.trans (.of_eq rfl rfl rfl)
  · exact told

theorem works_duplicateTask (env : Env) (s : PipelineState) (req : Request) (key : ToolKey)
    (hit : InFlightEntry) (orig : Option (ℕ × Call)) (clk : Clock) :
    Works s (s.duplicateTask env req key hit orig clk).1 := by
  unfold duplicateTask
  dsimp only [draw]
  generalize "tsk_" ++ env.randomHex 8 s.draws = id
  generalize MemTaskStore.insert _ _ _ = inserted
  obtain ⟨store, room⟩ := inserted
  cases room with
  | false => exact .of_eq rfl rfl rfl
  | true =>
    simp only [Bool.not_true, Bool.false_eq_true, if_false]
    refine .trans ?_ (works_tellTask _ id (clk 2) req.trace)
    cases orig with
    | none => exact .of_eq rfl rfl rfl
    | some orig => exact .of_eq rfl rfl rfl

theorem works_answerDuplicate (env : Env) (s : PipelineState) (req : Request) (key : ToolKey)
    (hit : InFlightEntry) (clk : Clock) : Works s (s.answerDuplicate env req key hit clk).1 := by
  unfold answerDuplicate
  dsimp only
  generalize noted : PipelineState.setSpan _ req.trace "inflight_id" hit.inflightId = s₁
  have same : Works s s₁ := by
    rw [← noted]
    exact .of_eq rfl rfl rfl
  refine same.trans ?_
  split
  · split
    · exact works_duplicateTask ..
    · exact works_tellTask ..
  · exact .refl s₁

theorem works_handOver (env : Env) (s : PipelineState) (w : Waiting) (clk : Clock) :
    Works s (s.handOver env w clk) := by
  unfold handOver
  dsimp only
  generalize counted : (if w.confirmed then _ else s : PipelineState) = s₁
  have same : Works s s₁ := by
    rw [← counted]
    split
    · exact .of_eq rfl rfl rfl
    · exact .refl s
  refine same.trans ?_
  split
  · exact works_finish ..
  · exact works_acquire ..

theorem works_handleUpstream (env : Env) (s : PipelineState) (req : Request) (key : ToolKey)
    (fin : Finish) (clk : Clock) : Works s (s.handleUpstream env req key fin clk) := by
  unfold handleUpstream
  split
  · exact .emit s rfl
  · dsimp only
    split
    · exact .emit s rfl
    · split
      · exact (works_answerDuplicate ..).trans (works_finish ..)
      · exact works_handOver ..

theorem works_handleBuiltin (env : Env) (s : PipelineState) (req : Request) (key : ToolKey)
    (clk : Clock) : Works s (s.handleBuiltin env req key clk).1 := by
  unfold handleBuiltin
  split
  · split
    · exact .refl s
    · dsimp only
      split
      · exact .refl s
      · split
        · exact .refl s
        · split <;> exact .of_eq rfl rfl rfl
  · split
    · split <;> exact .refl s
    · exact .refl s

theorem works_handleCall (env : Env) (s : PipelineState) (req : Request) (fin : Finish)
    (clk : Clock) : Works s (s.handleCall env req fin clk) := by
  unfold handleCall
  split
  · exact works_finish ..
  · next key _ =>
    split
    · exact works_finish ..
    · exact works_finish ..
    · split
      · have built := works_handleBuiltin env s req key clk
        generalize s.handleBuiltin env req key clk = out at built ⊢
        obtain ⟨s₁, outcome⟩ := out
        cases outcome with
        | ok r => exact built.trans (works_finish ..)
        | error e => exact built.trans (.emit s₁ rfl)
      · exact works_handleUpstream ..

theorem works_cancelTask (s : PipelineState) (taskId : String) (who : Principal) (fin : Finish)
    (clk : Clock) : Works s (s.cancelTask taskId who fin clk) := by
  have written (store : MemTaskStore) : Works s { s with tasks := store } := .of_eq rfl rfl rfl
  unfold cancelTask
  rcases s.getTask_cases taskId who (clk 0) with ⟨-, looked⟩ | ⟨t, -, -, looked⟩ <;>
    rw [looked] <;> dsimp only
  · exact (written (s.tasks.sweep (clk 0))).trans (works_finish ..)
  · generalize (s.tasks.sweep (clk 0)).updateStatus taskId .cancelled .null (clk 1) = store
    refine .trans ?_ (works_finish ..)
    split
    · next c _ =>
      split
      · next call _ =>
        exact (written store).trans (works_cancelWait { s with tasks := store } c call _)
      · exact written store
    · exact written store

theorem works_dispatch (env : Env) (s : PipelineState) (req : Request) (fin : Finish)
    (clk : Clock) : Works s (s.dispatch env req fin clk) := by
  have swept : Works s { s with tasks := s.tasks.sweep (clk 0) } := .of_eq rfl rfl rfl
  unfold dispatch
  split
  · exact works_finish ..
  split
  · exact works_finish ..
  split
  · rcases s.getTask_cases req.name req.who (clk 0) with ⟨-, looked⟩ | ⟨t, -, -, looked⟩ <;>
      rw [looked] <;>
      exact swept.trans (works_finish { s with tasks := s.tasks.sweep (clk 0) } ..)
  split
  · exact works_cancelTask ..
  split
  · exact works_handleCall ..
  · exact works_finish ..

/-- A request is received, and then worked on. -/
theorem works_handle (env : Env) (s : PipelineState) (req : Request) (clk : Clock) :
    Works { s with
        nextRequest := s.nextRequest + 1, log := .request s.nextRequest req :: s.log }
      (s.handle env req clk) := by
  obtain ⟨n, tracer, ctx, fin, opened, -⟩ := received_eq env s req clk
  have started : Works
      { s with nextRequest := s.nextRequest + 1, log := .request s.nextRequest req :: s.log }
      { s with
        nextRequest := s.nextRequest + 1
        log := .request s.nextRequest req :: s.log
        draws := s.draws + n
        tracer := tracer } := .of_eq rfl rfl rfl
  unfold handle
  rw [opened]
  exact started.trans (works_dispatch ..)

/-! ## Shutdown -/

theorem works_cancelLive (clk : String → Clock) (s : PipelineState) (inflightId : String) :
    Works s (s.cancelLive clk inflightId) := by
  unfold cancelLive
  split
  · exact works_cancelWait ..
  · exact .refl s

theorem works_requestStop (s : PipelineState) (order : List String) (clk : String → Clock) :
    Works s (s.requestStop order clk) := by
  unfold requestStop
  refine .trans ?_ (.foldl (works_cancelLive clk) _ order)
  exact ⟨rfl, (Grows.refl s.log).cons rfl, .refl _⟩

theorem works_rejectQueue (s : PipelineState) (ts : String) (clk : Clock) :
    Works s (s.rejectQueue ts clk) := by
  unfold rejectQueue
  refine .foldl (fun s w => ?_) s _
  have turn := LocalGovernor.Grants.rejectTurn s.gov ts
  generalize s.gov.rejectTurn ts = out at turn ⊢
  obtain ⟨gov, head⟩ := out
  cases head with
  | none => exact .refl s
  | some head => exact (Works.of_grants s turn).trans (works_rejected ..)

theorem works_rejectAllQueued (s : PipelineState) (order : List String) (clk : String → Clock) :
    Works s (s.rejectAllQueued order clk) := by
  unfold rejectAllQueued
  exact .foldl (fun s ts => works_rejectQueue s ts (clk ts)) s order

/-! ## Steps -/

theorem works_runTop (queues : s.gov.QueuesOk) {clk : Clock}
    (ran : s.runTop env clk = some s') : Works s s' := by
  unfold runTop at ran
  split at ran
  · next ts below _ =>
    have turn := LocalGovernor.Grants.tryDequeueTurn queues ts (clk 0)
    split at ran
    · obtain rfl := Option.some.inj ran
      exact .of_eq rfl rfl rfl
    · next gov w done =>
      obtain rfl := Option.some.inj ran
      rw [done] at turn
      exact (Works.of_grants s turn).trans (works_rejected ..)
    · next gov w done =>
      obtain rfl := Option.some.inj ran
      rw [done] at turn
      have popped : Works s { s with gov := gov, stack := below } := ⟨rfl, .refl _, turn⟩
      exact popped.trans (works_admitted ..)
  · next c r below _ =>
    have popped : Works s { s with stack := below } := .of_eq rfl rfl rfl
    split at ran
    · obtain rfl := Option.some.inj ran
      exact popped.trans (works_onUpstream ..)
    · cases ran
  · next c below _ =>
    have popped : Works s { s with stack := below } := .of_eq rfl rfl rfl
    dsimp only at ran
    split at ran
    · obtain rfl := Option.some.inj ran
      split
      · exact popped.trans (works_destroy ..)
      · exact popped
    · cases ran
  · cases ran

/-- Every other step works on what has been received. -/
theorem works_step (queues : s.gov.QueuesOk) {input : PipelineInput} (own : input.asks = false)
    (quiet : input.lists = false) (step : s.step env input = some s') : Works s s' := by
  have attempt := (Option.filter_eq_some_iff.mp step).1
  cases input with
  | handle => cases own
  | toolsListed => cases quiet
  | run clk => exact works_runTop queues attempt
  | upstream c r clk =>
    simp only [PipelineState.attempt] at attempt
    split at attempt
    · obtain ⟨-, taken⟩ := Option.ite_none_right_eq_some.mp attempt
      obtain rfl := Option.some.inj taken
      exact works_onUpstream ..
    · cases attempt
  | drop c | abandon c =>
    simp only [PipelineState.attempt] at attempt
    split at attempt
    · obtain ⟨-, taken⟩ := Option.ite_none_right_eq_some.mp attempt
      obtain rfl := Option.some.inj taken
      exact .of_eq rfl rfl rfl
    · cases attempt
  | backendReturns =>
    simp only [PipelineState.attempt] at attempt
    split at attempt
    · obtain rfl := Option.some.inj attempt
      exact .of_eq rfl rfl rfl
    · cases attempt
  | promote c clk =>
    simp only [PipelineState.attempt] at attempt
    have pushed : Works s { s with stack := .unref c :: s.stack } := .of_eq rfl rfl rfl
    split at attempt
    · obtain ⟨-, taken⟩ := Option.ite_none_right_eq_some.mp attempt
      obtain rfl := Option.some.inj taken
      exact pushed.trans (works_onPromote ..)
    · cases attempt
  | queueTimer id clk =>
    obtain ⟨-, taken⟩ := Option.ite_none_right_eq_some.mp attempt
    split at taken
    · next gov w fired =>
      obtain rfl := Option.some.inj taken
      exact (Works.of_grants s (.expire queues fired)).trans (works_rejected ..)
    · next gov fired =>
      obtain rfl := Option.some.inj taken
      exact .of_grants s (.expire queues fired)
    · cases taken
  | requestStop calls tools clk rejects =>
    obtain ⟨-, taken⟩ := Option.ite_none_right_eq_some.mp attempt
    obtain rfl := Option.some.inj taken
    exact (works_requestStop ..).trans (works_rejectAllQueued ..)
  | probeSuccess | health | grants =>
    obtain ⟨-, taken⟩ := Option.ite_none_right_eq_some.mp attempt
    obtain rfl := Option.some.inj taken
    exact .of_eq rfl rfl rfl

/-- Tools are listed. -/
theorem eq_of_lists {input : PipelineInput} (lists : input.lists = true)
    (step : s.step env input = some s') : ∃ index backend tools,
      s' = { s with index := index, gov := s.gov.onToolsListed backend tools } := by
  have attempt := (Option.filter_eq_some_iff.mp step).1
  cases input with
  | toolsListed backend tools =>
    obtain ⟨-, taken⟩ := Option.ite_none_right_eq_some.mp attempt
    exact ⟨_, backend, _, (Option.some.inj taken).symm⟩
  | _ => cases lists

/-- Only requests are counted as requests. -/
theorem nextRequest_of_step (queues : s.gov.QueuesOk) {input : PipelineInput}
    (own : input.asks = false) (step : s.step env input = some s') :
    s'.nextRequest = s.nextRequest := by
  cases lists : input.lists with
  | false => exact (works_step queues own lists step).next
  | true =>
    obtain ⟨index, backend, tools, rfl⟩ := eq_of_lists lists step
    rfl

/-- A request is logged before anything that comes of it. -/
theorem works_of_handle {req : Request} {clk : Clock}
    (step : s.step env (.handle req clk) = some s') :
    Works { s with
        nextRequest := s.nextRequest + 1, log := .request s.nextRequest req :: s.log } s' := by
  rw [handle_of_step step]
  exact works_handle env s req clk

end PipelineState

end Perfacet
