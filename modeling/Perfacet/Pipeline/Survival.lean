import Perfacet.Pipeline.Endings

/-!
# Texts that keep the process alive

An exception that leaves the event loop ends the process, for all clients. Behind the front end
only the serialiser throws in this way, when it meets a text that is not UTF-8. As long as the
requests bring none, the tracer, the queues and the calls hold none, and every step succeeds.

## Main definitions

* `PipelineState.Sound` — the texts that the pipeline holds are UTF-8, and the process is alive
* `PipelineInput.Legible` — the texts that an input brings are UTF-8

## Main results

* `PipelineState.sound_attempt` — every step keeps it so
* `PipelineState.sound_of_run` — so it is in every run
-/

namespace Perfacet

variable {env : Env} {s s' : PipelineState} {req : Request} {c : ℕ} {call : Call} {w : Waiting}
  {ctx : TraceContext} {r : Response} {now : UInt64}

/-! ## What is held -/

/-- The texts of a request that end up in spans are UTF-8. -/
structure Request.Legible (req : Request) : Prop where
  name : Json.utf8 req.name = true
  agentId : Json.utf8 req.who.agentId = true
  levelName : Json.utf8 req.who.levelName = true

structure Finish.Legible (fin : Finish) : Prop where
  gateway : fin.gateway.Legible
  total : fin.total.Legible

structure Waiting.Legible (w : Waiting) : Prop where
  req : w.req.Legible
  trace : w.req.trace.Legible
  params : w.req.params.allUtf8 = true
  onDone : w.onDone.Legible

structure Call.Legible (call : Call) : Prop where
  req : call.req.Legible
  trace : call.trace.Legible
  onDone : call.onDone.Legible
  upTrace : call.upSpanLive = true → call.upTrace.Legible

namespace PipelineState

/-- The process is alive, and all texts that it may have to serialise in a span are UTF-8. -/
structure Sound (s : PipelineState) : Prop where
  alive : s.terminated = false
  tracer : s.tracer.Sound
  waiters : ∀ {ts w}, w ∈ s.gov.queue ts → w.cb.Legible
  calls : ∀ {c call}, s.calls.lookup c = some call → call.Legible

namespace Sound

theorem of_eq (h : s.Sound) (terminated : s'.terminated = s.terminated)
    (tracer : s'.tracer = s.tracer) (gov : ∀ ts, s'.gov.queue ts = s.gov.queue ts)
    (calls : s'.calls = s.calls) : s'.Sound where
  alive := terminated.trans h.alive
  tracer := tracer ▸ h.tracer
  waiters := fun {ts _} member => h.waiters (gov ts ▸ member)
  calls := fun stored => h.calls (calls ▸ stored)

theorem tasks (h : s.Sound) (store : MemTaskStore) : { s with tasks := store }.Sound :=
  ⟨h.alive, h.tracer, h.waiters, h.calls⟩

theorem emit (h : s.Sound) (e : PipelineEvent) : (s.emit e).Sound :=
  ⟨h.alive, h.tracer, h.waiters, h.calls⟩

theorem setSpan (h : s.Sound) (ctx : TraceContext) {key value : String}
    (plain : Json.utf8 key = true) (fine : Json.utf8 value = true) :
    (s.setSpan ctx key value).Sound :=
  ⟨h.alive, h.tracer.set ctx plain fine, h.waiters, h.calls⟩

theorem put (h : s.Sound) (c : ℕ) (legible : call.Legible) : (s.put c call).Sound := by
  refine ⟨h.alive, h.tracer, h.waiters, fun {c' call'} stored => ?_⟩
  rw [PipelineState.put, UnorderedMap.lookup_insert] at stored
  split at stored
  · exact Option.some.inj stored ▸ legible
  · exact h.calls stored

theorem endSpan (h : s.Sound) (ids : ctx.Legible) (klass : FailureClass) (ms : UInt64) :
    (s.endSpan ctx klass ms).Sound := by
  obtain ⟨t, text, finished, sound⟩ := h.tracer.finish ids klass ms
  unfold PipelineState.endSpan
  rw [finished]
  exact ⟨h.alive, sound, h.waiters, h.calls⟩

theorem finish (h : s.Sound) {fin : Finish} (legible : fin.Legible) (r : Response)
    (now : UInt64) : (s.finish fin r now).Sound :=
  ((h.endSpan legible.gateway ..).endSpan legible.total ..).of_eq rfl rfl (fun _ => rfl) rfl

/-- A new span has legible ids, if the trace that it continues has. -/
theorem startSpan (h : s.Sound) (hex : env.Hex) (legible : req.Legible)
    (traceId : Json.utf8 req.trace.traceId = true) (spanId : Json.utf8 req.trace.spanId = true)
    {spanName : String} (plain : Json.utf8 spanName = true) (now : UInt64) :
    (s.startSpan env req spanName now).1.Sound ∧
      (s.startSpan env req spanName now).2.Legible := by
  unfold PipelineState.startSpan
  by_cases new : req.trace.traceId.isEmpty
  · rw [if_pos new]
    exact ⟨⟨h.alive, h.tracer.start legible.name legible.agentId legible.levelName plain _ _,
      h.waiters, h.calls⟩, hex 16 _, hex 8 _, spanId⟩
  · rw [if_neg new]
    exact ⟨⟨h.alive, h.tracer.start legible.name legible.agentId legible.levelName plain _ _,
      h.waiters, h.calls⟩, traceId, hex 8 _, spanId⟩

/-! ## The life of a call -/

theorem respond (h : s.Sound) (legible : call.Legible) (r : Response) (clk : Clock) :
    (s.respond call r clk).1.Sound ∧ (s.respond call r clk).2.Legible := by
  unfold PipelineState.respond
  split
  · exact ⟨h, legible⟩
  · exact ⟨h.finish legible.onDone .., ⟨legible.req, legible.trace, legible.onDone,
      legible.upTrace⟩⟩

theorem cancelWait (h : s.Sound) (c : ℕ) (legible : call.Legible) (clk : Clock) :
    (s.cancelWait c call clk).Sound := by
  have cancelled : { call with cancelled := true }.Legible :=
    ⟨legible.req, legible.trace, legible.onDone, legible.upTrace⟩
  obtain ⟨sound, legible'⟩ := h.respond cancelled cancelledResponse clk
  unfold PipelineState.cancelWait
  dsimp only
  split
  · exact (sound.put c legible').emit _
  · exact ((sound.tasks _).put c legible').emit _

/-- A call gets a task under an id that was drawn. -/
theorem attachTask (h : s.Sound) (c : ℕ) (legible : call.Legible) {taskId : String}
    (plain : Json.utf8 taskId = true) :
    (s.attachTask c call taskId).1.Sound ∧ (s.attachTask c call taskId).2.Legible := by
  have noted : { s with
      byTask := s.byTask.insert taskId c
      inflight := s.inflight.setTaskId call.inflightId taskId }.Sound :=
    ⟨h.alive, h.tracer, h.waiters, h.calls⟩
  exact ⟨noted.setSpan call.trace (by decide) plain,
    ⟨legible.req, legible.trace, legible.onDone, legible.upTrace⟩⟩

theorem answerTask (h : s.Sound) (taskId : String) (now : UInt64) :
    (s.answerTask taskId now).1.Sound := by
  rw [answerTask_fst]
  exact h.tasks _

theorem promoteTask (h : s.Sound) (hex : env.Hex) (c : ℕ) (legible : call.Legible)
    (clk : Clock) :
    (s.promoteTask env c call clk).1.Sound ∧ (s.promoteTask env c call clk).2.1.Legible := by
  unfold PipelineState.promoteTask
  split
  · dsimp only [draw]
    have drawn := hex.taskId s.draws
    generalize "tsk_" ++ env.randomHex 8 s.draws = id at drawn
    generalize MemTaskStore.insert _ _ _ = inserted
    obtain ⟨store, stored⟩ := inserted
    have noted : { s with draws := s.draws + 1, tasks := store }.Sound :=
      ⟨h.alive, h.tracer, h.waiters, h.calls⟩
    cases stored with
    | true => exact noted.attachTask c legible drawn
    | false => exact ⟨noted, legible⟩
  · exact ⟨h, legible⟩

theorem onPromote (h : s.Sound) (hex : env.Hex) (c : ℕ) (legible : call.Legible) (clk : Clock) :
    (s.onPromote env c call clk).Sound := by
  unfold PipelineState.onPromote
  split
  · exact h.put c legible
  split
  · obtain ⟨sound, legible'⟩ := h.promoteTask hex c legible clk
    revert sound legible'
    generalize s.promoteTask env c call clk = promoted
    obtain ⟨s', call', stored⟩ := promoted
    intro sound legible'
    cases stored with
    | true =>
      obtain ⟨sound', legible''⟩ := (sound.answerTask call'.taskId (clk 2)).respond legible' _ _
      exact sound'.put c legible''
    | false =>
      obtain ⟨sound', legible''⟩ := sound.respond legible' _ _
      exact sound'.put c legible''
  · obtain ⟨sound, legible'⟩ := h.respond legible _ _
    exact sound.put c legible'

/-- An attempt opens a span. -/
theorem fireAttempt (h : s.Sound) (hex : env.Hex) (c : ℕ) (legible : call.Legible)
    (decided : Option UInt64) (clk : Clock) : (s.fireAttempt env c call decided clk).Sound := by
  unfold PipelineState.fireAttempt
  split
  · exact (h.put c legible).of_eq rfl rfl (fun _ => rfl) rfl
  · dsimp only
    generalize armed : (if call.attempt + 1 = 1 then _ else _ : Call) = call'
    have legible' : call'.Legible := by
      rw [← armed]
      split <;> exact ⟨legible.req, legible.trace, legible.onDone, legible.upTrace⟩
    have asked : Request.Legible { call'.req with trace := call'.trace } :=
      ⟨legible'.req.name, legible'.req.agentId, legible'.req.levelName⟩
    obtain ⟨sound, upTrace⟩ := h.startSpan hex asked legible'.trace.traceId legible'.trace.spanId
      (show Json.utf8 "upstream" = true by decide) (clk 0)
    have underway : Call.Legible { call' with
        upTrace := (s.startSpan env { call'.req with trace := call'.trace } "upstream" (clk 0)).2
        upSpanLive := true
        pending := call'.pending + 1 } :=
      ⟨legible'.req, legible'.trace, legible'.onDone, fun _ => upTrace⟩
    have stored := sound.put c underway
    exact ⟨stored.alive, stored.tracer, stored.waiters, stored.calls⟩

/-- An outcome is passed on. -/
theorem settle (h : s.Sound) (c : ℕ) (legible : call.Legible) (r : Response) (clk : Clock) :
    (s.settle c call r clk).Sound := by
  unfold PipelineState.settle
  dsimp only
  generalize disarmed : (if call.promoteTimer.isSome then _ else _ : Call) = call'
  have legible' : call'.Legible := by
    rw [← disarmed]
    split <;> exact ⟨legible.req, legible.trace, legible.onDone, legible.upTrace⟩
  generalize stored : (if call'.taskId.isEmpty then s else _ : PipelineState) = s'
  have sound : s'.Sound := by
    rw [← stored]
    split
    · exact h
    · exact h.tasks _
  obtain ⟨sound', legible''⟩ := sound.respond legible' _ _
  exact sound'.put c legible''

theorem report (h : s.Sound) (backend : String) (r : Response) (now : UInt64) :
    (s.report backend r now).Sound := by
  unfold PipelineState.report
  split <;> exact ⟨h.alive, h.tracer, h.waiters, h.calls⟩

/-- An outcome ends the span of its attempt. -/
theorem onUpstream (h : s.Sound) (hex : env.Hex) (c : ℕ) (legible : call.Legible)
    (r : Response) (clk : Clock) : (s.onUpstream env c call r clk).Sound := by
  unfold PipelineState.onUpstream
  dsimp only
  generalize ended : (if call.upSpanLive then _ else _ : PipelineState) = s'
  have sound : s'.Sound := by
    rw [← ended]
    split
    · next live => exact (h.emit _).endSpan (legible.upTrace live) ..
    · exact h.emit _
  have legible' : { call with upSpanLive := false }.Legible :=
    ⟨legible.req, legible.trace, legible.onDone, fun live => by cases live⟩
  split
  · exact sound.put c ⟨legible.req, legible.trace, legible.onDone, legible'.upTrace⟩
  · generalize s'.circuit.isOpen call.key.backend (clk 0) = looked
    obtain ⟨circuit, circuitOpen⟩ := looked
    have seen : { s' with circuit := circuit }.Sound :=
      ⟨sound.alive, sound.tracer, sound.waiters, sound.calls⟩
    have reported := seen.report call.key.backend r (clk 1)
    split
    · exact reported.fireAttempt hex c legible' _ _
    · exact reported.settle c legible' _ _

theorem releasePermit (h : s.Sound) (permit : ToolKey × String) : (s.releasePermit permit).Sound :=
  ⟨h.alive, h.tracer, h.waiters, h.calls⟩

/-- A call that goes answers, if it has not. -/
theorem destroy (h : s.Sound) (c : ℕ) (legible : call.Legible) (clk : Clock) :
    (s.destroy c call clk).Sound := by
  unfold PipelineState.destroy
  dsimp only
  generalize ended : (if call.upSpanLive then _ else s : PipelineState) = s'
  have sound : s'.Sound := by
    rw [← ended]
    split
    · next live => exact h.endSpan (legible.upTrace live) ..
    · exact h
  obtain ⟨sound', -⟩ := sound.respond legible cancelledResponse (clk.after 1)
  revert sound'
  generalize s'.respond call cancelledResponse (clk.after 1) = responded
  obtain ⟨s'', call'⟩ := responded
  intro sound'
  refine Sound.releasePermit (Sound.emit ?_ _) _
  refine ⟨sound'.alive, sound'.tracer, sound'.waiters, fun {c' call''} stored => ?_⟩
  rw [UnorderedMap.lookup_erase] at stored
  split at stored
  · cases stored
  · exact sound'.calls stored

/-! ## Admission -/

theorem rejected (h : s.Sound) (legible : w.Legible) (now : UInt64) : (s.rejected w now).Sound := by
  have counted : { s with
      counters := { s.counters with throttled := s.counters.throttled + 1 } }.Sound :=
    ⟨h.alive, h.tracer, h.waiters, h.calls⟩
  exact counted.finish legible.onDone ..

theorem refused (h : s.Sound) (legible : w.Legible) (circuitOpen : Bool) (now : UInt64) :
    (s.refused w circuitOpen now).Sound := by
  unfold PipelineState.refused
  dsimp only
  generalize counted : (if circuitOpen then _ else s : PipelineState) = s'
  have sound : s'.Sound := by
    rw [← counted]
    split
    · exact ⟨h.alive, h.tracer, h.waiters, h.calls⟩
    · exact h
  exact (sound.finish legible.onDone ..).releasePermit _

theorem startCall (h : s.Sound) (hex : env.Hex) (legible : w.Legible) (summary : String)
    (now : UInt64) (clk : Clock) : (s.startCall env w summary now clk).Sound := by
  have new : (newCall w (env.randomHex 16 s.draws) (clk 0)).Legible :=
    ⟨legible.req, legible.trace, legible.onDone, fun live => by cases live⟩
  unfold PipelineState.startCall
  dsimp only [draw]
  refine Sound.fireAttempt ?_ hex _ new _ _
  exact ⟨h.alive, h.tracer, h.waiters, h.calls⟩

theorem admitted (h : s.Sound) (hex : env.Hex) (legible : w.Legible) (clk : Clock) :
    (s.admitted env w clk).Sound := by
  obtain ⟨summary, made⟩ := summaryOf_ok legible.params
  unfold PipelineState.admitted
  dsimp only
  generalize s.circuit.isOpen w.key.backend (clk 0) = looked
  obtain ⟨circuit, circuitOpen⟩ := looked
  have seen : { s with circuit := circuit }.Sound := ⟨h.alive, h.tracer, h.waiters, h.calls⟩
  split
  · exact seen.refused legible circuitOpen (clk 1)
  · rw [made]
    exact seen.startCall hex legible summary (clk 0) (clk.after 1)

theorem acquire (h : s.Sound) (hex : env.Hex) (legible : w.Legible) (clk : Clock) :
    (s.acquire env w clk).Sound := by
  unfold PipelineState.acquire
  rcases s.gov.acquire_cases w.req.who w.key (clk 0 + queueWait env w.key) w (clk 1) with
    ⟨-, took⟩ | ⟨-, deadline, -, took⟩ | ⟨-, took⟩
  · rw [took]
    refine Sound.admitted ?_ hex legible _
    exact ⟨h.alive, h.tracer, h.waiters, h.calls⟩
  · rw [took]
    refine ⟨h.alive, h.tracer, fun {ts w'} member => ?_, h.calls⟩
    rw [LocalGovernor.queue_enqueue] at member
    split at member
    · rcases List.mem_append.mp member with older | new
      · exact h.waiters older
      · rw [List.mem_singleton.mp new]
        exact legible
    · exact h.waiters member
  · rw [took]
    exact h.rejected legible _

/-! ## Requests -/

/-- A task handle is noted in a span. -/
theorem noteTask (h : s.Sound) {taskId : String} (plain : Json.utf8 taskId = true)
    (ctx : TraceContext) (now : UInt64) :
    let out := s.answerTask taskId now
    Sound (if out.2.klass = .ok then out.1.setSpan ctx "task_id" taskId else out.1) := by
  dsimp only
  split
  · exact (h.answerTask taskId now).setSpan ctx (by decide) plain
  · exact h.answerTask taskId now

theorem duplicateTask (h : s.Sound) (hex : env.Hex) (req : Request) (key : ToolKey)
    (hit : InFlightEntry) {orig : Option (ℕ × Call)}
    (legible : ∀ c call, orig = some (c, call) → call.Legible) (clk : Clock) :
    (s.duplicateTask env req key hit orig clk).1.Sound := by
  unfold PipelineState.duplicateTask
  dsimp only [draw]
  have drawn := hex.taskId s.draws
  generalize "tsk_" ++ env.randomHex 8 s.draws = id at drawn
  generalize MemTaskStore.insert _ _ _ = inserted
  obtain ⟨store, stored⟩ := inserted
  have entered : { s with draws := s.draws + 1, tasks := store }.Sound :=
    ⟨h.alive, h.tracer, h.waiters, h.calls⟩
  cases stored with
  | false => exact entered
  | true =>
    simp only [Bool.not_true, Bool.false_eq_true, if_false]
    cases orig with
    | none =>
      refine Sound.noteTask ?_ drawn req.trace (clk 2)
      exact ⟨h.alive, h.tracer, h.waiters, h.calls⟩
    | some orig =>
      obtain ⟨c, call⟩ := orig
      obtain ⟨sound, legible'⟩ := entered.attachTask c (legible c call rfl) drawn
      exact (sound.put c legible').noteTask drawn req.trace (clk 2)

theorem answerDuplicate (h : s.Sound) (hex : env.Hex) {hit : InFlightEntry}
    (named : s.HitNamed hit) (req : Request) (key : ToolKey) (clk : Clock) :
    (s.answerDuplicate env req key hit clk).1.Sound := by
  unfold PipelineState.answerDuplicate
  dsimp only
  have counted : { s with
      counters := { s.counters with inflightHit := s.counters.inflightHit + 1 } }.Sound :=
    ⟨h.alive, h.tracer, h.waiters, h.calls⟩
  have noted := (counted.setSpan req.trace (show Json.utf8 "inflight_hit" = true by decide)
    (show Json.utf8 "true" = true by decide)).setSpan req.trace
      (show Json.utf8 "inflight_id" = true by decide) named.inflightId
  split
  · split
    · refine noted.duplicateTask hex req key hit (fun c call live => ?_) clk
      unfold liveCall at live
      split at live
      · obtain ⟨call', stored, same⟩ := Option.map_eq_some_iff.mp live
        cases same
        exact h.calls stored
      · cases live
    · exact noted.noteTask named.knownTask req.trace (clk 2)
  · exact noted

theorem handOver (h : s.Sound) (hex : env.Hex) (legible : w.Legible) (clk : Clock) :
    (s.handOver env w clk).Sound := by
  unfold PipelineState.handOver
  dsimp only
  generalize counted : (if w.confirmed then _ else s : PipelineState) = s'
  have sound : s'.Sound := by
    rw [← counted]
    split
    · exact ⟨h.alive, h.tracer, h.waiters, h.calls⟩
    · exact h
  split
  · exact sound.finish legible.onDone ..
  · exact sound.acquire hex legible clk

theorem handleUpstream (h : s.Sound) (hex : env.Hex) {key : ToolKey} {fin : Finish}
    (legible : ∀ hash isMatch, Waiting.Legible ⟨req, key, hash, fin, isMatch⟩)
    (hits : ∀ hit, s.Repeats req key hit → s.HitNamed hit) (clk : Clock) :
    (s.handleUpstream env req key fin clk).Sound := by
  unfold PipelineState.handleUpstream
  split
  · exact h.emit _
  · next hash hashed =>
    dsimp only
    split
    · exact h.emit _
    · next confirm token =>
      split
      · next hit looked loose =>
        have repeated : s.Repeats req key hit :=
          ⟨hash, confirm, hashed, looked, token, looked ▸ loose⟩
        have told := h.answerDuplicate hex (hits hit repeated) req key clk
        exact told.finish (legible hash false).onDone ..
      · exact h.handOver hex (legible _ _) clk

theorem handleBuiltin (h : s.Sound) (env : Env) (req : Request) (key : ToolKey) (clk : Clock) :
    (s.handleBuiltin env req key clk).1.Sound := by
  unfold PipelineState.handleBuiltin
  split
  · split
    · exact h
    · dsimp only
      split
      · exact h
      · split
        · exact h
        · split
          · exact h
          · exact ⟨h.alive, h.tracer, h.waiters, h.calls⟩
  · split
    · split <;> exact h
    · exact h

theorem handleCall (h : s.Sound) (hex : env.Hex) {fin : Finish} (legible : req.Legible)
    (trace : req.trace.Legible) (params : req.params.allUtf8 = true) (onDone : fin.Legible)
    (hits : ∀ key hit, s.Repeats req key hit → s.HitNamed hit) (clk : Clock) :
    (s.handleCall env req fin clk).Sound := by
  unfold PipelineState.handleCall
  split
  · exact h.finish onDone ..
  · next key parsed =>
    split
    · exact h.finish onDone ..
    · exact h.finish onDone ..
    · split
      · have built := h.handleBuiltin env req key clk
        revert built
        generalize s.handleBuiltin env req key clk = out
        obtain ⟨s', outcome⟩ := out
        intro built
        cases outcome with
        | ok r => exact built.finish onDone ..
        | error e => exact built.emit _
      · exact h.handleUpstream hex (fun _ _ => ⟨legible, trace, params, onDone⟩) (hits key) clk

theorem cancelTask (h : s.Sound) {fin : Finish} (onDone : fin.Legible) (taskId : String)
    (who : Principal) (clk : Clock) : (s.cancelTask taskId who fin clk).Sound := by
  unfold PipelineState.cancelTask
  rcases s.getTask_cases taskId who (clk 0) with ⟨-, looked⟩ | ⟨t, -, -, looked⟩
  · rw [looked]
    exact (h.tasks _).finish onDone ..
  · rw [looked]
    dsimp only
    have cancelled := h.tasks ((s.tasks.sweep (clk 0)).updateStatus taskId .cancelled .null (clk 1))
    refine Sound.finish ?_ onDone _ _
    split
    · split
      · next call stored => exact cancelled.cancelWait _ (h.calls stored) _
      · exact cancelled
    · exact cancelled

/-- A request opens its spans. -/
theorem received (h : s.Sound) (hex : env.Hex) (legible : req.Legible)
    (traceId : Json.utf8 req.trace.traceId = true) (spanId : Json.utf8 req.trace.spanId = true)
    (clk : Clock) :
    let out := s.received env req clk
    out.1.Sound ∧ out.2.1.trace.Legible ∧ out.2.2.Legible := by
  unfold PipelineState.received
  dsimp only
  have logged : Sound { s with
      nextRequest := s.nextRequest + 1
      log := .request s.nextRequest req :: s.log } :=
    ⟨h.alive, h.tracer, h.waiters, h.calls⟩
  have first := logged.startSpan hex legible traceId spanId
    (show Json.utf8 "total" = true by decide) (clk 1)
  revert first
  generalize PipelineState.startSpan env _ req "total" (clk 1) = one
  obtain ⟨s₁, total⟩ := one
  rintro ⟨opened, ids⟩
  have legible' : Request.Legible { req with trace := total } :=
    ⟨legible.name, legible.agentId, legible.levelName⟩
  obtain ⟨opened', ids'⟩ := opened.startSpan hex legible' ids.traceId ids.spanId
    (show Json.utf8 "gateway" = true by decide) (clk 2)
  exact ⟨opened', ids', ids', ids⟩

theorem dispatch (h : s.Sound) (hex : env.Hex) {fin : Finish} (legible : req.Legible)
    (trace : req.trace.Legible) (params : req.params.allUtf8 = true) (onDone : fin.Legible)
    (hits : ∀ key hit, s.Repeats req key hit → s.HitNamed hit) (clk : Clock) :
    (s.dispatch env req fin clk).Sound := by
  unfold PipelineState.dispatch
  split
  · exact h.finish onDone ..
  split
  · exact h.finish onDone ..
  split
  · rcases s.getTask_cases req.name req.who (clk 0) with ⟨-, looked⟩ | ⟨t, -, -, looked⟩ <;>
      rw [looked] <;> exact (h.tasks _).finish onDone ..
  split
  · exact h.cancelTask onDone ..
  split
  · exact h.handleCall hex legible trace params onDone hits clk
  · exact h.finish onDone ..

/-! ## Steps -/

/-- A waiter leaves its queue. -/
theorem unqueue (h : s.Sound) {ts : String} {l₁ l₂ : List (Waiter Waiting)}
    {waiter : Waiter Waiting} (split : s.gov.queue ts = l₁ ++ waiter :: l₂) :
    Sound { s with gov := s.gov.unqueue ts waiter (l₁ ++ l₂) } ∧ waiter.cb.Legible := by
  refine ⟨⟨h.alive, h.tracer, fun member => ?_, h.calls⟩, ?_⟩
  · exact h.waiters (LocalGovernor.mem_queue_unqueue split member)
  · exact h.waiters (show waiter ∈ s.gov.queue ts by simp [split])

theorem cancelLive (h : s.Sound) (clk : String → Clock) (inflightId : String) :
    (s.cancelLive clk inflightId).Sound := by
  unfold PipelineState.cancelLive liveCall
  split
  · next c call found =>
    split at found
    · obtain ⟨call', stored, same⟩ := Option.map_eq_some_iff.mp found
      cases same
      exact h.cancelWait c (h.calls stored) _
    · cases found
  · exact h

theorem requestStop (h : s.Sound) (order : List String) (clk : String → Clock) :
    (s.requestStop order clk).Sound := by
  unfold PipelineState.requestStop
  have stopping : Sound { s with stopping := true, log := .stopped :: s.log } :=
    ⟨h.alive, h.tracer, h.waiters, h.calls⟩
  revert stopping
  generalize ({ s with stopping := true, log := .stopped :: s.log } : PipelineState) = s₁
  intro sound
  induction order generalizing s₁ with
  | nil => exact sound
  | cons inflightId order ih => exact ih _ (sound.cancelLive clk inflightId)

theorem rejectQueue (h : s.Sound) (ts : String) (clk : Clock) : (s.rejectQueue ts clk).Sound := by
  unfold PipelineState.rejectQueue
  generalize s.gov.queue ts = turns
  induction turns generalizing s with
  | nil => exact h
  | cons waiter turns ih =>
    refine ih ?_
    beta_reduce
    rcases s.gov.rejectTurn_cases ts with ⟨head, -⟩ | ⟨w, rest, front, head⟩
    · rw [head]
      exact h
    · rw [head]
      obtain ⟨out, legible⟩ := h.unqueue (LocalGovernor.split_front front)
      exact out.rejected legible _

theorem rejectAllQueued (h : s.Sound) (order : List String) (clk : String → Clock) :
    (s.rejectAllQueued order clk).Sound := by
  unfold PipelineState.rejectAllQueued
  induction order generalizing s with
  | nil => exact h
  | cons ts order ih => exact ih (h.rejectQueue ts (clk ts))

/-- The frame on top is executed. -/
theorem runTop (h : s.Sound) (hex : env.Hex) (clk : Clock) (ran : s.runTop env clk = some s') :
    s'.Sound := by
  unfold PipelineState.runTop at ran
  split at ran
  · next ts below _ =>
    rcases s.gov.tryDequeueTurn_cases ts (clk 0) with
      ⟨turn, -⟩ | ⟨w, rest, front, -, ⟨-, turn⟩ | ⟨-, turn⟩⟩
    · rw [turn] at ran
      exact h.of_eq (by rw [← Option.some.inj ran]) (by rw [← Option.some.inj ran])
        (fun _ => by rw [← Option.some.inj ran]) (by rw [← Option.some.inj ran])
    · rw [turn] at ran
      obtain ⟨out, legible⟩ := h.unqueue (LocalGovernor.split_front front)
      rw [← Option.some.inj ran]
      exact out.rejected legible _
    · rw [turn] at ran
      obtain ⟨out, legible⟩ := h.unqueue (LocalGovernor.split_front front)
      rw [← Option.some.inj ran]
      refine Sound.admitted ?_ hex legible _
      exact ⟨out.alive, out.tracer, out.waiters, out.calls⟩
  · next c r below _ =>
    split at ran
    · next call stored =>
      rw [← Option.some.inj ran]
      have popped : Sound { s with stack := below } := ⟨h.alive, h.tracer, h.waiters, h.calls⟩
      exact popped.onUpstream hex c (h.calls stored) r clk
    · cases ran
  · next c below _ =>
    have popped : Sound { s with stack := below } := ⟨h.alive, h.tracer, h.waiters, h.calls⟩
    dsimp only at ran
    split at ran
    · next call stored =>
      rw [← Option.some.inj ran]
      split
      · exact popped.destroy c (h.calls stored) clk
      · exact popped
    · cases ran
  · cases ran

end Sound

end PipelineState

/-- If the input is a request, it brings no text that could not be exported in a span. -/
def PipelineInput.Legible : PipelineInput → Prop
  | .handle req _ => req.Legible ∧ req.params.allUtf8 = true ∧
      Json.utf8 req.trace.traceId = true ∧ Json.utf8 req.trace.spanId = true
  | _ => True

namespace PipelineState

/-- Every step keeps the texts in UTF-8, and the process alive. -/
theorem sound_attempt (hex : env.Hex) (regular : s.Regular env) (h : s.Sound)
    {input : PipelineInput} (legible : input.Legible)
    (attempted : s.attempt env input = some s') : s'.Sound := by
  cases input with
  | handle req clk =>
    obtain ⟨texts, params, traceId, spanId⟩ := legible
    simp only [attempt, Option.ite_none_right_eq_some, Option.some.injEq] at attempted
    rw [← attempted.2]
    -- receiving opens two spans; the request goes on with the trace of the second
    obtain ⟨n, tracer, ctx, fin, opened, rid⟩ := received_eq env s req clk
    have received := h.received hex texts traceId spanId clk
    unfold PipelineState.handle
    rw [opened] at received ⊢
    obtain ⟨sound, trace, onDone⟩ := received
    have texts' : Request.Legible { req with trace := ctx } :=
      ⟨texts.name, texts.agentId, texts.levelName⟩
    refine sound.dispatch hex texts' trace params onDone (fun key hit repeated => ?_) _
    have named : s.HitNamed hit := hitNamed_of_regular hex regular repeated
    exact ⟨named.inflightId, named.taskId, named.calls, named.tasks⟩
  | queueTimer id clk =>
    simp only [attempt, Option.ite_none_right_eq_some] at attempted
    obtain ⟨-, expired⟩ := attempted
    split at expired
    · next gov w fired =>
      obtain ⟨ts, l₁, w', l₂, split, -, same⟩ :=
        LocalGovernor.expire_cases regular.ok.queues fired
      cases same
      -- the waiter was in a queue, so its texts are legible
      obtain ⟨out, legible⟩ := h.unqueue split
      rw [← Option.some.inj expired]
      exact out.rejected legible _
    · next gov fired =>
      obtain ⟨ts, l₁, w', l₂, -, -, same⟩ := LocalGovernor.expire_cases regular.ok.queues fired
      cases same
    · cases expired
  | promote c clk =>
    simp only [attempt] at attempted
    split at attempted
    · next call _ stored =>
      simp only [Option.ite_none_right_eq_some, Option.some.injEq] at attempted
      rw [← attempted.2]
      obtain ⟨texts, trace, onDone, upTrace⟩ := h.calls stored
      -- the reference that the timer holds is no text
      have framed : Sound { s with stack := .unref c :: s.stack } :=
        ⟨h.alive, h.tracer, h.waiters, h.calls⟩
      have disarmed : Call.Legible { call with promoteArmed := false } :=
        ⟨texts, trace, onDone, upTrace⟩
      exact framed.onPromote hex c disarmed clk
    · cases attempted
  | upstream c r clk =>
    simp only [attempt] at attempted
    split at attempted
    · next call _ stored =>
      simp only [Option.ite_none_right_eq_some, Option.some.injEq] at attempted
      rw [← attempted.2]
      obtain ⟨texts, trace, onDone, upTrace⟩ := h.calls stored
      have delivered : call.delivered.Legible := ⟨texts, trace, onDone, upTrace⟩
      exact h.onUpstream hex c delivered r clk
    · cases attempted
  | drop c =>
    simp only [attempt] at attempted
    split at attempted
    · next call _ stored =>
      simp only [Option.ite_none_right_eq_some, Option.some.injEq] at attempted
      rw [← attempted.2]
      obtain ⟨texts, trace, onDone, upTrace⟩ := h.calls stored
      have dropped : Call.Legible { call with spent := call.spent - 1 } :=
        ⟨texts, trace, onDone, upTrace⟩
      exact (h.put c dropped).of_eq rfl rfl (fun _ => rfl) rfl
    · cases attempted
  | abandon c =>
    simp only [attempt] at attempted
    split at attempted
    · next call _ stored =>
      simp only [Option.ite_none_right_eq_some, Option.some.injEq] at attempted
      rw [← attempted.2]
      obtain ⟨texts, trace, onDone, upTrace⟩ := h.calls stored
      have abandoned : Call.Legible { call with pending := call.pending - 1 } :=
        ⟨texts, trace, onDone, upTrace⟩
      exact (h.put c abandoned).of_eq rfl rfl (fun _ => rfl) rfl
    · cases attempted
  | backendReturns =>
    simp only [attempt] at attempted
    split at attempted
    · rw [← Option.some.inj attempted]
      exact ⟨h.alive, h.tracer, h.waiters, h.calls⟩
    · cases attempted
  | requestStop calls tools clk rejects =>
    simp only [attempt, Option.ite_none_right_eq_some, Option.some.injEq] at attempted
    rw [← attempted.2]
    exact (h.requestStop calls clk).rejectAllQueued tools rejects
  | toolsListed backend tools =>
    simp only [attempt, Option.ite_none_right_eq_some, Option.some.injEq] at attempted
    rw [← attempted.2]
    exact ⟨h.alive, h.tracer, h.waiters, h.calls⟩
  | probeSuccess server =>
    simp only [attempt, Option.ite_none_right_eq_some, Option.some.injEq] at attempted
    rw [← attempted.2]
    exact ⟨h.alive, h.tracer, h.waiters, h.calls⟩
  | health server state latency =>
    simp only [attempt, Option.ite_none_right_eq_some, Option.some.injEq] at attempted
    rw [← attempted.2]
    exact ⟨h.alive, h.tracer, h.waiters, h.calls⟩
  | grants table =>
    simp only [attempt, Option.ite_none_right_eq_some, Option.some.injEq] at attempted
    rw [← attempted.2]
    exact ⟨h.alive, h.tracer, h.waiters, h.calls⟩
  | run clk => exact h.runTop hex clk attempted

variable {h : List (TransitionSystem.Step PipelineState PipelineInput)}

/-- As long as all requests are legible, the process lives. -/
theorem sound_of_run (hex : env.Hex) (service : Json.utf8 env.cfg.otelService = true)
    (run : (Pipeline.machine env).Run h s) (legible : ∀ t ∈ h, t.input.Legible) : s.Sound := by
  induction run with
  | start first =>
    obtain ⟨health, index, grants, rfl⟩ := first
    refine ⟨rfl, ⟨service, fun found => ?_⟩, fun member => ?_, fun stored => ?_⟩
    · cases found
    · cases member
    · cases stored
  | next before step ih =>
    obtain ⟨last, earlier⟩ := List.forall_mem_cons.mp legible
    obtain ⟨attempted, -⟩ := Option.filter_eq_some_iff.mp step
    exact sound_attempt hex (regular_of_run before) (ih earlier) last attempted

end PipelineState

end Perfacet
