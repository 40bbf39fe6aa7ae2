import Perfacet.Pipeline.Guarantees
import Perfacet.Pipeline.OneTask

/-!
# Tasks that nobody works on

A client polls its task until it is over, so a task should only be working while a call works
on it and has yet to hear from its upstream. A call ends its task when it is cancelled and when
its last outcome comes, but a duplicate can make a task for a call that has both behind it: after
the shutdown began, or while the last callback returns. That task works until it expires.

## Main definitions

* `PipelineState.Attached` — every working task is that of a call that is waited for
* `PipelineState.strands` — a duplicate makes a task for a call that is not

## Main results

* `PipelineState.carries_step` — a call that is waited for goes on, or its task is over
* `no_orphan_task` — in runs whose duplicates strand no task, every working task is attached
* `orphan_task` — a run in which a task outlives its call
-/

namespace Perfacet

variable {env : Env} {c : ℕ} {call call' : Call} {req : Request}
  {h : List (TransitionSystem.Step PipelineState PipelineInput)} {s s₁ s' : PipelineState}
  {input : PipelineInput} {id : String} {w : Waiting}

theorem TaskStatus.cancelled_ne_working : TaskStatus.cancelled ≠ .working := by decide

/-- The promote timer of a call is only armed while an outcome is to come, or the call is
cancelled. -/
def Call.Alert (call : Call) : Prop :=
  call.promoteArmed = true →
    call.cancelled = true ∨ (call.promoteTimer.isSome = true ∧ 0 < call.pending)

namespace PipelineState

/-- Every working task is that of a live call, which is not cancelled and has yet to hear from its
upstream. -/
def Attached (s : PipelineState) : Prop :=
  ∀ id t, s.tasks.byId.lookup id = some t → t.status = .working →
    ∃ c call, s.byTask.lookup id = some c ∧ s.calls.lookup c = some call ∧ call.taskId = id ∧
      call.Waited

/-- The running call that a request is a duplicate of, with its entry, if the request is by a
client that understands tasks and comes without the call's confirm token. -/
def duplicateOf (env : Env) (s : PipelineState) (req : Request) : Option (InFlightEntry × Call) :=
  match ToolKey.parse req.name, paramsHashOf req.params, confirmToken req with
  | some key, .ok hash, .ok confirm =>
    if req.method = "tools/call" ∧ req.caps.tasks = true ∧
        RankPolicy.authorizeCall env.catalog req.who key = .allow ∧ key.backend ≠ "perfacet" then
      match s.inflight.lookup req.who.agentId key hash with
      | some e =>
        if tokenMatches confirm (some e) then none
        else (s.liveCall e.inflightId).map fun live => (e, live.2)
      | none => none
    else none
  | _, _, _ => none

/-- A request makes a task for a call that nobody waits for: a duplicate of a call that has no
task and is cancelled or has heard from its upstream, while the store has room and the time to
live of the call's task is not over. -/
def strands (env : Env) (s : PipelineState) : PipelineInput → Bool
  | .handle req clk =>
    match s.duplicateOf env req with
    | some (e, call) =>
      -- the call has no task and will have no outcome, and the new task is stored and lasts
      call.taskId.isEmpty && (call.cancelled || decide (call.pending = 0)) &&
        decide ((s.tasks.sweep (clk 4)).byId.entries.length < s.tasks.maxTasks) &&
        !(decide (0 < env.cfg.taskTtlMs) && decide (e.startedAtMs + env.cfg.taskTtlMs ≤ clk 5))
    | none => false
  | _ => false

/-- All calls stay alert, and a call that is waited for goes on, or its task is over. -/
structure Carries (s s' : PipelineState) : Prop where
  alert : (∀ c call, s.calls.lookup c = some call → call.Alert) →
    ∀ c call, s'.calls.lookup c = some call → call.Alert
  kept : ∀ c call, s.calls.lookup c = some call → call.taskId ≠ "" → call.Waited →
    s'.tasks.Idle call.taskId ∨
      ∃ call', s'.calls.lookup c = some call' ∧ call'.taskId = call.taskId ∧ call'.Waited

namespace Carries

/-- Nothing happens to the calls. -/
theorem of_eq (same : s'.calls = s.calls) : s.Carries s' where
  alert := fun alert => same ▸ alert
  kept := fun _ call stored _ waited => .inr ⟨call, same ▸ stored, rfl, waited⟩

theorem congr (h : s₁.Carries s') (same : s₁.calls = s.calls) : s.Carries s' where
  alert := same ▸ h.alert
  kept := same ▸ h.kept

/-- One call changes. -/
theorem update (stored : s.calls.lookup c = some call) (alert : call.Alert → call'.Alert)
    (kept : call.taskId ≠ "" → call.Waited →
      s'.tasks.Idle call.taskId ∨ call'.taskId = call.taskId ∧ call'.Waited)
    (calls : s'.calls = s.calls.insert c call') : s.Carries s' where
  alert := by
    intro all c' other there
    rw [calls, UnorderedMap.lookup_insert] at there
    split at there
    · exact Option.some.inj there ▸ alert (all c call stored)
    · exact all c' other there
  kept := by
    intro c' other there named waited
    rw [calls, UnorderedMap.lookup_insert]
    split
    · next here =>
      obtain rfl := Option.some.inj (stored.symm.trans (here ▸ there))
      exact (kept named waited).imp_right fun goes => ⟨call', rfl, goes⟩
    · exact .inr ⟨other, there, rfl, waited⟩

/-- A call starts. -/
theorem start (new : s.calls.lookup c = none) (alert : call.Alert)
    (calls : s'.calls = s.calls.insert c call) : s.Carries s' where
  alert := by
    intro all c' other there
    rw [calls, UnorderedMap.lookup_insert] at there
    split at there
    · exact Option.some.inj there ▸ alert
    · exact all c' other there
  kept := by
    intro c' other there named waited
    -- the number of a new call is not in use
    have older : c' ≠ c := by
      rintro rfl
      rw [new] at there
      cases there
    rw [calls, UnorderedMap.lookup_insert, if_neg older]
    exact .inr ⟨other, there, rfl, waited⟩

/-- A call that waits for nothing is destroyed. -/
theorem erase (stored : s.calls.lookup c = some call) (rests : call.pending = 0)
    (calls : s'.calls = s.calls.erase c) : s.Carries s' where
  alert := by
    intro all c' other there
    rw [calls, UnorderedMap.lookup_erase] at there
    split at there
    · cases there
    · exact all c' other there
  kept := by
    intro c' other there named waited
    rw [calls, UnorderedMap.lookup_erase]
    split
    · next here =>
      obtain rfl := Option.some.inj (stored.symm.trans (here ▸ there))
      -- the call that goes is not waited for
      exact absurd waited.waits (rests ▸ Nat.lt_irrefl 0)
    · exact .inr ⟨other, there, rfl, waited⟩

end Carries

/-! ## Admission -/

/-- Nothing happens to the calls, or one is started. -/
def Admits (s s' : PipelineState) : Prop :=
  s'.calls = s.calls ∨ ∃ call : Call, call.Alert ∧ s'.calls = s.calls.insert s.nextCall call

theorem Admits.carries (h : s.Admits s')
    (numbered : Numbered s.calls s.nextRequest s.nextCall s.log) : s.Carries s' := by
  rcases h with same | ⟨call, alert, calls⟩
  · exact .of_eq same
  · exact .start numbered.new alert calls

/-- What was done to a state with the same calls. -/
theorem Admits.of_kept {s₁ : PipelineState} (h : s₁.Admits s') (calls : s₁.calls = s.calls)
    (next : s₁.nextCall = s.nextCall) : s.Admits s' := by
  rwa [Admits, calls, next] at h

theorem admits_startCall (env : Env) (s : PipelineState) (w : Waiting) (summary : String)
    (now : UInt64) (clk : Clock) : s.Admits (s.startCall env w summary now clk) := by
  refine .inr ?_
  unfold startCall
  dsimp only [draw]
  -- an attempt is underway if the backend is there; otherwise nothing is armed yet
  cases present : env.catalog.backend
      (newCall w (env.randomHex 16 s.draws) (clk 0)).key.backend with
  | true =>
    obtain ⟨n, delay, upTrace, fired⟩ := core_fireAttempt _ s.nextCall
      (newCall w (env.randomHex 16 s.draws) (clk 0)) present none (clk.after 1) .empty
    refine ⟨_, fun _ => .inr ⟨?_, ?_⟩, congrArg Core.calls fired⟩
    · simp [Call.fired, newCall]
    · simp [Call.fired]
  | false =>
    obtain ⟨r, fired⟩ := core_fireAttempt_absent _ s.nextCall
      (newCall w (env.randomHex 16 s.draws) (clk 0)) present none (clk.after 1) .empty
    refine ⟨_, fun armed => ?_, congrArg Core.calls fired⟩
    simp [newCall] at armed

theorem calls_rejected (s : PipelineState) (w : Waiting) (now : UInt64) :
    (s.rejected w now).calls = s.calls :=
  congrArg Core.calls (core_rejected s w now .empty)

theorem admits_admitted (env : Env) (s : PipelineState) (w : Waiting) (clk : Clock) :
    s.Admits (s.admitted env w clk) := by
  unfold admitted
  dsimp only
  split
  · refine .inl ?_
    unfold refused
    dsimp only [releasePermit]
    rw [calls_finish]
    split <;> rfl
  · split
    · exact .inl rfl
    · exact (admits_startCall env { s with circuit := _ } w _ _ _).of_kept rfl rfl

theorem admits_acquire (env : Env) (s : PipelineState) (w : Waiting) (clk : Clock) :
    s.Admits (s.acquire env w clk) := by
  unfold acquire
  split
  · exact (admits_admitted env { s with gov := _ } w _).of_kept rfl rfl
  · exact .inl rfl
  · exact .inl (calls_rejected ..)

theorem admits_handOver (env : Env) (s : PipelineState) (w : Waiting) (clk : Clock) :
    s.Admits (s.handOver env w clk) := by
  unfold handOver
  dsimp only
  generalize counted : (if w.confirmed then _ else s : PipelineState) = s₁
  have same : s₁.calls = s.calls ∧ s₁.nextCall = s.nextCall := by
    rw [← counted]
    split <;> exact ⟨rfl, rfl⟩
  split
  · exact .inl ((calls_finish ..).trans same.1)
  · exact (admits_acquire env s₁ w clk).of_kept same.1 same.2

/-! ## Requests -/

/-- What a request does to the calls: nothing, unless it starts one, cancels the task of one, or
is a duplicate of one that gets a task for it. -/
inductive Handled (env : Env) (s s' : PipelineState) (req : Request) (clk : Clock) : Prop
  | admits : s.Admits s' → Handled env s s' req clk
  | cancels {c : ℕ} {call : Call} : s.calls.lookup c = some call → s'.tasks.Idle call.taskId →
      s'.calls = s.calls.insert c { call with cancelled := true, responded := true } →
      Handled env s s' req clk
  | attaches {key : ToolKey} {hash confirm : String} {e : InFlightEntry} {c n : ℕ} {call : Call}
      {t : Task} : req.method = "tools/call" → req.caps.tasks = true →
      ToolKey.parse req.name = some key →
      RankPolicy.authorizeCall env.catalog req.who key = .allow → key.backend ≠ "perfacet" →
      paramsHashOf req.params = .ok hash → confirmToken req = .ok confirm →
      s.inflight.lookup req.who.agentId key hash = some e →
      tokenMatches confirm (some e) = false → s.liveCall e.inflightId = some (c, call) →
      call.taskId = "" → s.draws ≤ n → t = made env n req.who key e.startedAtMs (clk 3) →
      (s.tasks.insert t (clk 4)).2 = true →
      s'.tasks = (s.tasks.insert t (clk 4)).1.sweep (clk 5) →
      s'.calls = s.calls.insert c { call with taskId := t.taskId } → Handled env s s' req clk

theorem Handled.finish {clk : Clock} (h : Handled env s s' req clk) (fin : Finish) (r : Response)
    (now : UInt64) : Handled env s (s'.finish fin r now) req clk := by
  cases h with
  | admits admits =>
    refine .admits ?_
    rwa [Admits, calls_finish]
  | cancels stored ended calls =>
    refine .cancels stored ?_ ((calls_finish ..).trans calls)
    rwa [tasks_finish]
  | attaches method capable parsed allowed upstream hashed token looked loose live without later
      isNew room tasks calls =>
    exact .attaches method capable parsed allowed upstream hashed token looked loose live without
      later isNew room ((tasks_finish ..).trans tasks) ((calls_finish ..).trans calls)

/-- What a request does, seen from before it was received. -/
theorem Handled.of_received {clk : Clock} (h : Handled env s₁ s' req clk)
    (tasks : s₁.tasks = s.tasks) (inflight : s₁.inflight = s.inflight) (live : s₁.live = s.live)
    (calls : s₁.calls = s.calls) (nextCall : s₁.nextCall = s.nextCall)
    (draws : s.draws ≤ s₁.draws) : Handled env s s' req clk := by
  cases h with
  | admits admits =>
    rw [Admits, calls, nextCall] at admits
    exact .admits admits
  | cancels stored ended after => exact .cancels (calls ▸ stored) ended (calls ▸ after)
  | attaches method capable parsed allowed upstream hashed token looked loose found without later
      isNew room store after =>
    rw [liveCall, live, calls] at found
    rw [tasks] at room store
    rw [calls] at after
    exact .attaches method capable parsed allowed upstream hashed token (inflight ▸ looked) loose
      found without (draws.trans later) isNew room store after

theorem handled_cancelTask (tables : Tables env s.inflight s.calls s.live s.byTask s.draws)
    (fin : Finish) (clk : Clock) :
    Handled env s (s.cancelTask req.name req.who fin (clk.after 3)) req clk := by
  rcases s.getTask_cases req.name req.who (clk 3) with ⟨-, found⟩ | ⟨t, stored, -, found⟩
  · refine .admits (.inl ?_)
    unfold cancelTask
    rw [show clk.after 3 0 = clk 3 from rfl, found]
    exact calls_finish ..
  · obtain ⟨store, write, done⟩ := cancelTask_some s req.name req.who fin clk found
    rw [done]
    refine Handled.finish ?_ ..
    -- the task is over before the call is told
    have ended : store.Idle req.name := by
      rw [write]
      exact MemTaskStore.idle_updateStatus _ _ TaskStatus.cancelled_ne_working _ _
    unfold cancelByTask
    dsimp only
    split
    · next c byTask =>
      obtain ⟨-, call, live, own⟩ := tables.task.mp byTask
      rw [live]
      dsimp only
      refine .cancels live ?_ (congrArg Core.calls (cancelWait_frame _ c call _ .empty))
      rw [tasks_cancelWait, own]
      split
      · exact ended
      · exact ended.updateStatus _ TaskStatus.cancelled_ne_working _ _
    · exact .admits (.inl rfl)

theorem handled_handleUpstream (tables : Tables env s.inflight s.calls s.live s.byTask s.draws)
    (entered : (s.core .empty).Entered) {key : ToolKey}
    (method : req.method = "tools/call") (parsed : ToolKey.parse req.name = some key)
    (allowed : RankPolicy.authorizeCall env.catalog req.who key = .allow)
    (upstream : key.backend ≠ "perfacet") (ctx : TraceContext) (fin : Finish) (clk : Clock) :
    Handled env s (s.handleUpstream env { req with trace := ctx } key fin (clk.after 3)) req
      clk := by
  unfold handleUpstream
  dsimp only
  cases hashed : paramsHashOf req.params with
  | error e => exact .admits (.inl rfl)
  | ok hash =>
    dsimp only
    cases token : confirmToken { req with trace := ctx } with
    | error e => exact .admits (.inl rfl)
    | ok confirm =>
      dsimp only
      cases looked : s.inflight.lookup req.who.agentId key hash with
      | none => exact .admits (admits_handOver ..)
      | some e =>
        cases loose : tokenMatches confirm (some e) with
        | true => exact .admits (admits_handOver ..)
        | false =>
          obtain ⟨c, call, -, tells, live⟩ := liveCall_of_lookup tables entered looked
          obtain ⟨-, -, effect⟩ := answerDuplicate_spec env s { req with trace := ctx } key e
            (clk.after 3) live (knownTask_of_tells tells c)
          refine Handled.finish ?_ ..
          rcases effect with ⟨calls, -⟩ | ⟨-, calls, -⟩ | ⟨calls, -⟩ |
            ⟨capable, without, -, room, tasks, calls, -⟩
          · exact .admits (.inl calls)
          · exact .admits (.inl calls)
          · exact .admits (.inl calls)
          · exact .attaches method capable parsed allowed upstream hashed token looked loose live
              without le_rfl rfl room tasks calls

theorem calls_handleBuiltin (env : Env) (s : PipelineState) (req : Request) (key : ToolKey)
    (clk : Clock) : (s.handleBuiltin env req key clk).1.calls = s.calls := by
  unfold handleBuiltin
  split
  · split
    · rfl
    dsimp only
    split
    · rfl
    split
    · rfl
    split <;> rfl
  · split
    · split <;> rfl
    · rfl

theorem handled_dispatch (tables : Tables env s.inflight s.calls s.live s.byTask s.draws)
    (entered : (s.core .empty).Entered) (ctx : TraceContext)
    (fin : Finish) (clk : Clock) :
    Handled env s (s.dispatch env { req with trace := ctx } fin (clk.after 3)) req clk := by
  have answered : ∀ r now, Handled env s (s.finish fin r now) req clk :=
    fun r now => .admits (.inl (calls_finish ..))
  unfold dispatch
  dsimp only
  split
  · exact answered ..
  split
  · exact answered ..
  split
  · rcases s.getTask_cases req.name req.who (clk 3) with ⟨-, found⟩ | ⟨t, -, -, found⟩
    · rw [show clk.after 3 0 = clk 3 from rfl, found]
      exact .admits (.inl (calls_finish ..))
    · rw [show clk.after 3 0 = clk 3 from rfl, found]
      exact .admits (.inl (calls_finish ..))
  split
  · exact handled_cancelTask tables fin clk
  split
  · next method =>
    unfold handleCall
    dsimp only
    split
    · exact answered ..
    next key parsed =>
    split
    · exact answered ..
    · exact answered ..
    next allowed =>
    split
    · have calls := calls_handleBuiltin env s { req with trace := ctx } key (clk.after 3)
      revert calls
      generalize s.handleBuiltin env { req with trace := ctx } key (clk.after 3) = done
      obtain ⟨s', outcome⟩ := done
      intro calls
      cases outcome with
      | ok r => exact .admits (.inl ((calls_finish ..).trans calls))
      | error e => exact .admits (.inl calls)
    · next upstream =>
      exact handled_handleUpstream tables entered method parsed allowed upstream ctx fin clk
  · exact answered ..

/-- What a request does to the calls. -/
theorem handled_handle (tables : Tables env s.inflight s.calls s.live s.byTask s.draws)
    (entered : (s.core .empty).Entered) (req : Request) (clk : Clock) :
    Handled env s (s.handle env req clk) req clk := by
  obtain ⟨n, tracer, ctx, fin, received, -⟩ := received_eq env s req clk
  unfold handle
  rw [received]
  dsimp only
  have more : Tables env s.inflight s.calls s.live s.byTask (s.draws + n) := tables.later n
  let begun : PipelineState := { s with
    nextRequest := s.nextRequest + 1
    log := .request s.nextRequest req :: s.log
    draws := s.draws + n
    tracer := tracer }
  have handled := @handled_dispatch env req begun more entered ctx fin clk
  exact handled.of_received rfl rfl rfl rfl rfl (Nat.le_add_right ..)

theorem Handled.carries {clk : Clock} (h : Handled env s s' req clk)
    (numbered : Numbered s.calls s.nextRequest s.nextCall s.log) : s.Carries s' := by
  cases h with
  | admits admits => exact admits.carries numbered
  | cancels stored ended calls =>
    exact .update stored (fun _ _ => .inl rfl) (fun _ _ => .inl ended) calls
  | attaches _ _ _ _ _ _ _ _ _ live without _ _ _ _ calls =>
    refine .update (liveCall_spec live).2 ?_ ?_ calls
    · exact fun alert armed => alert armed
    · exact fun named => absurd without named

/-! ## Outcomes -/

/-- What an outcome makes of the call it is for: nothing if the call is cancelled, another attempt,
or the end. -/
inductive Heard (env : Env) (s' : PipelineState) (call call' : Call) : Prop
  | late : call.cancelled = true → call'.cancelled = true → Heard env s' call call'
  | again (delay : UInt64) (upTrace : TraceContext) : call.cancelled = false →
      env.catalog.backend call.key.backend = true →
      call' = { call with upSpanLive := false }.fired delay upTrace → Heard env s' call call'
  | absent : env.catalog.backend call.key.backend = false →
      call' = { call with upSpanLive := false } → Heard env s' call call'
  | settled : call.cancelled = false → (call.taskId ≠ "" → s'.tasks.Idle call.taskId) →
      call'.promoteArmed = (call.promoteArmed && !call.promoteTimer.isSome) →
      Heard env s' call call'

theorem heard_onUpstream (env : Env) (s : PipelineState) (c : ℕ) (call : Call) (r : Response)
    (clk : Clock) : ∃ call', (s.onUpstream env c call r clk).calls = s.calls.insert c call' ∧
      call'.taskId = call.taskId ∧ Heard env (s.onUpstream env c call r clk) call call' := by
  have same : (s.heard c call r clk).calls = s.calls :=
    congrArg Core.calls (core_heard s c call r clk .empty)
  by_cases late : call.cancelled = true
  · refine ⟨{ call with upSpanLive := false, upstreamDone := true }, ?_, rfl, .late late late⟩
    unfold onUpstream
    dsimp only
    rw [if_pos late]
    split
    · exact congrArg (AList.insert c _) (congrArg Core.calls
        (core_endSpan (s.emit (.outcome c r.klass)) call.upTrace r.klass r.upstreamMs .empty))
    · rfl
  have runs : call.cancelled = false := by simpa using late
  by_cases again : retries env call r (s.circuit.isOpen call.key.backend (clk 0)).2 (clk 2) = true
  · rw [onUpstream_retry s c r clk runs again]
    cases present : env.catalog.backend call.key.backend with
    | true =>
      obtain ⟨n, delay, upTrace, fired⟩ := core_fireAttempt (s.heard c call r clk) c
        { call with upSpanLive := false } present (some (clk 2)) (clk.after 3) .empty
      exact ⟨_, (congrArg Core.calls fired).trans (congrArg (AList.insert c _) same), rfl,
        .again delay upTrace runs present rfl⟩
    | false =>
      obtain ⟨r', fired⟩ := core_fireAttempt_absent (s.heard c call r clk) c
        { call with upSpanLive := false } present (some (clk 2)) (clk.after 3) .empty
      exact ⟨_, (congrArg Core.calls fired).trans (congrArg (AList.insert c _) same), rfl,
        .absent present rfl⟩
  · rw [onUpstream_last s c r clk runs (by simpa using again)]
    obtain ⟨⟨call', calls, -, taskId, armed⟩, tasks⟩ :=
      settle_spec (s.heard c call r clk) c { call with upSpanLive := false } r (clk.after 3)
    rw [same] at calls
    refine ⟨call', calls, taskId, .settled runs (fun named => ?_) armed⟩
    rcases tasks with ⟨none, -⟩ | ⟨-, status, ended, -, tasks⟩
    · exact absurd none named
    · rw [tasks]
      exact MemTaskStore.idle_updateStatus _ _ ended _ _

/-- A timer that is armed after an outcome waits for another one. -/
theorem Heard.alert (heard : Heard env s' call call')
    (timed : call.promoteArmed = true → call.cancelled = true ∨ call.promoteTimer.isSome = true)
    (dormant : env.catalog.backend call.key.backend = false → call.promoteArmed = false) :
    call'.Alert := by
  intro armed
  cases heard with
  | late _ cancelled => exact .inl cancelled
  | again delay upTrace runs present fired =>
    subst fired
    refine .inr ⟨?_, Nat.succ_pos _⟩
    simp only [Call.fired] at armed ⊢
    split
    · rfl
    · next later =>
      rw [decide_eq_false later, Bool.false_or] at armed
      refine (timed armed).resolve_left fun told => ?_
      rw [runs] at told
      cases told
  | absent absent same =>
    subst same
    rw [dormant absent] at armed
    cases armed
  | settled runs _ unarmed =>
    rw [unarmed, Bool.and_eq_true, Bool.not_eq_true'] at armed
    rcases timed armed.1 with told | some
    · rw [runs] at told
      cases told
    · rw [armed.2] at some
      cases some

/-- An outcome comes from an upstream. -/
theorem carries_upstream (ok : (s.core .empty).Ok env) (stored : s.calls.lookup c = some call)
    (waits : 0 < call.pending) (r : Response) (clk : Clock) :
    s.Carries (s.onUpstream env c call.delivered r clk) := by
  obtain ⟨call', calls, taskId, heard⟩ := heard_onUpstream env s c call.delivered r clk
  have present := (ok.orderly.underway c call stored).present (.inl waits)
  refine .update stored (fun alert => heard.alert (fun armed => ?_) fun absent => ?_)
    (fun named waited => ?_) calls
  · exact (alert armed).imp_right And.left
  · exact absurd present (by rw [show call.key = call.delivered.key from rfl, absent]; simp)
  · cases heard with
    | late told =>
      exact absurd (waited.runs.symm.trans told) (by simp)
    | again delay upTrace runs _ fired =>
      subst fired
      exact .inr ⟨rfl, runs, Nat.succ_pos _⟩
    | absent absent =>
      exact absurd present (by rw [show call.key = call.delivered.key from rfl, absent]; simp)
    | settled _ ended => exact .inl (ended named)

/-- A call whose backend is absent gets its outcome. -/
theorem carries_absent (ok : (s.core .empty).Ok env) (stored : s.calls.lookup c = some call)
    (absent : env.catalog.backend call.key.backend = false) (r : Response) (clk : Clock)
    (stack : List PipelineFrame) :
    s.Carries ({ s with stack := stack }.onUpstream env c call r clk) := by
  obtain ⟨call', calls, taskId, heard⟩ :=
    heard_onUpstream env { s with stack := stack } c call r clk
  obtain ⟨unarmed, rests, -⟩ := (ok.orderly.underway c call stored).dormant absent
  refine .update stored (fun _ => heard.alert (fun armed => ?_) fun _ => unarmed)
    (fun _ waited => ?_) calls
  · rw [unarmed] at armed
    cases armed
  · exact absurd waited.waits (rests ▸ Nat.lt_irrefl 0)

/-! ## Shutdown -/

theorem idle_cancelLive (clk : String → Clock) (s : PipelineState) (inflightId : String)
    (ended : s.tasks.Idle id) : (cancelLive clk s inflightId).tasks.Idle id := by
  unfold cancelLive
  split
  · rw [tasks_cancelWait]
    split
    · exact ended
    · exact ended.updateStatus _ TaskStatus.cancelled_ne_working _ _
  · exact ended

theorem idle_cancelAll (clk : String → Clock) (order : List String) (s : PipelineState)
    (ended : s.tasks.Idle id) : (order.foldl (cancelLive clk) s).tasks.Idle id := by
  induction order generalizing s with
  | nil => exact ended
  | cons inflightId order ih => exact ih _ (idle_cancelLive clk s inflightId ended)

/-- A call that is told keeps its id and its task. -/
theorem liveCall_cancelLive (clk : String → Clock) (s : PipelineState) (told : String) {id : String}
    (found : s.liveCall id = some (c, call)) :
    ∃ call', (cancelLive clk s told).liveCall id = some (c, call') ∧
      call'.taskId = call.taskId := by
  obtain ⟨live, stored⟩ := liveCall_spec found
  unfold cancelLive
  split
  · next c' other found' =>
    have same := cancelWait_frame s c' other (clk told) .empty
    have calls : (s.cancelWait c' other (clk told)).calls = _ := congrArg Core.calls same
    have lives : (s.cancelWait c' other (clk told)).live = s.live := congrArg Core.live same
    rw [liveCall, lives, calls, live]
    dsimp only
    rw [UnorderedMap.lookup_insert]
    split
    · next here =>
      obtain rfl := Option.some.inj (stored.symm.trans (here ▸ (liveCall_spec found').2))
      exact ⟨_, rfl, rfl⟩
    · rw [stored]
      exact ⟨call, rfl, rfl⟩
  · exact ⟨call, found, rfl⟩

/-- The tasks of the calls that were told are over. -/
theorem idle_of_told (clk : String → Clock) (order : List String) (s : PipelineState)
    {inflightId : String} (member : inflightId ∈ order)
    (found : s.liveCall inflightId = some (c, call)) (named : call.taskId ≠ "") :
    (order.foldl (cancelLive clk) s).tasks.Idle call.taskId := by
  induction order generalizing s call with
  | nil => cases member
  | cons told order ih =>
    rcases List.mem_cons.mp member with rfl | later
    · refine idle_cancelAll clk order _ ?_
      rw [cancelLive, found]
      dsimp only
      rw [tasks_cancelWait, if_neg (fun none => named (String.isEmpty_iff.mp none))]
      exact MemTaskStore.idle_updateStatus _ _ TaskStatus.cancelled_ne_working _ _
    · obtain ⟨call', found', own⟩ := liveCall_cancelLive clk s told found
      exact own ▸ ih _ later found' (own ▸ named)

/-- The gateway is told to stop: every task of a call is over. -/
theorem carries_requestStop (ok : (s.core .empty).Ok env) {calls tools : List String}
    (all : calls.Perm s.live.keys) (queues : tools.Perm s.gov.queues.keys)
    (clk rejects : String → Clock) :
    s.Carries ((s.requestStop calls clk).rejectAllQueued tools rejects) := by
  have told := (told_moves env .none ok all queues clk rejects).2.1 (·.cancelled = true)
    fun _ => rfl
  refine ⟨fun _ c call stored _ => .inl (told c call stored), fun c call stored named _ => .inl ?_⟩
  rw [(aside_rejectAllQueued ..).tasks]
  have live : s.live.lookup call.inflightId = some c := ok.tables.alive.mpr ⟨call, stored, rfl⟩
  have found : s.liveCall call.inflightId = some (c, call) := by
    rw [liveCall, live]
    dsimp only
    rw [stored]
    rfl
  exact idle_of_told clk calls { s with stopping := true, log := .stopped :: s.log }
    (all.mem_iff.mpr (UnorderedMap.mem_keys_of_lookup live)) found named

/-! ## Steps -/

/-- The promote timer of a call runs out. -/
theorem carries_promote (stored : s.calls.lookup c = some call) (clk : Clock) :
    s.Carries ({ s with stack := .unref c :: s.stack }.onPromote env c
      { call with promoteArmed := false } clk) := by
  obtain ⟨responded, id, calls, -, effect⟩ := onPromote_spec env
    { s with stack := .unref c :: s.stack } c { call with promoteArmed := false } clk
  refine .update stored (fun _ armed => by cases armed) (fun named waited => .inr ?_) calls
  rcases effect with ⟨same, -⟩ | ⟨-, -, -, without, -⟩
  · exact ⟨same, waited.runs, waited.waits⟩
  · exact absurd without named

/-- Work that is left on the stack is finished. -/
theorem carries_runTop (ok : (s.core .empty).Ok env) (clk : Clock)
    (ran : s.runTop env clk = some s') : s.Carries s' := by
  have numbered := ok.orderly.numbered
  unfold runTop at ran
  split at ran
  · next ts below top =>
    split at ran
    · exact Option.some.inj ran ▸ .of_eq rfl
    · rw [← Option.some.inj ran]
      exact .of_eq (calls_rejected ..)
    · next gov w turn =>
      rw [← Option.some.inj ran]
      have admits := admits_admitted env { s with gov := gov, stack := below } w.cb (clk.after 1)
      exact (admits.carries numbered).congr rfl
  · next c r below top =>
    have member : .onUpstream c r ∈ s.stack := by
      rw [top]
      exact List.mem_cons_self
    split at ran
    · next call stored =>
      rw [← Option.some.inj ran]
      exact carries_absent ok stored (ok.references.absent member stored) r clk below
    · cases ran
  · next c below top =>
    dsimp only at ran
    split at ran
    · next call stored =>
      rw [← Option.some.inj ran]
      split
      · next last =>
        have rests : call.pending = 0 := by
          unfold Call.refs at last
          omega
        obtain ⟨k, r, before, destroyed⟩ := destroy_eq s c call clk .empty below
        refine .erase stored rests ((congrArg Core.calls destroyed).trans ?_)
        rw [before]
        split <;> rfl
      · exact .of_eq rfl
    · cases ran
  · cases ran

/-- Unless a callback is abandoned, a call that is waited for goes on, or its task is over. -/
theorem carries_step (regular : s.Regular env) (step : s.step env input = some s')
    (kept : ∀ c, input ≠ .abandon c) : s.Carries s' := by
  have attempt := (Option.filter_eq_some_iff.mp step).1
  cases input with
  | handle req clk =>
    simp only [PipelineState.attempt] at attempt
    split at attempt
    · rw [← Option.some.inj attempt]
      exact (handled_handle regular.ok.tables regular.entered req clk).carries
        regular.ok.orderly.numbered
    · cases attempt
  | queueTimer id clk =>
    simp only [PipelineState.attempt] at attempt
    split at attempt
    · split at attempt
      · rw [← Option.some.inj attempt]
        exact .of_eq (calls_rejected ..)
      · exact Option.some.inj attempt ▸ .of_eq rfl
      · cases attempt
    · cases attempt
  | promote c clk =>
    simp only [PipelineState.attempt] at attempt
    split at attempt
    · next call idle stored =>
      split at attempt
      · rw [← Option.some.inj attempt]
        exact carries_promote stored clk
      · cases attempt
    · cases attempt
  | upstream c r clk =>
    simp only [PipelineState.attempt] at attempt
    split at attempt
    · next call listening stored =>
      split at attempt
      · next waits =>
        rw [← Option.some.inj attempt]
        exact carries_upstream regular.ok stored waits r clk
      · cases attempt
    · cases attempt
  | drop c =>
    simp only [PipelineState.attempt] at attempt
    split at attempt
    · next call listening stored =>
      split at attempt
      · rw [← Option.some.inj attempt]
        -- a callback that was called is not waited for any more
        refine .update stored ?_ ?_ rfl
        · exact fun alert armed => alert armed
        · exact fun _ waited => .inr ⟨rfl, waited.runs, waited.waits⟩
      · cases attempt
    · cases attempt
  | abandon c => exact absurd rfl (kept c)
  | backendReturns =>
    simp only [PipelineState.attempt] at attempt
    split at attempt
    · exact Option.some.inj attempt ▸ .of_eq rfl
    · cases attempt
  | requestStop calls tools clk rejects =>
    simp only [PipelineState.attempt] at attempt
    split at attempt
    · next orders =>
      rw [← Option.some.inj attempt]
      simp only [Bool.and_eq_true, decide_eq_true_eq] at orders
      exact carries_requestStop regular.ok orders.1.2 orders.2 clk rejects
    · cases attempt
  | toolsListed | probeSuccess | health | grants =>
    simp only [PipelineState.attempt] at attempt
    split at attempt
    · exact Option.some.inj attempt ▸ .of_eq rfl
    · cases attempt
  | run clk => exact carries_runTop regular.ok clk attempt

/-! ## Tasks -/

/-- A call that is waited for has the task. -/
def WorkedOn (s : PipelineState) (id : String) : Prop :=
  ∃ c call, s.calls.lookup c = some call ∧ call.taskId = id ∧ call.Waited

/-- The invariant: calls are alert, and working tasks are worked on. -/
structure Tended (s : PipelineState) : Prop where
  alert : ∀ c call, s.calls.lookup c = some call → call.Alert
  worked : ∀ id t, s.tasks.byId.lookup id = some t → t.status = .working → s.WorkedOn id

/-- What a step writes is no `working`. -/
theorem Writes.ended {status : TaskStatus} {body : Json} (h : s.Writes s' input id status body) :
    status ≠ .working := by
  cases h with
  | cancel => exact TaskStatus.cancelled_ne_working
  | settle _ _ _ _ ended => exact ended
  | stop => exact TaskStatus.cancelled_ne_working

/-- A call that gets a task in a step is one whose task changes. -/
theorem Gets.named (gets : s.Gets s' c call id)
    (same : ∀ call', s'.calls.lookup c = some call' → call'.taskId = call.taskId) : id = "" := by
  obtain ⟨call', after, own, -⟩ := gets.after
  exact own.symm.trans ((same call' after).trans gets.without)

/-- A request that makes a task strands it, or the call is waited for. -/
theorem Handled.worked {clk : Clock} {t : Task} (h : Handled env s s' req clk)
    (regular : s.Regular env) (attended : s.strands env (.handle req clk) = false)
    (gets : s.Gets s' c call id) (named : id ≠ "") (new : s.tasks.byId.lookup id = none)
    (held : s'.tasks.byId.lookup id = some t) : s'.WorkedOn id := by
  cases h with
  | admits admits =>
    -- nothing happens to the calls that there are
    refine absurd (gets.named fun call' after => ?_) named
    rcases admits with same | ⟨started, -, calls⟩
    · rw [same, gets.before] at after
      rw [Option.some.inj after]
    · have older : c ≠ s.nextCall := by
        rintro rfl
        exact absurd (regular.ok.orderly.numbered.call gets.before) (Nat.lt_irrefl _)
      rw [calls, UnorderedMap.lookup_insert, if_neg older, gets.before] at after
      rw [Option.some.inj after]
  | cancels stored ended calls =>
    refine absurd (gets.named fun call' after => ?_) named
    rw [calls, UnorderedMap.lookup_insert] at after
    split at after
    · next here =>
      obtain rfl := Option.some.inj (stored.symm.trans (here ▸ gets.before))
      rw [← Option.some.inj after]
    · rw [gets.before] at after
      rw [Option.some.inj after]
  | @attaches key hash confirm e c' n joined t' method capable parsed allowed upstream hashed token
      looked loose live without later isNew room tasks calls =>
    have absent : s.tasks.byId.lookup t'.taskId = none := isNew ▸ regular.drawn.new later
    rw [tasks, MemTaskStore.lookup_sweep] at held
    obtain ⟨stored, current⟩ := Option.filter_eq_some_iff.mp held
    obtain ⟨rfl, rfl⟩ := s.tasks.eq_of_insert new stored
    have duplicate : s.duplicateOf env req = some (e, joined) := by
      simp [duplicateOf, parsed, hashed, token, method, capable, allowed, upstream, looked, loose,
        live]
    have waited : joined.Waited := by
      by_contra unwaited
      have ended : joined.cancelled = true ∨ joined.pending = 0 := by
        refine or_iff_not_imp_left.mpr fun runs => ?_
        rw [Bool.not_eq_true] at runs
        exact Nat.eq_zero_of_not_pos fun waits => unwaited ⟨runs, waits⟩
      have fits := s.tasks.insert_room absent room
      -- the task that was made is the one whose time is asked for
      rw [isNew] at current
      have strands : s.strands env (.handle req clk) = true := by
        rw [PipelineState.strands, duplicate]
        simp only [Bool.and_eq_true, Bool.or_eq_true, decide_eq_true_eq]
        exact ⟨⟨⟨String.isEmpty_iff.mpr without, ended⟩, fits⟩, current⟩
      rw [attended] at strands
      cases strands
    refine ⟨c', { joined with taskId := t.taskId }, ?_, rfl, waited.runs, waited.waits⟩
    rw [calls]
    exact AList.lookup_insert _

theorem tended_step (regular : s.Regular env) (step : s.step env input = some s')
    (kept : ∀ c, input ≠ .abandon c) (attended : s.strands env input = false) (h : s.Tended) :
    s'.Tended := by
  have carries := carries_step regular step kept
  refine ⟨carries.alert h.alert, fun id t held working => ?_⟩
  rcases (step_effect regular step).tasks.found held with
    ⟨t₀, before, -, ⟨status, -⟩ | written⟩ | ⟨new, rfl, entered⟩
  · -- the task was there, and the call that worked on it does so, or the task is over
    obtain ⟨c, call, stored, rfl, waited⟩ := h.worked id t₀ before (status.symm.trans working)
    have named : call.taskId ≠ "" := regular.taskId_ne before
    rcases carries.kept c call stored named waited with ended | ⟨call', stored', own, waited'⟩
    · exact absurd working (ended t held)
    · exact ⟨c, call', stored', own, waited'⟩
  · exact absurd working written.ended
  · have named : t.taskId ≠ "" := by
      obtain ⟨n, -, -, drawn⟩ := entered.drawn
      rw [drawn]
      exact taskId_ne _
    cases entered.maker with
    | @duplicate req clk _ key hash e c call hashed looked owner only parsed capable live gets =>
      have handled := handled_handle regular.ok.tables regular.entered req clk
      rw [← handle_of_step step] at handled
      exact handled.worked regular attended gets named new held
    | @promoted c clk _ call stored owner only capable runs gets =>
      -- the timer was armed, so an outcome is to come
      obtain ⟨call', stored', own, cancelled, pending⟩ := gets.after
      have attempt := (Option.filter_eq_some_iff.mp step).1
      simp only [PipelineState.attempt, stored] at attempt
      split at attempt
      · next stored₀ _ same =>
        obtain rfl := Option.some.inj same
        split at attempt
        · next armed =>
          rcases h.alert c _ stored armed with told | ⟨-, waits⟩
          · rw [runs] at told
            cases told
          · exact ⟨c, call', stored', own, cancelled.trans runs, pending ▸ waits⟩
        · cases attempt
      · cases attempt

/-- In runs that keep every callback and strand no task, working tasks are worked on. -/
theorem tended_of_run (run : (Pipeline.machine env).Run h s)
    (kept : ∀ t ∈ h, ∀ c, t.input ≠ .abandon c)
    (attended : ∀ t ∈ h, t.pre.strands env t.input = false) : s.Tended := by
  induction run with
  | start first =>
    obtain ⟨health, index, grants, rfl⟩ := first
    constructor
    · simp [initial, AList.lookup_empty]
    · simp [initial, MemTaskStore.make, AList.lookup_empty]
  | next before step ih =>
    obtain ⟨keeps, kept⟩ := List.forall_mem_cons.mp kept
    obtain ⟨attends, attended⟩ := List.forall_mem_cons.mp attended
    exact tended_step (regular_of_run before) step keeps attends (ih kept attended)

end PipelineState

/-! ## After the last callback -/

namespace Core

variable {P : Promise} {k k' : Core}

/-- Task `id` is that of call `c` alone, and `c` has heard all it will hear. -/
structure Done (env : Env) (k : Core) (c : ℕ) (id : String) : Prop where
  started : c < k.nextCall
  drawn : ∃ n, n < k.draws ∧ id = "tsk_" ++ env.randomHex 8 n
  rests : ∀ call, k.calls.lookup c = some call → call.pending = 0
  sole : ∀ c' call, k.calls.lookup c' = some call → call.taskId = id → c' = c

namespace Done

/-- A call changes: it waits for nothing new if it is `c`, and gets no task `id`. -/
theorem update {c' : ℕ} (h : k.Done env c id) (later : k.nextCall ≤ k'.nextCall)
    (draws : k.draws ≤ k'.draws) (rests : c' = c → call.pending = 0)
    (sole : call.taskId = id → c' = c) (calls : k'.calls = k.calls.insert c' call) :
    k'.Done env c id where
  started := h.started.trans_le later
  drawn := h.drawn.imp fun _ => And.imp_left (lt_of_lt_of_le · draws)
  rests := by
    intro call' there
    rw [calls, UnorderedMap.lookup_insert] at there
    split at there
    · next here => exact Option.some.inj there ▸ rests here.symm
    · exact h.rests call' there
  sole := by
    intro c'' call' there own
    rw [calls, UnorderedMap.lookup_insert] at there
    split at there
    · next here =>
      rw [← Option.some.inj there] at own
      exact here.trans (sole own)
    · exact h.sole c'' call' there own

/-- A call that waits for nothing acts, and still waits for nothing. -/
theorem rests_act {hand : Hand} {events : List PipelineEvent} {frames : List PipelineFrame}
    (act : call.Act env P hand c call' events frames) (rests : call.pending = 0) :
    call'.pending = 0 := by
  cases act with
  | abandon waits => exact absurd waits (rests ▸ Nat.lt_irrefl 0)
  | outcome klass waits => exact absurd waits (rests ▸ Nat.lt_irrefl 0)
  | retry r circuitOpen shield now delay upTrace empty waits =>
    exact absurd waits (rests ▸ Nat.lt_irrefl 0)
  | _ => exact rests

theorem move (m : k.Move env P k') (h : k.Done env c id) : k'.Done env c id := by
  obtain ⟨n, earlier, name⟩ := h.drawn
  have named : id ≠ "" := name ▸ taskId_ne _
  cases m with
  | launch w summary now t0 delay upTrace call holds built =>
    subst built
    refine h.update (Nat.le_succ _) (Nat.le_succ _) (fun same => ?_) (fun own => ?_) rfl
    · exact absurd same (Nat.ne_of_gt h.started)
    · exact absurd own.symm named
  | launchAbsent w summary now t0 r call holds built =>
    subst built
    refine h.update (Nat.le_succ _) (Nat.le_succ _) (fun same => ?_) (fun own => ?_) rfl
    · exact absurd same (Nat.ne_of_gt h.started)
    · exact absurd own.symm named
  | act c' call call' events frames stored act =>
    refine h.update le_rfl le_rfl (fun same => ?_) (fun own => ?_) rfl
    · exact rests_act act (h.rests call (same ▸ stored))
    · exact h.sole c' call stored (act.same.taskId ▸ own)
  | attach c' call taskId stored without fresh =>
    refine h.update le_rfl (Nat.le_succ _) (fun same => ?_) (fun own => ?_) rfl
    · exact h.rests call (same ▸ stored)
    · -- the task is new, and `id` is not
      have equal : n = k.draws := by
        refine env.distinct 8 ((String.append_right_inj _).mp (name.symm.trans ?_))
        exact own.symm.trans fresh
      omega
  | destroy c' call below top stored =>
    refine ⟨h.started, h.drawn, fun call' there => ?_, fun c'' call' there => ?_⟩
    · change (k.calls.erase c').lookup c = some call' at there
      rw [UnorderedMap.lookup_erase] at there
      split at there
      · cases there
      · exact h.rests call' there
    · change (k.calls.erase c').lookup c'' = some call' at there
      rw [UnorderedMap.lookup_erase] at there
      split at there
      · cases there
      · exact h.sole c'' call' there
  | tick => exact ⟨h.started, ⟨n, Nat.lt_succ_of_lt earlier, name⟩, h.rests, h.sole⟩
  | _ => exact ⟨h.started, h.drawn, h.rests, h.sole⟩

end Done

end Core

namespace PipelineState

theorem done_step (regular : s.Regular env) (step : s.step env input = some s')
    (h : (s.core .empty).Done env c id) : (s'.core .empty).Done env c id := by
  have moves := step_moves regular.ok step (keeps_none s input)
  generalize s'.core .empty = k' at moves ⊢
  induction moves with
  | refl => exact h
  | tail _ m ih => exact ih.move m

/-- Once a call has heard all it will hear, its task stays its own and it waits for nothing. -/
theorem done_of_run (run : (Pipeline.machine env).Run h s)
    {u : TransitionSystem.Step PipelineState PipelineInput} (member : u ∈ h)
    (stored : u.post.calls.lookup c = some call) (rests : call.pending = 0)
    (named : call.taskId ≠ "") : (s.core .empty).Done env c call.taskId := by
  obtain ⟨later, earlier, rfl⟩ := List.append_of_mem member
  refine run.since (C := fun _ => True) (I := fun _ s => (s.core .empty).Done env c call.taskId)
    (fun _ _ => trivial) ?_ fun later v before step _ => done_step (regular_of_run before) step
  have regular := regular_of_run run.of_append.1
  refine ⟨regular.ok.orderly.numbered.call stored, regular.ok.tables.taskDrawn stored named, ?_, ?_⟩
  · intro call' there
    exact Option.some.inj (stored.symm.trans there) ▸ rests
  · exact fun c' call' there own => regular.ok.tables.eq_of_taskId there stored own (own ▸ named)

end PipelineState

/-- In a run that delivers every callback and in which no duplicate makes a task for a call that is
cancelled or has heard all it will hear, every working task is that of a live call that is not
cancelled and waits for its upstream. Once the last callback of a call has been delivered, the
call's task is over for good. -/
theorem no_orphan_task (run : (Pipeline.machine env).Run h s)
    (kept : ∀ t ∈ h, ∀ c, t.input ≠ .abandon c)
    (attended : ∀ t ∈ h, t.pre.strands env t.input = false) :
    s.Attached ∧ ∀ t ∈ h, ∀ c r clk call, t.input = .upstream c r clk →
      t.post.calls.lookup c = some call → call.pending = 0 → call.taskId ≠ "" →
      ∀ task, s.tasks.byId.lookup call.taskId = some task → task.status ≠ .working := by
  have tended := PipelineState.tended_of_run run kept attended
  have regular := PipelineState.regular_of_run run
  constructor
  · intro id t held working
    -- a working task has a call that is waited for
    obtain ⟨c, call, stored, own, waited⟩ := tended.worked id t held working
    have byTask := regular.ok.tables.task.mpr ⟨regular.taskId_ne held, call, stored, own⟩
    exact ⟨c, call, byTask, stored, own, waited⟩
  · intro t member c r clk call _ stored rests named task held working
    -- no other call has the task, and this one waits for nothing
    have done := PipelineState.done_of_run run member stored rests named
    obtain ⟨c', call', stored', own, waited⟩ := tended.worked _ task held working
    obtain rfl := done.sole c' call' stored' own
    exact absurd waited.waits (done.rests call' stored' ▸ Nat.lt_irrefl 0)

namespace OrphansExample

open PipelineExample

/-- A call by a client that understands tasks. -/
def duplicate : Request := { PipelineExample.call "b__t" 1 with caps := ⟨true⟩ }

/-- A call, and a duplicate of it that makes a task. -/
def attached : List PipelineInput :=
  forwarded (PipelineExample.call "b__t" 1) ++ [.handle duplicate clk]

/-- The shutdown comes before the duplicate; then the upstream answers and the timer fires. -/
def stopped : List PipelineInput :=
  forwarded (PipelineExample.call "b__t" 1) ++
    [.requestStop ["ffff"] [] (fun _ => clk) (fun _ => clk), .handle duplicate clk] ++
    finished 0 ++ [.promote 0 clk, .run clk]

/-- A task is working and its time is not over. -/
def works (s : PipelineState) : Bool :=
  s.tasks.byId.entries.any fun t =>
    decide (t.2.status = .working) && !MemTaskStore.expired 1 t.2

theorem exists_of_works (working : works s = true) : ∃ id t,
    s.tasks.byId.lookup id = some t ∧ t.status = .working ∧ MemTaskStore.expired 1 t = false := by
  obtain ⟨⟨id, t⟩, member, found⟩ := List.any_eq_true.mp working
  simp only [Bool.and_eq_true, decide_eq_true_eq, Bool.not_eq_true'] at found
  exact ⟨id, t, UnorderedMap.mem_entries_iff.mp member, found⟩

/-- No callback is abandoned. -/
abbrev Keeps (input : PipelineInput) : Prop := ∀ c, input ≠ .abandon c

end OrphansExample

open PipelineExample OrphansExample

/-- A task works for a call that waits. -/
theorem no_orphan_task_attached : ∃ h s, (Pipeline.machine (gateway {})).Run h s ∧
    (∃ id t, s.tasks.byId.lookup id = some t ∧ t.status = .working) ∧
    s.Attached ∧ ∀ t ∈ h, ∀ c r clk call, t.input = .upstream c r clk →
      t.post.calls.lookup c = some call → call.pending = 0 → call.taskId ≠ "" →
      ∀ task, s.tasks.byId.lookup call.taskId = some task → task.status ≠ .working := by
  obtain ⟨h, s, run, checked, reached⟩ := TransitionSystem.exists_run_of (q := Keeps)
    (M := Pipeline.machine (gateway {})) attached
    (fun s input => !s.strands (gateway {}) input) works
    (by simp [attached, forwarded, Keeps]) (start_init _) (by decide +kernel)
  obtain ⟨id, t, held, working, -⟩ := exists_of_works reached
  exact ⟨h, s, run, ⟨id, t, held, working⟩, no_orphan_task run
    (fun t member => (checked t member).2)
    fun t member => by simpa using (checked t member).1⟩

/-- Every callback is delivered, and still a task is left working when no call is left. -/
theorem orphan_task : ∃ h s, (Pipeline.machine (gateway {})).Run h s ∧
    (∀ t ∈ h, ∀ c, t.input ≠ .abandon c) ∧ s.calls = ∅ ∧
    (∃ id t, s.tasks.byId.lookup id = some t ∧ t.status = .working ∧
      MemTaskStore.expired 1 t = false) ∧ ¬ s.Attached := by
  obtain ⟨h, s, run, checked, reached⟩ := TransitionSystem.exists_run_of (q := Keeps)
    (M := Pipeline.machine (gateway {})) stopped (fun _ _ => true)
    (fun s => works s && s.calls.entries.isEmpty)
    (by simp [stopped, forwarded, finished, Keeps]) (start_init _) (by decide +kernel)
  obtain ⟨working, none⟩ := Bool.and_eq_true _ _ |>.mp reached
  have empty : s.calls = ∅ := UnorderedMap.eq_empty_iff.mpr fun c => by
    refine Option.eq_none_iff_forall_ne_some.mpr fun call stored => ?_
    have member := UnorderedMap.mem_entries_iff.mpr stored
    rw [List.isEmpty_iff.mp none] at member
    cases member
  obtain ⟨id, t, held, status, current⟩ := exists_of_works working
  refine ⟨h, s, run, fun t member => (checked t member).2, empty,
    ⟨id, t, held, status, current⟩, ?_⟩
  intro all
  obtain ⟨c, call, -, stored, -⟩ := all id t held status
  rw [empty] at stored
  cases stored

end Perfacet
