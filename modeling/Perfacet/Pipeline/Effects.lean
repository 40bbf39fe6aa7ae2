import Perfacet.Pipeline.Tasks

/-!
# What steps do to tasks

Every step has the effect on the store that its input allows, and answers what its input
allows it to say about tasks and calls.

## Main results

* `PipelineState.step_effect` — what a step does to the store and what it answers
* `PipelineState.regular_of_run` — what is known of every state of every run
-/

namespace Perfacet

variable {env : Env} {s s' : PipelineState} {c : ℕ} {call : Call} {req : Request}
  {reads : UInt64 → Prop} {writes : String → TaskStatus → Json → Prop} {enters : Task → Prop}
  {a : MemTaskStore}

namespace PipelineState

/-! ## Requests -/

theorem startSpan_eq (env : Env) (s : PipelineState) (req : Request) (spanName : String)
    (now : UInt64) : ∃ n tracer ctx, s.startSpan env req spanName now =
      ({ s with draws := s.draws + n, tracer := tracer }, ctx) := by
  unfold startSpan
  by_cases new : req.trace.traceId.isEmpty
  · exact ⟨2, _, _, by rw [if_pos new]; rfl⟩
  · exact ⟨1, _, _, by rw [if_neg new]; rfl⟩

/-- Receiving a request logs it, draws ids and starts spans. -/
theorem received_eq (env : Env) (s : PipelineState) (req : Request) (clk : Clock) :
    ∃ n tracer ctx fin, s.received env req clk =
      ({ s with
          nextRequest := s.nextRequest + 1
          log := .request s.nextRequest req :: s.log
          draws := s.draws + n
          tracer := tracer },
        { req with trace := ctx }, fin) ∧ fin.rid = s.nextRequest := by
  obtain ⟨n, tracer, total, opened⟩ := startSpan_eq env
    { s with nextRequest := s.nextRequest + 1, log := .request s.nextRequest req :: s.log } req
    "total" (clk 1)
  unfold received
  dsimp only
  rw [opened]
  obtain ⟨m, tracer', gateway, opened⟩ := startSpan_eq env
    { s with
      nextRequest := s.nextRequest + 1
      log := .request s.nextRequest req :: s.log
      draws := s.draws + n
      tracer := tracer } { req with trace := total } "gateway" (clk 2)
  dsimp only
  rw [opened]
  exact ⟨n + m, tracer', gateway, _, by rw [Nat.add_assoc], rfl⟩

/-- Only the owner finds a task. -/
theorem getTask_cases (s : PipelineState) (taskId : String) (who : Principal) (now : UInt64) :
    ((∀ t, (s.tasks.sweep now).byId.lookup taskId = some t → t.agentId ≠ who.agentId) ∧
        s.getTask taskId who now = ({ s with tasks := s.tasks.sweep now }, none)) ∨
      ∃ t, (s.tasks.sweep now).byId.lookup taskId = some t ∧ t.agentId = who.agentId ∧
        s.getTask taskId who now = ({ s with tasks := s.tasks.sweep now }, some t) := by
  unfold getTask MemTaskStore.get
  dsimp only
  cases found : (s.tasks.sweep now).byId.lookup taskId with
  | none => exact .inl ⟨fun t same => (by cases same), rfl⟩
  | some t =>
    by_cases own : t.agentId = who.agentId
    · exact .inr ⟨t, rfl, own, by rw [Option.filter_some, if_pos (decide_eq_true own)]⟩
    · refine .inl ⟨fun t' same => Option.some.inj same ▸ own, ?_⟩
      rw [Option.filter_some, if_neg (by simpa using own)]

/-! ### A task is cancelled -/

/-- The part of `cancelTask` that tells the call of the task. -/
def cancelByTask (s : PipelineState) (taskId : String) (clk : Clock) : PipelineState :=
  match s.byTask.lookup taskId with
  | some c =>
    match s.calls.lookup c with
    | some call => s.cancelWait c call clk
    | none => s
  | none => s

theorem cancelTask_some (s : PipelineState) (taskId : String) (who : Principal) (fin : Finish)
    (clk : Clock) {t : Task}
    (found : s.getTask taskId who (clk 3) = ({ s with tasks := s.tasks.sweep (clk 3) }, some t)) :
    ∃ store, store = (s.tasks.sweep (clk 3)).updateStatus taskId .cancelled .null (clk 4) ∧
      s.cancelTask taskId who fin (clk.after 3) =
        ({ s with tasks := store }.cancelByTask taskId (clk.after 5)).finish fin
          (.ofBody (cancelledBody taskId)) (clk 8) := by
  unfold cancelTask
  rw [show clk.after 3 0 = clk 3 from rfl, found]
  exact ⟨_, rfl, rfl⟩

/-- The call that works on a cancelled task is cancelled. -/
theorem over_cancelByTask (s : PipelineState)
    (tables : Tables env s.inflight s.calls s.live s.byTask s.draws)
    {taskId : String} (named : taskId ≠ "") (clk : Clock) :
    (s.cancelByTask taskId clk).Over taskId := by
  intro c' call' stored' owns
  unfold cancelByTask at stored'
  split at stored'
  · next c found =>
    obtain ⟨-, call, stored, same⟩ := tables.task.mp found
    rw [stored] at stored'
    dsimp only at stored'
    have calls : (s.cancelWait c call clk).calls = _ :=
      congrArg Core.calls (cancelWait_frame s c call clk .empty)
    rw [calls, UnorderedMap.lookup_insert] at stored'
    split at stored'
    · rw [← Option.some.inj stored']
      exact .inl rfl
    · next other =>
      exact absurd (tables.eq_of_taskId stored' stored (owns.trans same.symm) (owns ▸ named)) other
  · next missing =>
    have found := tables.task.mpr ⟨named, call', stored', owns⟩
    rw [missing] at found
    cases found

theorem evolves_cancelByTask (s : PipelineState)
    (tables : Tables env s.inflight s.calls s.live s.byTask s.draws)
    {taskId : String} (clk : Clock) (h : a.Evolves reads writes (fun _ => False) s.tasks)
    (read : reads (clk 2)) (written : writes taskId .cancelled .null) :
    a.Evolves reads writes (fun _ => False) (s.cancelByTask taskId clk).tasks ∧
      Answers Plain s (s.cancelByTask taskId clk) := by
  unfold cancelByTask
  split
  · next c found =>
    obtain ⟨-, call, stored, rfl⟩ := tables.task.mp found
    rw [stored]
    exact ⟨evolves_cancelWait h c read fun _ _ _ => written, answers_cancelWait s c call clk⟩
  · exact ⟨h, .refl s⟩

theorem plain_taskNotFound : taskNotFound.Plain := Response.plain_error ..

/-- A step that ends with an answer. -/
theorem effect_finish {input : PipelineInput} {fin : Finish} {r : Response} {now : UInt64}
    (tasks : s.tasks.Evolves input.Reads (s.Writes (s'.finish fin r now) input)
      (Enters env s (s'.finish fin r now) input) s'.tasks)
    (answers : Answers (s.Says (s'.finish fin r now) input) s s')
    (said : s.Says (s'.finish fin r now) input fin.rid r) :
    Effect env s (s'.finish fin r now) input where
  tasks := by
    rw [tasks_finish]
    exact tasks
  answers := answers.trans (answers_finish s' fin r now
    ⟨said.reply, fun own => (said.fits own).congr (alike_stamp ..)⟩)

theorem calls_finish (s : PipelineState) (fin : Finish) (r : Response) (now : UInt64) :
    (s.finish fin r now).calls = s.calls :=
  congrArg Core.calls (core_finish s fin r now .empty)

theorem mem_log_finish {e : PipelineEvent} (member : e ∈ s.log) (fin : Finish) (r : Response)
    (now : UInt64) : e ∈ (s.finish fin r now).log :=
  (answers_finish s fin r now (p := fun _ _ => True) trivial).log.suffix.subset member

/-- What `tasks/cancel` does. -/
theorem effect_cancelTask (tables : Tables env s.inflight s.calls s.live s.byTask s.draws)
    (drawn : Drawn env s.draws s.tasks) {fin : Finish} (asked : .request fin.rid req ∈ s.log)
    (method : req.method = "tasks/cancel") (clk : Clock) :
    Effect env s (s.cancelTask req.name req.who fin (clk.after 3)) (.handle req clk) := by
  have read : ∀ i, PipelineInput.Reads (.handle req clk) (clk i) := fun i => ⟨i, rfl⟩
  rcases s.getTask_cases req.name req.who (clk 3) with ⟨-, found⟩ | ⟨t, stored, own, found⟩
  · have done : s.cancelTask req.name req.who fin (clk.after 3) =
        { s with tasks := s.tasks.sweep (clk 3) }.finish fin taskNotFound (clk 4) := by
      unfold cancelTask
      rw [show clk.after 3 0 = clk 3 from rfl, found]
      rfl
    rw [done]
    exact effect_finish ((MemTaskStore.Evolves.refl _).sweep (read 3)) (.of_eq rfl rfl)
      (.plain plain_taskNotFound)
  · have named : req.name ≠ "" := by
      rw [MemTaskStore.lookup_sweep] at stored
      obtain ⟨-, n, -, same⟩ := drawn _ _ (Option.filter_eq_some_iff.mp stored).1
      rw [same]
      exact taskId_ne _
    obtain ⟨store, write, done⟩ := cancelTask_some s req.name req.who fin clk found
    generalize s.cancelTask req.name req.who fin (clk.after 3) = out at done ⊢
    have told := over_cancelByTask { s with tasks := store } tables named (clk.after 5)
    have ended : out.Over req.name := by
      intro c call there
      rw [done, calls_finish] at there
      exact told c call there
    have written : s.Writes out (.handle req clk) req.name .cancelled .null :=
      .cancel ended method stored own
    have swept : s.tasks.Evolves (PipelineInput.Reads (.handle req clk))
        (s.Writes out (.handle req clk)) (fun _ => False) (s.tasks.sweep (clk 3)) :=
      (MemTaskStore.Evolves.refl _).sweep (read 3)
    have cancelled := swept.updateStatus (read 4) (fun _ _ _ => written) fun _ => id
    rw [← write] at cancelled
    obtain ⟨evolves, answers⟩ := evolves_cancelByTask { s with tasks := store } tables (clk.after 5)
      cancelled (read 7) written
    rw [done] at evolves ⊢
    have before : Answers Plain s { s with tasks := store } := .of_eq rfl rfl
    refine effect_finish (evolves.mono (fun _ => id) (fun _ _ _ => id) fun _ => False.elim)
      ((before.trans answers).mono fun _ _ => .plain) ?_
    refine ⟨.cancelled (mem_log_finish (answers.log.suffix.subset asked) fin _ _) stored own method,
      fun _ => Response.consistent_ofBody ?_⟩
    simp [cancelledBody, Json.ofMembers, Json.field?, Json.lookup_setField]

/-! ### A duplicate comes in -/

/-- The entry that a duplicate finds belongs to a live call. -/
theorem liveCall_of_lookup (tables : Tables env s.inflight s.calls s.live s.byTask s.draws)
    (entered : (s.core .empty).Entered) {agentId hash : String} {key : ToolKey} {e : InFlightEntry}
    (looked : s.inflight.lookup agentId key hash = some e) :
    ∃ c call, s.calls.lookup c = some call ∧ e.Tells e.inflightId call ∧
      s.liveCall e.inflightId = some (c, call) := by
  obtain ⟨id, -, found⟩ := InFlight.exists_of_lookup looked
  obtain ⟨c, call, stored, tells⟩ := entered id e found
  obtain rfl := tells.entryId
  have live : s.live.lookup e.inflightId = some c :=
    tables.alive.mpr ⟨call, stored, tells.inflightId⟩
  have stored : s.calls.lookup c = some call := stored
  refine ⟨c, call, stored, tells, ?_⟩
  rw [liveCall, live]
  dsimp only
  rw [stored]
  rfl

theorem knownTask_of_tells {e : InFlightEntry} {id : String} (tells : e.Tells id call) (c : ℕ) :
    knownTask e (some (c, call)) = call.taskId := by
  unfold knownTask
  dsimp only
  rw [tells.taskId]
  split <;> rfl

/-- What a duplicate does, and what it is told. -/
theorem answerDuplicate_spec (env : Env) (s : PipelineState) (req : Request) (key : ToolKey)
    (hit : InFlightEntry) (clk : Clock) (live : s.liveCall hit.inflightId = some (c, call))
    (known : knownTask hit (some (c, call)) = call.taskId) :
    let t := made env s.draws req.who key hit.startedAtMs (clk 0)
    let out := s.answerDuplicate env req key hit clk
    out.1.log = s.log ∧ out.1.stack = s.stack ∧
      ((out.1.calls = s.calls ∧ out.1.tasks = s.tasks ∧
          ∃ text, out.2.body = callToolText (text ++ "if_" ++ hit.inflightId ++ "\"") true ∧
            out.2.isError = false) ∨
        (req.caps.tasks = true ∧ out.1.calls = s.calls ∧ out.1.tasks = s.tasks.sweep (clk 2) ∧
          Told out.1.tasks call.taskId out.2) ∨
        (out.1.calls = s.calls ∧ out.1.tasks = s.tasks.sweep (clk 1) ∧ out.2.Plain) ∨
        (req.caps.tasks = true ∧ call.taskId = "" ∧ out.1.draws = s.draws + 1 ∧
          (s.tasks.insert t (clk 1)).2 = true ∧
          out.1.tasks = (s.tasks.insert t (clk 1)).1.sweep (clk 2) ∧
          out.1.calls = s.calls.insert c { call with taskId := t.taskId } ∧
          Told out.1.tasks t.taskId out.2)) := by
  unfold answerDuplicate
  dsimp only
  split
  · next capable =>
    -- neither the counter nor the span decides what is answered
    generalize noted : (setSpan (setSpan _ _ _ _) _ _ _ : PipelineState) = s'
    have same : s'.liveCall hit.inflightId = some (c, call) ∧ s'.log = s.log ∧
        s'.stack = s.stack ∧ s'.tasks = s.tasks ∧ s'.calls = s.calls ∧ s'.draws = s.draws := by
      rw [← noted]
      exact ⟨live, rfl, rfl, rfl, rfl, rfl⟩
    obtain ⟨live', log, stack, tasks, calls, draws⟩ := same
    rw [live', known]
    split
    · next without =>
      obtain ⟨draws', log', stack', made⟩ := duplicateTask_spec env s' req key hit c call clk
      rw [tasks, calls, draws] at made
      rw [draws] at draws'
      refine ⟨log'.trans log, stack'.trans stack, .inr (.inr ?_)⟩
      rcases made with ⟨tasks', calls', said⟩ | ⟨room, tasks', calls', said⟩
      · exact .inl ⟨calls', tasks', said⟩
      · exact .inr ⟨capable, String.isEmpty_iff.mp without, draws', room, tasks', calls', said⟩
    · have told := told_answerTask s' call.taskId (clk 2)
      rw [answerTask_fst]
      rw [tasks] at told ⊢
      split
      · exact ⟨log, stack, .inr (.inl ⟨capable, calls, rfl, told⟩)⟩
      · exact ⟨log, stack, .inr (.inl ⟨capable, calls, rfl, told⟩)⟩
  · -- the text ends with the token, in quotation marks
    have opens : ∀ before : String, before ++ "\"]=\"if_" = before ++ "\"]=\"" ++ "if_" := by
      intro before
      rw [String.append_assoc]
      rfl
    refine ⟨rfl, rfl, .inl ⟨rfl, rfl, "in-flight call still running for " ++ key.str ++
      "; params=" ++ hit.paramsSummary ++ "; elapsed_ms=" ++
      toString (clk 0 - hit.startedAtMs).toNat ++
      "; confirm with _meta[\"" ++ kConfirmKey ++ "\"]=\"", ?_, rfl⟩⟩
    exact congrArg (fun text => callToolText (text ++ hit.inflightId ++ "\"") true) (opens _)

/-- A new task is entered, if the store has room. -/
theorem evolves_made {input : PipelineInput} (drawn : Drawn env s.draws s.tasks) {who : Principal}
    {key : ToolKey} {createdAt made_at now : UInt64} {n : ℕ} (later : s.draws ≤ n)
    (before : n < s'.draws) (read : input.Reads now)
    (maker : s.MakesFor env s' input (made env n who key createdAt made_at)) :
    s.tasks.Evolves input.Reads (s.Writes s' input) (Enters env s s' input)
      (s.tasks.insert (made env n who key createdAt made_at) now).1 :=
  .insert read ⟨rfl, rfl, rfl, ⟨n, later, before, rfl⟩, maker⟩ (drawn.new later)

/-- No call has a task that was not made yet. -/
theorem taskId_ne_made (tables : Tables env s.inflight s.calls s.live s.byTask s.draws)
    (stored : s.calls.lookup c = some call) {n : ℕ} (later : s.draws ≤ n) :
    call.taskId ≠ "tsk_" ++ env.randomHex 8 n := by
  intro same
  obtain ⟨m, earlier, drawn⟩ := tables.taskDrawn stored (same ▸ taskId_ne _)
  have equal : n = m := env.distinct 8 ((String.append_right_inj _).mp (same.symm.trans drawn))
  omega

theorem Drawn.later {draws : ℕ} (drawn : Drawn env draws a) (n : ℕ) : Drawn env (draws + n) a :=
  fun id t stored =>
    have ⟨named, m, earlier, same⟩ := drawn id t stored
    ⟨named, m, Nat.lt_add_right n earlier, same⟩

theorem Drawn.named {draws : ℕ} {store : MemTaskStore} (drawn : Drawn env draws a)
    (h : a.Evolves reads writes enters store) {id : String} {t : Task}
    (stored : store.byId.lookup id = some t) : t.taskId = id := by
  rcases h.found stored with ⟨old, before, same, -⟩ | ⟨-, named, -⟩
  · exact same.taskId.trans (drawn id old before).1
  · exact named

/-- What a duplicate without the confirm token does. -/
theorem effect_answerDuplicate (tables : Tables env s.inflight s.calls s.live s.byTask s.draws)
    (entered : (s.core .empty).Entered) (drawn : Drawn env s.draws s.tasks) {fin : Finish}
    (asked : .request fin.rid req ∈ s.log) {hash : String} {key : ToolKey} {e : InFlightEntry}
    (parsed : ToolKey.parse req.name = some key) (hashed : paramsHashOf req.params = .ok hash)
    (looked : s.inflight.lookup req.who.agentId key hash = some e)
    (method : req.method = "tools/call")
    (allowed : RankPolicy.authorizeCall env.catalog req.who key = .allow) {confirm : String}
    (token : confirmToken req = .ok confirm) (loose : tokenMatches confirm (some e) = false)
    (ctx : TraceContext) (clk : Clock) {s₁ : PipelineState} {r : Response}
    (done : s.answerDuplicate env { req with trace := ctx } key e (clk.after 3) = (s₁, r)) :
    Effect env s (s₁.finish fin r (clk 6)) (.handle req clk) := by
  have read : ∀ i, PipelineInput.Reads (.handle req clk) (clk i) := fun i => ⟨i, rfl⟩
  obtain ⟨c, call, stored, tells, live⟩ := liveCall_of_lookup tables entered looked
  obtain ⟨log, stack, effect⟩ := answerDuplicate_spec env s { req with trace := ctx } key e
    (clk.after 3) live (knownTask_of_tells tells c)
  rw [done] at log stack effect
  dsimp only at log stack effect
  have alive := (liveCall_spec live).1
  have asked' : .request fin.rid req ∈ (s₁.finish fin r (clk 6)).log :=
    mem_log_finish (log ▸ asked) ..
  -- the handle is that of the task of the call
  have shared : ∀ {id call'}, req.caps.tasks = true → s₁.calls.lookup c = some call' →
      call'.req = call.req → call'.taskId = id → Told s₁.tasks id r →
      (∀ {t}, s₁.tasks.byId.lookup id = some t → t.taskId = id) →
      s.Says (s₁.finish fin r (clk 6)) (.handle req clk) fin.rid r := by
    intro id call' capable stored' same own told named
    refine ⟨?_, fun _ => told.consistent⟩
    rcases told.names with plain | ⟨t, found, body⟩
    · exact .plain plain
    · have agent : call'.req.who.agentId = e.agentId := by rw [same, tells.agentId]
      have kept : (s₁.finish fin r (clk 6)).calls.lookup c = some call' := by
        rw [calls_finish]
        exact stored'
      have held : (s₁.finish fin r (clk 6)).tasks.byId.lookup t.taskId = some t := by
        rw [tasks_finish, named found]
        exact found
      rw [body]
      exact .shared asked' hashed looked kept agent (own.trans (named found).symm) held parsed
        capable alive
  have before : ∀ {p : ℕ → Response → Prop}, Answers p s s₁ := .of_eq log stack
  have reread : ∀ i, s.tasks.Evolves (PipelineInput.Reads (.handle req clk))
      (s.Writes (s₁.finish fin r (clk 6)) (.handle req clk))
      (Enters env s (s₁.finish fin r (clk 6)) (.handle req clk)) (s.tasks.sweep (clk i)) :=
    fun i => (MemTaskStore.Evolves.refl _).sweep (read i)
  -- the notice, the handle of the task that is there, a full store, or a new task
  rcases effect with ⟨-, tasks, text, body, result⟩ | ⟨capable, calls, tasks, told⟩ |
    ⟨-, tasks, plain⟩ | ⟨capable, without, draws, -, tasks, calls, told⟩
  · refine effect_finish (tasks ▸ .refl _) before ⟨?_, fun _ => ⟨fun failed => ?_, fun _ => ?_⟩⟩
    · rw [body]
      exact .notice asked' hashed looked
    · rw [result] at failed
      cases failed
    · rw [body]
      exact Json.not_isRpcError_callToolText _ _
  · have swept := reread 5
    refine effect_finish (tasks ▸ swept) before
      (shared capable (calls ▸ stored) rfl rfl told fun found => ?_)
    rw [tasks] at found
    exact drawn.named swept found
  · exact effect_finish (tasks ▸ reread 4) before (.plain plain)
  · have attached : s₁.calls.lookup c =
        some { call with taskId := "tsk_" ++ env.randomHex 8 s.draws } := by
      rw [calls]
      exact AList.lookup_insert _
    have gets : s.Gets (s₁.finish fin r (clk 6)) c call ("tsk_" ++ env.randomHex 8 s.draws) := by
      refine ⟨stored, without, { call with taskId := "tsk_" ++ env.randomHex 8 s.draws }, ?_, rfl,
        rfl, rfl⟩
      rw [calls_finish]
      exact attached
    -- a task is made, and the call that is running gets it
    have maker : s.MakesFor env (s₁.finish fin r (clk 6)) (.handle req clk)
        (made env s.draws req.who key e.startedAtMs (clk 3)) := by
      refine .duplicate hashed looked rfl (fun c' call' stored' own => ?_) parsed capable alive gets
        method allowed ⟨confirm, token, loose⟩
      rw [calls_finish, calls, UnorderedMap.lookup_insert] at stored'
      split at stored'
      · rw [← Option.some.inj stored']
        exact tells.agentId.symm
      · exact absurd own (taskId_ne_made tables stored' le_rfl)
    have draws : (s₁.finish fin r (clk 6)).draws = s.draws + 1 :=
      (congrArg Core.draws (core_finish s₁ fin r (clk 6) .empty)).trans draws
    have swept := (evolves_made drawn le_rfl (draws ▸ Nat.lt_succ_self _) (read 4) maker).sweep
      (read 5)
    refine effect_finish (tasks ▸ swept) before
      (shared capable attached rfl rfl told fun found => ?_)
    rw [tasks] at found
    exact drawn.named swept found

/-! ### Every request -/

theorem effect_aside (h : Aside s s') (input : PipelineInput) : Effect env s s' input where
  tasks := h.tasks ▸ .refl _
  answers := h.answers.mono fun _ _ => .plain

theorem aside_emit_threw (s : PipelineState) (rid : ℕ) : Aside s (s.emit (.threw rid)) :=
  ⟨rfl, .emit s fun _ _ same => by cases same⟩

theorem effect_handleUpstream (tables : Tables env s.inflight s.calls s.live s.byTask s.draws)
    (entered : (s.core .empty).Entered) (drawn : Drawn env s.draws s.tasks) {fin : Finish}
    (asked : .request fin.rid req ∈ s.log) {key : ToolKey}
    (parsed : ToolKey.parse req.name = some key) (method : req.method = "tools/call")
    (allowed : RankPolicy.authorizeCall env.catalog req.who key = .allow) (ctx : TraceContext)
    (clk : Clock) :
    Effect env s (s.handleUpstream env { req with trace := ctx } key fin (clk.after 3))
      (.handle req clk) := by
  unfold handleUpstream
  dsimp only
  cases hashed : paramsHashOf req.params with
  | error e => exact effect_aside (aside_emit_threw ..) _
  | ok hash =>
    dsimp only
    cases token : confirmToken { req with trace := ctx } with
    | error e => exact effect_aside (aside_emit_threw ..) _
    | ok confirm =>
      dsimp only
      cases looked : s.inflight.lookup req.who.agentId key hash with
      | none => exact effect_aside (aside_handOver ..) _
      | some e =>
        cases loose : tokenMatches confirm (some e) with
        | true => exact effect_aside (aside_handOver ..) _
        | false =>
          exact effect_answerDuplicate tables entered drawn asked parsed hashed looked method
            allowed token loose ctx clk rfl

theorem plain_unknownTool : Response.Plain { Response.ofBody unknownTool with klass := .authz } :=
  show Response.Plain (.ofText .authz "unknown tool") from Response.plain_text (by decide) _

theorem plain_denyTool : Response.Plain { Response.ofBody denyTool with klass := .authz } :=
  show Response.Plain (.ofText .authz "not allowed") from Response.plain_text (by decide) _

/-- The gateway's own tools say nothing about tasks and calls. -/
theorem handleBuiltin_spec (env : Env) (s : PipelineState) (req : Request) (key : ToolKey)
    (clk : Clock) :
    Aside s (s.handleBuiltin env req key clk).1 ∧
      ∀ r, (s.handleBuiltin env req key clk).2 = .ok r → r.Plain := by
  have text : ∀ {klass : FailureClass} {t : String} {r : Response},
      (.ok (.ofText klass t) : Except JsonError Response) = .ok r → t.toList.getLast? ≠ some '"' →
      r.Plain := by
    rintro klass t r same plain
    cases same
    exact Response.plain_text plain klass
  have result : ∀ {e : Except JsonError String} {r : Response},
      (do let t ← e; pure (.ofBody (callToolText t false)) : Except JsonError Response) = .ok r →
      r.Plain := by
    intro e r same
    cases e with
    | error _ => cases same
    | ok t =>
      cases same
      exact Response.plain_result t
  unfold handleBuiltin
  split
  · split
    · exact ⟨.refl s, fun r same => text same (by decide)⟩
    · dsimp only
      split
      · exact ⟨.refl s, fun r same => by cases same⟩
      · split
        · exact ⟨.refl s, fun r same => text same (by decide)⟩
        · split
          · exact ⟨.refl s, fun r same => text same (by decide)⟩
          · refine ⟨.of_eq rfl rfl rfl, fun r same => ?_⟩
            dsimp only [draw] at same
            generalize Json.dump _ = line at same
            cases line with
            | error _ => cases same
            | ok _ => exact result same
  · split
    · split
      · refine ⟨.refl s, fun r same => ?_⟩
        cases same
        exact plain_denyTool
      · exact ⟨.refl s, fun r same => result same⟩
    · refine ⟨.refl s, fun r same => ?_⟩
      cases same
      exact plain_unknownTool

theorem effect_handleCall (tables : Tables env s.inflight s.calls s.live s.byTask s.draws)
    (entered : (s.core .empty).Entered) (drawn : Drawn env s.draws s.tasks) {fin : Finish}
    (asked : .request fin.rid req ∈ s.log) (method : req.method = "tools/call")
    (ctx : TraceContext) (clk : Clock) :
    Effect env s (s.handleCall env { req with trace := ctx } fin (clk.after 3))
      (.handle req clk) := by
  unfold handleCall
  dsimp only
  split
  · exact effect_aside (aside_finish _ _ _ plain_unknownTool) _
  · next key parsed =>
    split
    · exact effect_aside (aside_finish _ _ _ plain_unknownTool) _
    · exact effect_aside (aside_finish _ _ _ plain_denyTool) _
    · next allowed =>
      split
      · obtain ⟨built, plain⟩ := handleBuiltin_spec env s { req with trace := ctx } key
          (clk.after 3)
        revert built plain
        generalize s.handleBuiltin env { req with trace := ctx } key (clk.after 3) = done
        obtain ⟨s', outcome⟩ := done
        intro built plain
        cases outcome with
        | ok r => exact effect_aside (built.trans (aside_finish _ _ _ (plain r rfl))) _
        | error e => exact effect_aside (built.trans (aside_emit_threw ..)) _
      · exact effect_handleUpstream tables entered drawn asked parsed method allowed ctx clk

theorem consistent_taskBody (t : Task) : (Response.ofBody (taskBody t)).Consistent := by
  refine Response.consistent_ofBody ?_
  unfold taskBody
  cases t.status <;> simp [Json.ofMembers, Json.set, Json.field?, Json.lookup_setField]

theorem effect_dispatch (tables : Tables env s.inflight s.calls s.live s.byTask s.draws)
    (entered : (s.core .empty).Entered) (drawn : Drawn env s.draws s.tasks) {fin : Finish}
    (asked : .request fin.rid req ∈ s.log) (ctx : TraceContext) (clk : Clock) :
    Effect env s (s.dispatch env { req with trace := ctx } fin (clk.after 3))
      (.handle req clk) := by
  have read : ∀ i, PipelineInput.Reads (.handle req clk) (clk i) := fun i => ⟨i, rfl⟩
  have discover : (Response.ofBody discoverBody).Plain := by
    refine ⟨Json.nameless_of_content ?_ ?_ ?_, Response.consistent_ofBody ?_⟩ <;>
      simp [Response.ofBody, discoverBody, Json.ofMembers, Json.field?, Json.lookup_setField]
  have list : ∀ who now, (Response.ofBody (s.listBody env who now)).Plain := by
    intro who now
    refine ⟨Json.nameless_of_content ?_ ?_ ?_, Response.consistent_ofBody ?_⟩ <;>
      simp [Response.ofBody, listBody, Json.ofMembers, Json.field?, Json.lookup_setField]
  unfold dispatch
  dsimp only
  split
  · exact effect_aside (aside_finish _ _ _ discover) _
  split
  · exact effect_aside (aside_finish _ _ _ (list ..)) _
  split
  · next method =>
    rcases s.getTask_cases req.name req.who (clk 3) with ⟨-, found⟩ | ⟨t, stored, own, found⟩
    · rw [show clk.after 3 0 = clk 3 from rfl, found]
      exact effect_finish ((MemTaskStore.Evolves.refl _).sweep (read 3)) (.of_eq rfl rfl)
        (.plain plain_taskNotFound)
    · rw [show clk.after 3 0 = clk 3 from rfl, found]
      exact effect_finish ((MemTaskStore.Evolves.refl _).sweep (read 3)) (.of_eq rfl rfl)
        ⟨.status (mem_log_finish (s := { s with tasks := s.tasks.sweep (clk 3) }) asked ..)
          stored own method, fun _ => consistent_taskBody t⟩
  split
  · next method => exact effect_cancelTask tables drawn asked method clk
  split
  · next method => exact effect_handleCall tables entered drawn asked method ctx clk
  · exact effect_aside (aside_finish _ _ _ (Response.plain_error ..)) _

/-- What a request does, seen from before it was received. -/
theorem Effect.of_received {s₁ : PipelineState} {clk : Clock}
    (h : Effect env s₁ s' (.handle req clk)) (tasks : s₁.tasks = s.tasks)
    (inflight : s₁.inflight = s.inflight) (live : s₁.live = s.live) (calls : s₁.calls = s.calls)
    (draws : s.draws ≤ s₁.draws)
    (answers : Answers Plain s s₁) : Effect env s s' (.handle req clk) where
  tasks := by
    refine tasks ▸ h.tasks.mono (fun _ => id) (fun id status body written => ?_) fun t entered => ?_
    · cases written with
      | cancel ended method stored own => exact .cancel ended method (tasks ▸ stored) own
    · obtain ⟨n, later, before, named⟩ := entered.drawn
      refine { entered with drawn := ⟨n, draws.trans later, before, named⟩, maker := ?_ }
      cases entered.maker with
      | duplicate hashed looked owner only parsed capable alive gets method allowed loose =>
        exact .duplicate hashed (inflight ▸ looked) owner only parsed capable (live ▸ alive)
          { gets with before := calls ▸ gets.before } method allowed loose
  answers := by
    refine Answers.trans (answers.mono fun _ _ => .plain) (h.answers.mono fun rid r said => ?_)
    refine ⟨?_, said.fits⟩
    have reply := said.reply
    generalize r.body = body at reply
    cases reply with
    | plain nameless => exact .plain nameless
    | status asked stored own method => exact .status asked (tasks ▸ stored) own method
    | cancelled asked stored own method => exact .cancelled asked (tasks ▸ stored) own method
    | shared asked hashed looked stored agent own found parsed capable alive =>
      exact .shared asked hashed (inflight ▸ looked) stored agent own found parsed capable
        (live ▸ alive)
    | notice asked hashed looked => exact .notice asked hashed (inflight ▸ looked)

/-- A request comes in: it is logged, and what follows has its effect. -/
theorem effect_handle (tables : Tables env s.inflight s.calls s.live s.byTask s.draws)
    (entered : (s.core .empty).Entered) (drawn : Drawn env s.draws s.tasks) (req : Request)
    (clk : Clock) : Effect env s (s.handle env req clk) (.handle req clk) ∧
      .request s.nextRequest req ∈ (s.handle env req clk).log := by
  obtain ⟨n, tracer, ctx, fin, received, rid⟩ := received_eq env s req clk
  unfold handle
  rw [received]
  dsimp only
  have log : ∀ s₁ : PipelineState, s₁.log = .request s.nextRequest req :: s.log →
      s₁.stack = s.stack → .request fin.rid req ∈ s₁.log ∧ Answers Plain s s₁ := by
    intro s₁ logged stack
    refine ⟨?_, ?_, fun c r member => .inr (stack ▸ member)⟩
    · rw [logged, rid]
      exact List.mem_cons_self
    · rw [logged]
      exact (Grows.refl s.log).cons fun rid r same => by cases same
  have more : Tables env s.inflight s.calls s.live s.byTask (s.draws + n) := tables.later n
  obtain ⟨asked, answers⟩ := log { s with
    nextRequest := s.nextRequest + 1
    log := .request s.nextRequest req :: s.log
    draws := s.draws + n
    tracer := tracer } rfl rfl
  have effect := effect_dispatch (s := { s with
    nextRequest := s.nextRequest + 1
    log := .request s.nextRequest req :: s.log
    draws := s.draws + n
    tracer := tracer }) more entered (drawn.later n) asked ctx clk
  rw [rid] at asked
  exact ⟨effect.of_received rfl rfl rfl rfl (Nat.le_add_right ..) answers,
    effect.answers.log.suffix.subset asked⟩

/-! ## Calls -/

/-- The promote timer of a call runs out. -/
theorem effect_promote (tables : Tables env s.inflight s.calls s.live s.byTask s.draws)
    (drawn : Drawn env s.draws s.tasks) (stored : s.calls.lookup c = some call) (clk : Clock) :
    Effect env s ({ s with stack := .unref c :: s.stack }.onPromote env c
      { call with promoteArmed := false } clk) (.promote c clk) := by
  have read : ∀ i, PipelineInput.Reads (.promote c clk) (clk i) := fun i => ⟨i, rfl⟩
  obtain ⟨responded, id, calls, answers, effect⟩ := onPromote_spec env
    { s with stack := .unref c :: s.stack } c { call with promoteArmed := false } clk
  generalize onPromote env _ c _ clk = out at calls answers effect ⊢
  dsimp only at calls effect
  have stored' := calls ▸ AList.lookup_insert (a := c) s.calls
  have reread : ∀ i, s.tasks.Evolves (PipelineInput.Reads (.promote c clk))
      (s.Writes out (.promote c clk)) (Enters env s out (.promote c clk)) (s.tasks.sweep (clk i)) :=
    fun i => (MemTaskStore.Evolves.refl _).sweep (read i)
  have tasks : s.tasks.Evolves (PipelineInput.Reads (.promote c clk))
      (s.Writes out (.promote c clk)) (Enters env s out (.promote c clk)) out.tasks := by
    rcases effect with ⟨-, same | swept | swept⟩ | ⟨draws, runs, capable, without, rfl, inserted⟩
    · exact same ▸ .refl _
    · exact swept ▸ reread 1
    · exact swept ▸ reread 2
    · -- a task is made, and this call gets it
      have maker : s.MakesFor env out (.promote c clk)
          (made env s.draws call.req.who call.key call.t0 (clk 0)) := by
        refine .promoted stored rfl (fun c' call'' there own => ?_) capable runs
          ⟨stored, without, _, stored', rfl, rfl, rfl⟩
        rw [calls, UnorderedMap.lookup_insert] at there
        split at there
        · rw [← Option.some.inj there]
        · exact absurd own (taskId_ne_made tables there le_rfl)
      have entered := evolves_made drawn le_rfl (draws ▸ Nat.lt_succ_self _) (read 1) maker
      exact inserted ▸ entered.sweep (read 2)
  have pushed : ∀ {p : ℕ → Response → Prop}, Answers p s { s with stack := .unref c :: s.stack } :=
    ⟨.refl _, fun c' r member => .inr (by simpa using member)⟩
  refine ⟨tasks, pushed.trans (answers.mono fun rid r said => ?_)⟩
  rcases said with plain | ⟨rfl, capable, told⟩
  · exact .plain plain
  refine ⟨?_, fun _ => told.consistent⟩
  rcases told.names with plain | ⟨t, found, body⟩
  · exact .plain plain
  · have named := drawn.named tasks found
    rw [body]
    exact @Reply.promoted _ _ c _
      { call with promoteArmed := false, responded := responded, taskId := id } _
      stored' named.symm (named ▸ found) capable

/-- What goes out when outcome `r` is not tried again: the outcome as it is, or, if it is a failure
without content, the name of the failure. -/
structure Relays (r r' : Response) : Prop where
  isError : r'.isError = r.isError
  body : r'.body = if r.klass ≠ .ok ∧ !(r.body.isObject && r.body.contains "content") then
    callToolText (failureClassName r.klass) true else r.body

theorem Relays.named {r r' : Response} (relays : Relays r r') :
    r'.body = r.body ∨ r'.body.Nameless := by
  rw [relays.body]
  split
  · exact .inr (Json.nameless_text (failureClassName_plain _) true)
  · exact .inl rfl

/-- The outcome for a missing backend is plain whatever goes out. -/
theorem Relays.plain {r r' : Response} (relays : Relays r r') (plain : r.Plain)
    (result : r.isError = false) : r'.Plain := by
  have failed : r'.isError = true → False := by
    rw [relays.isError, result]
    rintro ⟨⟩
  refine ⟨relays.named.elim (fun same => same ▸ plain.nameless) id,
    ⟨fun marked => (failed marked).elim, fun _ => ?_⟩⟩
  rw [relays.body]
  split
  · exact Json.not_isRpcError_callToolText _ _
  · exact plain.consistent.result result

/-- The end of an outcome is told to a client that still waits. -/
theorem answers_settle (s : PipelineState) (c : ℕ) (call : Call) (r : Response) (clk : Clock) :
    Answers (fun _ r' => Relays r r' ∧ call.responded = false) s (s.settle c call r clk) := by
  unfold settle
  dsimp only
  generalize built : (if call.promoteTimer.isSome then _ else _ : Call) = call'
  have same : call'.responded = call.responded := by
    rw [← built]
    split <;> rfl
  generalize written : (if call'.taskId.isEmpty then s else _ : PipelineState) = s'
  have before : ∀ {p : ℕ → Response → Prop}, Answers p s s' := by
    rw [← written]
    split <;> exact .of_eq rfl rfl
  refine before.trans ?_
  refine (put_respond s' c call' _ (clk.after 1) fun silent r' alike => ?_).2.2.2
  refine ⟨⟨?_, ?_⟩, same ▸ silent⟩
  · rw [alike.isError]
    split <;> rfl
  · rw [alike.body]
    split <;> rfl

/-- What an outcome makes known: nothing to a client that does not wait, and nothing if it is
tried again. -/
theorem answers_onUpstream (s : PipelineState) (c : ℕ) (call : Call) (r : Response) (clk : Clock) :
    Answers (fun _ r' => Relays r r' ∧ call.responded = false ∧ call.cancelled = false ∧
        retries env call r (s.circuit.isOpen call.key.backend (clk 0)).2 (clk 2) = false) s
      (s.onUpstream env c call r clk) := by
  by_cases late : call.cancelled = true
  · -- the outcome is noted in the log and nowhere else
    have logged : ∀ {p : ℕ → Response → Prop}, Answers p s (s.emit (.outcome c r.klass)) :=
      .emit s fun _ _ same => by cases same
    unfold onUpstream
    dsimp only
    rw [if_pos late]
    split
    · exact (logged.trans (answers_endSpan ..)).trans (.of_eq rfl rfl)
    · exact logged.trans (.of_eq rfl rfl)
  have runs : call.cancelled = false := by simpa using late
  by_cases again : retries env call r (s.circuit.isOpen call.key.backend (clk 0)).2 (clk 2) = true
  · rw [onUpstream_retry s c r clk runs again]
    exact (answers_heard ..).trans (answers_fireAttempt ..)
  · have last := Bool.not_eq_true _ ▸ again
    rw [onUpstream_last s c r clk runs last]
    refine (answers_heard ..).trans ((answers_settle ..).mono fun _ r' said => ?_)
    exact ⟨said.1, said.2, runs, last⟩

/-- An outcome comes from an upstream. -/
theorem effect_upstream (ok : (s.core .empty).Ok env) (stored : s.calls.lookup c = some call)
    (waits : 0 < call.pending) (r : Response) (clk : Clock) :
    Effect env s (s.onUpstream env c call.delivered r clk) (.upstream c r clk) := by
  refine ⟨?_, (answers_onUpstream ..).mono fun _ _ said => ?_⟩
  · rcases onUpstream_tasks env s c call.delivered r clk with
      same | ⟨runs, named, ⟨call', calls, rests, task⟩, status, worked, kept, write⟩
    · exact same ▸ .refl _
    · have ended : (s.onUpstream env c call.delivered r clk).Over call.taskId := by
        intro c' call'' there own
        rw [calls, UnorderedMap.lookup_insert] at there
        split at there
        · have once := (ok.orderly.underway c call stored).pending
          rw [← Option.some.inj there, rests]
          exact .inr (show call.pending - 1 = 0 by omega)
        · next other => exact absurd (ok.tables.eq_of_taskId there stored own (own ▸ named)) other
      have written : s.Writes (s.onUpstream env c call.delivered r clk) (.upstream c r clk)
          call.taskId status r.body := .settle ended stored runs waits worked kept
      rw [write]
      exact (MemTaskStore.Evolves.refl _).updateStatus ⟨3, rfl⟩ (fun _ _ _ => written)
        fun t entered => nomatch entered.maker
  · refine ⟨?_, fun own => absurd rfl (own c r clk)⟩
    rcases said.1.named with same | plain
    · exact same ▸ .relayed
    · exact .plain plain

/-! ## Steps -/

theorem Aside.foldl {α : Type*} {f : PipelineState → α → PipelineState}
    (step : ∀ s a, Aside s (f s a)) (l : List α) (s : PipelineState) : Aside s (l.foldl f s) := by
  induction l generalizing s with
  | nil => exact .refl s
  | cons a l ih => exact (step s a).trans (ih (f s a))

theorem aside_rejectAllQueued (s : PipelineState) (order : List String) (clk : String → Clock) :
    Aside s (s.rejectAllQueued order clk) := by
  refine Aside.foldl (fun s ts => ?_) order s
  unfold rejectQueue
  refine Aside.foldl (fun s w => ?_) _ s
  split
  · refine Aside.trans ?_ (aside_rejected ..)
    exact .of_eq rfl rfl rfl
  · exact .refl s

/-- The gateway is told to stop. -/
theorem effect_requestStop (ok : (s.core .empty).Ok env) {calls tools : List String}
    (all : calls.Perm s.live.keys) (queues : tools.Perm s.gov.queues.keys)
    (clk rejects : String → Clock) :
    Effect env s ((s.requestStop calls clk).rejectAllQueued tools rejects)
      (.requestStop calls tools clk rejects) := by
  have told := (told_moves env .none ok all queues clk rejects).2.1 (·.cancelled = true)
    fun _ => rfl
  have rejected := aside_rejectAllQueued (s.requestStop calls clk) tools rejects
  generalize (s.requestStop calls clk).rejectAllQueued tools rejects = out at told rejected ⊢
  have written : ∀ c call t, s.calls.lookup c = some call →
      s.tasks.byId.lookup call.taskId = some t →
      MemTaskStore.expired (clk call.inflightId 2) t = false →
      s.Writes out (.requestStop calls tools clk rejects) call.taskId .cancelled .null := by
    intro c call t stored found current
    have kept : (s.tasks.sweep (clk call.inflightId 2)).byId.lookup call.taskId = some t := by
      rw [MemTaskStore.lookup_sweep, found, Option.filter_some, current]
      rfl
    exact .stop (fun c' call' there _ => .inl (told c' call' there)) stored kept
  have alive : ∀ id c, s.live.lookup id = some c → ∀ call, s.calls.lookup c = some call →
      call.inflightId = id := by
    intro id c live call stored
    obtain ⟨call', there, named⟩ := ok.tables.alive.mp live
    exact Option.some.inj (there.symm.trans stored) ▸ named
  have read : ∀ id i, PipelineInput.Reads (.requestStop calls tools clk rejects) (clk id i) :=
    fun id i => ⟨id, i, .inl rfl⟩
  have evolves := evolves_cancelAll (s := { s with stopping := true, log := .stopped :: s.log }) clk
    calls (.refl s.tasks) read written alive
  refine ⟨?_, ?_⟩
  · rw [rejected.tasks]
    exact evolves.1.mono (fun _ => id) (fun _ _ _ => id) fun _ => False.elim
  · have stopped : Answers Plain s { s with stopping := true, log := .stopped :: s.log } :=
      ⟨(Grows.refl _).cons fun rid r same => (by cases same), fun c r => .inr⟩
    exact (stopped.trans (evolves.2.trans rejected.answers)).mono fun _ _ => .plain

/-- What is known of a pipeline whenever nothing is half done. -/
structure Regular (env : Env) (s : PipelineState) : Prop where
  ok : (s.core .empty).Ok env
  entered : (s.core .empty).Entered
  untasked : (s.core .empty).Untasked env
  drawn : Drawn env s.draws s.tasks
  frames : ∀ c r, .onUpstream c r ∈ s.stack → r.Plain ∧ r.isError = false

/-- Work that is left on the stack has to do with no task. -/
theorem aside_runTop (regular : s.Regular env) (clk : Clock) (ran : s.runTop env clk = some s') :
    Aside s s' := by
  unfold runTop at ran
  split at ran
  · next ts below top =>
    have popped : ∀ gov, Aside s { s with gov := gov, stack := below } := fun gov =>
      ⟨rfl, .refl _, fun c r member => .inr (by rw [top]; exact List.mem_cons_of_mem _ member)⟩
    split at ran
    · exact Option.some.inj ran ▸ popped s.gov
    · rw [← Option.some.inj ran]
      refine Aside.trans ?_ (aside_rejected ..)
      exact .of_eq rfl rfl rfl
    · rw [← Option.some.inj ran]
      exact (popped _).trans (aside_admitted ..)
  · next c r below top =>
    have popped : Aside s { s with stack := below } :=
      ⟨rfl, .refl _, fun c r member => .inr (by rw [top]; exact List.mem_cons_of_mem _ member)⟩
    have member : .onUpstream c r ∈ s.stack := by
      rw [top]
      exact List.mem_cons_self
    split at ran
    · next call stored =>
      rw [← Option.some.inj ran]
      refine popped.trans ⟨?_, (answers_onUpstream ..).mono fun _ _ said => ?_⟩
      · -- the backend is not there, so the call has no task
        have absent := regular.ok.references.absent member stored
        have without := regular.untasked c call stored absent
        rcases onUpstream_tasks env { s with stack := below } c call r clk with
          same | ⟨-, named, -⟩
        · exact same
        · exact absurd without named
      · exact said.1.plain (regular.frames c r member).1 (regular.frames c r member).2
    · cases ran
  · next c below top =>
    have popped : Aside s { s with stack := below } :=
      ⟨rfl, .refl _, fun c r member => .inr (by rw [top]; exact List.mem_cons_of_mem _ member)⟩
    dsimp only at ran
    split at ran
    · rw [← Option.some.inj ran]
      split
      · exact popped.trans (aside_destroy ..)
      · exact popped
    · cases ran
  · cases ran

/-- What a step does to the store and what it answers. -/
theorem step_effect (regular : s.Regular env) {input : PipelineInput}
    (step : s.step env input = some s') : Effect env s s' input := by
  have attempt := (Option.filter_eq_some_iff.mp step).1
  cases input with
  | handle req clk =>
    simp only [PipelineState.attempt] at attempt
    split at attempt
    · rw [← Option.some.inj attempt]
      exact (effect_handle regular.ok.tables regular.entered regular.drawn req clk).1
    · cases attempt
  | queueTimer id clk =>
    simp only [PipelineState.attempt] at attempt
    split at attempt
    · split at attempt
      · rw [← Option.some.inj attempt]
        -- a waiter has no task, so turning it away changes none
        refine effect_aside (Aside.trans ?_ (aside_rejected ..)) _
        exact .of_eq rfl rfl rfl
      · rw [← Option.some.inj attempt]
        refine effect_aside ?_ _
        exact .of_eq rfl rfl rfl
      · cases attempt
    · cases attempt
  | promote c clk =>
    simp only [PipelineState.attempt] at attempt
    split at attempt
    · next call idle stored =>
      split at attempt
      · rw [← Option.some.inj attempt]
        exact effect_promote regular.ok.tables regular.drawn stored clk
      · cases attempt
    · cases attempt
  | upstream c r clk =>
    simp only [PipelineState.attempt] at attempt
    split at attempt
    · next call listening stored =>
      split at attempt
      · next waits =>
        rw [← Option.some.inj attempt]
        exact effect_upstream regular.ok stored waits r clk
      · cases attempt
    · cases attempt
  | drop c =>
    simp only [PipelineState.attempt] at attempt
    split at attempt
    · split at attempt
      · rw [← Option.some.inj attempt]
        refine effect_aside ?_ _
        -- the reference that is dropped hands over no outcome
        exact ⟨rfl, .refl _, fun c r member => .inr (by simpa using member)⟩
      · cases attempt
    · cases attempt
  | abandon c =>
    simp only [PipelineState.attempt] at attempt
    split at attempt
    · split at attempt
      · rw [← Option.some.inj attempt]
        refine effect_aside ?_ _
        exact ⟨rfl, .refl _, fun c r member => .inr (by simpa using member)⟩
      · cases attempt
    · cases attempt
  | backendReturns =>
    simp only [PipelineState.attempt] at attempt
    split at attempt
    · next c below top =>
      rw [← Option.some.inj attempt]
      refine effect_aside ?_ _
      exact ⟨rfl, .refl _, fun c r member => .inr
        (by rw [top]; exact List.mem_cons_of_mem _ member)⟩
    · cases attempt
  | requestStop calls tools clk rejects =>
    simp only [PipelineState.attempt] at attempt
    split at attempt
    · next orders =>
      rw [← Option.some.inj attempt]
      simp only [Bool.and_eq_true, decide_eq_true_eq] at orders
      exact effect_requestStop regular.ok orders.1.2 orders.2 clk rejects
    · cases attempt
  | toolsListed | probeSuccess | health | grants =>
    simp only [PipelineState.attempt] at attempt
    split at attempt
    · rw [← Option.some.inj attempt]
      refine effect_aside ?_ _
      exact .of_eq rfl rfl rfl
    · cases attempt
  | run clk => exact effect_aside (aside_runTop regular clk attempt) _

/-- A request that came in is logged. -/
theorem logged_step (regular : s.Regular env) {clk : Clock}
    (step : s.step env (.handle req clk) = some s') : .request s.nextRequest req ∈ s'.log := by
  have attempt := (Option.filter_eq_some_iff.mp step).1
  simp only [PipelineState.attempt] at attempt
  split at attempt
  · rw [← Option.some.inj attempt]
    exact (effect_handle regular.ok.tables regular.entered regular.drawn req clk).2
  · cases attempt

/-! ## Runs -/

theorem draws_moves {P : Promise} {k k' : Core} (m : Core.Moves env P k k') :
    k.draws ≤ k'.draws := by
  induction m with
  | refl => exact le_rfl
  | tail _ m ih =>
    refine ih.trans ?_
    cases m with
    | tick | launch | launchAbsent | attach => exact Nat.le_succ _
    | _ => exact le_rfl

theorem draws_step (ok : (s.core .empty).Ok env) {input : PipelineInput}
    (step : s.step env input = some s') : s.draws ≤ s'.draws :=
  draws_moves (step_moves ok step (keeps_none s input))

/-- Ids of tasks are drawn. -/
theorem Effect.drawn {input : PipelineInput} (effect : Effect env s s' input)
    (drawn : Drawn env s.draws s.tasks) (later : s.draws ≤ s'.draws) :
    Drawn env s'.draws s'.tasks := by
  intro id t stored
  refine ⟨drawn.named effect.tasks stored, ?_⟩
  rcases effect.tasks.found stored with ⟨old, before, -⟩ | ⟨-, named, entered⟩
  · obtain ⟨-, n, earlier, same⟩ := drawn id old before
    exact ⟨n, earlier.trans_le later, same⟩
  · obtain ⟨n, -, earlier, same⟩ := entered.drawn
    exact ⟨n, earlier, named ▸ same⟩

/-- No step leaves an outcome for a missing backend that is not plain. -/
theorem Effect.frames {input : PipelineInput} (effect : Effect env s s' input)
    (frames : ∀ c r, .onUpstream c r ∈ s.stack → r.Plain ∧ r.isError = false) :
    ∀ c r, .onUpstream c r ∈ s'.stack → r.Plain ∧ r.isError = false :=
  fun c r member => (effect.answers.stack c r member).elim id (frames c r)

theorem regular_of_run {h : List (TransitionSystem.Step PipelineState PipelineInput)}
    (run : (Pipeline.machine env).Run h s) : s.Regular env := by
  induction run with
  | start first =>
    have run := TransitionSystem.Run.start first
    obtain ⟨health, index, grants, rfl⟩ := first
    refine ⟨ok_of_run run, entered_of_run run, untasked_of_run run, fun id t stored => ?_,
      fun c r member => by cases member⟩
    simp [initial, MemTaskStore.make, AList.lookup_empty] at stored
  | next before step ih =>
    have run := before.next step
    have effect := step_effect ih step
    exact ⟨ok_of_run run, entered_of_run run, untasked_of_run run,
      effect.drawn ih.drawn (draws_step ih.ok step), effect.frames ih.frames⟩

end PipelineState

/-! ## Calls and the tasks there were -/

variable {P : Promise} {hand : Hand} {k k' : Core} {call' : Call}

/-- A call is waited for. -/
structure Call.Waited (call : Call) : Prop where
  runs : call.cancelled = false
  waits : 0 < call.pending

/-- A call that is waited for after it acted was so before. -/
theorem Call.Act.waited {events : List PipelineEvent} {frames : List PipelineFrame}
    (act : call.Act env P hand c call' events frames) (waited : call'.Waited) : call.Waited := by
  cases act with
  | touch upTrace upSpanLive upstreamDone cancelled promoteTimer kept =>
    refine ⟨?_, waited.waits⟩
    by_contra told
    rw [Bool.not_eq_false] at told
    exact Bool.noConfusion ((kept told).symm.trans waited.runs)
  | abandon waits => exact ⟨waited.runs, waits⟩
  | outcome klass waits => exact ⟨waited.runs, waits⟩
  | retry r circuitOpen shield now delay upTrace empty waits => exact ⟨waited.runs, waits⟩
  | _ => exact ⟨waited.runs, waited.waits⟩

namespace Core

/-- The calls that have a task of a given store had it in given tables, and were waited for there
if they are now. -/
def Inherits (calls : UnorderedMap ℕ Call) (store : MemTaskStore) (k : Core) : Prop :=
  ∀ c call, k.calls.lookup c = some call → (store.byId.lookup call.taskId).isSome →
    ∃ call', calls.lookup c = some call' ∧ call'.taskId = call.taskId ∧ call'.req = call.req ∧
      (call.Waited → call'.Waited)

namespace Inherits

variable {calls : UnorderedMap ℕ Call} {store : MemTaskStore} {draws : ℕ}

theorem update (h : k.Inherits calls store)
    (this : (store.byId.lookup call.taskId).isSome → ∃ call', calls.lookup c = some call' ∧
      call'.taskId = call.taskId ∧ call'.req = call.req ∧ (call.Waited → call'.Waited)) :
    Core.Inherits calls store { k with calls := k.calls.insert c call } := by
  intro c' call' stored
  rw [UnorderedMap.lookup_insert] at stored
  split at stored
  · next same =>
    subst same
    rw [← Option.some.inj stored]
    exact this
  · exact h c' call' stored

/-- New calls have no task, and new tasks are not in the store. -/
theorem move (m : k.Move env P k') (drawn : PipelineState.Drawn env draws store)
    (later : draws ≤ k.draws) (h : k.Inherits calls store) : k'.Inherits calls store := by
  have nameless : (store.byId.lookup "").isSome → False := by
    intro held
    obtain ⟨t, held⟩ := Option.isSome_iff_exists.mp held
    obtain ⟨-, n, -, same⟩ := drawn "" t held
    exact taskId_ne _ same.symm
  cases m with
  | launch w summary now t0 delay upTrace call holds built =>
    subst built
    exact h.update fun held => (nameless held).elim
  | launchAbsent w summary now t0 r call holds built =>
    subst built
    exact h.update fun held => (nameless held).elim
  | act c call call' events frames stored act =>
    refine h.update fun held => ?_
    rw [act.same.taskId] at held ⊢
    obtain ⟨first, before, task, req, waited⟩ := h c call stored held
    exact ⟨first, before, task, req.trans act.same.req.symm, fun now => waited (act.waited now)⟩
  | attach c call taskId stored without fresh =>
    refine h.update fun held => ?_
    have new := drawn.new later
    rw [← fresh] at new
    have held : (store.byId.lookup taskId).isSome := held
    rw [new] at held
    cases held
  | destroy c call below top stored =>
    intro c' call' there
    change (k.calls.erase c).lookup c' = some call' at there
    rw [UnorderedMap.lookup_erase] at there
    split at there
    · cases there
    · exact h c' call' there
  | _ => exact h

theorem moves (m : k.Moves env P k') (drawn : PipelineState.Drawn env draws store)
    (later : draws ≤ k.draws) (h : k.Inherits calls store) : k'.Inherits calls store := by
  induction m with
  | refl => exact h
  | tail before m ih => exact ih.move m drawn (later.trans (PipelineState.draws_moves before))

end Inherits

end Core

/-- No call gets a task that was there before the step. -/
theorem PipelineState.inherits_step (regular : s.Regular env) {input : PipelineInput}
    (step : s.step env input = some s') : (s'.core .empty).Inherits s.calls s.tasks := by
  have begun : (s.core .empty).Inherits s.calls s.tasks :=
    fun c call stored _ => ⟨call, stored, rfl, rfl, id⟩
  exact begun.moves (step_moves regular.ok step (keeps_none s input)) regular.drawn le_rfl

end Perfacet
