import Perfacet.Pipeline.Entries
import Perfacet.Pipeline.Replies

/-!
# Tasks and the calls they stand for

A task is made by the promote timer of a call or by a duplicate of it, gets its outcome from
the upstream callback of its call, and is cancelled by its owner or by the shutdown. Every
other step leaves the store alone or drops what has expired.

## Main definitions

* `PipelineInput.Reads`, `PipelineState.Writes`, `Enters` — what a step reads, writes and
  enters
* `PipelineState.Reply` — what a step answers, by what the body says of tasks and calls
* `PipelineState.Effect` — all of this about one step
-/

namespace Perfacet

variable {env : Env} {s s' : PipelineState} {c : ℕ} {call : Call} {req : Request}
  {reads : UInt64 → Prop} {writes : String → TaskStatus → Json → Prop} {enters : Task → Prop}
  {a : MemTaskStore}

/-! ## What a step reads, writes and enters -/

/-- The clock readings of a step. -/
def PipelineInput.Reads : PipelineInput → UInt64 → Prop
  | .handle _ clk, now => ∃ i, clk i = now
  | .queueTimer _ clk, now => ∃ i, clk i = now
  | .promote _ clk, now => ∃ i, clk i = now
  | .upstream _ _ clk, now => ∃ i, clk i = now
  | .run clk, now => ∃ i, clk i = now
  | .requestStop _ _ clk rejects, now => ∃ id i, clk id i = now ∨ rejects id i = now
  | _, _ => False

/-- The answer to `tasks/cancel`. -/
def cancelledBody (taskId : String) : Json :=
  .ofMembers [("taskId", .str taskId), ("status", .str "cancelled")]

namespace PipelineState

/-- Whoever works on a task is not waited for any more. -/
def Over (s : PipelineState) (id : String) : Prop :=
  ∀ c call, s.calls.lookup c = some call → call.taskId = id →
    call.cancelled = true ∨ call.pending = 0

/-- The outcomes that a step from `s` to `s'` may write. -/
inductive Writes (s s' : PipelineState) : PipelineInput → String → TaskStatus → Json → Prop
  /-- The owner cancels a task. -/
  | cancel {req : Request} {clk : Clock} {t : Task} : s'.Over req.name →
      req.method = "tasks/cancel" → (s.tasks.sweep (clk 3)).byId.lookup req.name = some t →
      t.agentId = req.who.agentId → Writes s s' (.handle req clk) req.name .cancelled .null
  /-- A call that is still waited for has its result. -/
  | settle {c : ℕ} {r : Response} {clk : Clock} {call : Call} {status : TaskStatus} {body : Json} :
      s'.Over call.taskId → s.calls.lookup c = some call → call.cancelled = false →
      0 < call.pending → status ≠ .working → status ≠ .cancelled →
      Writes s s' (.upstream c r clk) call.taskId status body
  /-- The shutdown cancels the task of a live call. -/
  | stop {calls tools : List String} {clk rejects : String → Clock} {c : ℕ} {call : Call}
      {t : Task} : s'.Over call.taskId → s.calls.lookup c = some call →
      (s.tasks.sweep (clk call.inflightId 2)).byId.lookup call.taskId = some t →
      Writes s s' (.requestStop calls tools clk rejects) call.taskId .cancelled .null

/-- A call that has no task gets one in a step from `s` to `s'`. -/
structure Gets (s s' : PipelineState) (c : ℕ) (call : Call) (taskId : String) : Prop where
  before : s.calls.lookup c = some call
  without : call.taskId = ""
  after : ∃ call', s'.calls.lookup c = some call' ∧ call'.taskId = taskId ∧
    call'.cancelled = call.cancelled ∧ call'.pending = call.pending

/-- Why a step from `s` to `s'` makes a task: for a request that is a duplicate of a call, or
for a call that takes long. The call that gets the task is that one. -/
inductive MakesFor (env : Env) (s s' : PipelineState) : PipelineInput → Task → Prop
  | duplicate {req : Request} {clk : Clock} {t : Task} {key : ToolKey} {hash : String}
      {e : InFlightEntry} {c : ℕ} {call : Call} : paramsHashOf req.params = .ok hash →
      s.inflight.lookup req.who.agentId key hash = some e → t.owner = req.who →
      (∀ c call, s'.calls.lookup c = some call → call.taskId = t.taskId →
        call.req.who.agentId = e.agentId) → ToolKey.parse req.name = some key →
      req.caps.tasks = true → s.live.lookup e.inflightId = some c → s.Gets s' c call t.taskId →
      req.method = "tools/call" → RankPolicy.authorizeCall env.catalog req.who key = .allow →
      (∃ confirm, confirmToken req = .ok confirm ∧ tokenMatches confirm (some e) = false) →
      MakesFor env s s' (.handle req clk) t
  | promoted {c : ℕ} {clk : Clock} {t : Task} {call : Call} : s.calls.lookup c = some call →
      t.owner = call.req.who →
      (∀ c' call', s'.calls.lookup c' = some call' → call'.taskId = t.taskId →
        call'.req.who.agentId = call.req.who.agentId) → call.req.caps.tasks = true →
      call.cancelled = false → s.Gets s' c call t.taskId → MakesFor env s s' (.promote c clk) t

/-- The tasks that a step may enter: new ones, under an id that it draws. -/
structure Enters (env : Env) (s s' : PipelineState) (input : PipelineInput) (t : Task) : Prop where
  status : t.status = .working
  resultOrError : t.resultOrError = .null
  agentId : t.agentId = t.owner.agentId
  drawn : ∃ n, s.draws ≤ n ∧ n < s'.draws ∧ t.taskId = "tsk_" ++ env.randomHex 8 n
  maker : s.MakesFor env s' input t

/-- What a step from `s` to `s'` may answer to a request, by what the body says of tasks and
calls. -/
inductive Reply (s s' : PipelineState) : PipelineInput → ℕ → Json → Prop
  | plain {input : PipelineInput} {rid : ℕ} {body : Json} :
      body.Nameless → Reply s s' input rid body
  | relayed {c : ℕ} {r : Response} {clk : Clock} {rid : ℕ} :
      Reply s s' (.upstream c r clk) rid r.body
  /-- The owner of a task reads it. -/
  | status {req : Request} {clk : Clock} {rid : ℕ} {t : Task} : .request rid req ∈ s'.log →
      (s.tasks.sweep (clk 3)).byId.lookup req.name = some t → t.agentId = req.who.agentId →
      req.method = "tasks/get" → Reply s s' (.handle req clk) rid (taskBody t)
  /-- The owner of a task cancels it. -/
  | cancelled {req : Request} {clk : Clock} {rid : ℕ} {t : Task} : .request rid req ∈ s'.log →
      (s.tasks.sweep (clk 3)).byId.lookup req.name = some t → t.agentId = req.who.agentId →
      req.method = "tasks/cancel" → Reply s s' (.handle req clk) rid (cancelledBody req.name)
  /-- A duplicate gets the task of the call that is running. -/
  | shared {req : Request} {clk : Clock} {rid c : ℕ} {key : ToolKey} {hash : String}
      {e : InFlightEntry} {call : Call} {t : Task} : .request rid req ∈ s'.log →
      paramsHashOf req.params = .ok hash → s.inflight.lookup req.who.agentId key hash = some e →
      s'.calls.lookup c = some call → call.req.who.agentId = e.agentId →
      call.taskId = t.taskId → s'.tasks.byId.lookup t.taskId = some t →
      ToolKey.parse req.name = some key → req.caps.tasks = true →
      s.live.lookup e.inflightId = some c →
      Reply s s' (.handle req clk) rid (createTaskResult t)
  /-- A duplicate gets the confirm token of the call that is running. -/
  | notice {req : Request} {clk : Clock} {rid : ℕ} {key : ToolKey} {hash text : String}
      {e : InFlightEntry} : .request rid req ∈ s'.log → paramsHashOf req.params = .ok hash →
      s.inflight.lookup req.who.agentId key hash = some e →
      Reply s s' (.handle req clk) rid (callToolText (text ++ "if_" ++ e.inflightId ++ "\"") true)
  /-- A call that takes long gets its task. -/
  | promoted {c : ℕ} {clk : Clock} {call : Call} {t : Task} : s'.calls.lookup c = some call →
      call.taskId = t.taskId → s'.tasks.byId.lookup t.taskId = some t →
      call.req.caps.tasks = true →
      Reply s s' (.promote c clk) call.onDone.rid (createTaskResult t)

/-- Only what an upstream says may be an answer that is not consistent. -/
def Fits (input : PipelineInput) (r : Response) : Prop :=
  (∀ c r₀ clk, input ≠ .upstream c r₀ clk) → r.Consistent

/-- What a step from `s` to `s'` may answer. -/
structure Says (s s' : PipelineState) (input : PipelineInput) (rid : ℕ) (r : Response) : Prop where
  reply : s.Reply s' input rid r.body
  fits : Fits input r

theorem Says.plain {input : PipelineInput} {rid : ℕ} {r : Response} (plain : r.Plain) :
    s.Says s' input rid r :=
  ⟨.plain plain.nameless, fun _ => plain.consistent⟩

/-- What a step does to the store, and what it answers. -/
structure Effect (env : Env) (s s' : PipelineState) (input : PipelineInput) : Prop where
  tasks : s.tasks.Evolves input.Reads (s.Writes s' input) (Enters env s s' input) s'.tasks
  answers : Answers (s.Says s' input) s s'

/-- The tasks of a store have their ids, which were drawn. -/
def Drawn (env : Env) (draws : ℕ) (store : MemTaskStore) : Prop :=
  ∀ id t, store.byId.lookup id = some t →
    t.taskId = id ∧ ∃ n, n < draws ∧ id = "tsk_" ++ env.randomHex 8 n

theorem Drawn.new {draws n : ℕ} {store : MemTaskStore} (h : Drawn env draws store)
    (later : draws ≤ n) : store.byId.lookup ("tsk_" ++ env.randomHex 8 n) = none := by
  by_contra held
  obtain ⟨t, held⟩ := Option.ne_none_iff_exists'.mp held
  obtain ⟨-, m, earlier, same⟩ := h _ t held
  have equal : n = m := env.distinct 8 ((String.append_right_inj _).mp same)
  omega

/-! ## The code that touches the store -/

theorem answerTask_fst (s : PipelineState) (taskId : String) (now : UInt64) :
    (s.answerTask taskId now).1 = { s with tasks := s.tasks.sweep now } := by
  unfold answerTask
  dsimp only
  split <;> rfl

/-- A consistent response is the handle of the task that a store has under an id, or names
nothing. -/
structure Told (store : MemTaskStore) (id : String) (r : Response) : Prop where
  consistent : r.Consistent
  names : r.body.Nameless ∨ ∃ t, store.byId.lookup id = some t ∧ r.body = createTaskResult t

theorem Told.congr {store : MemTaskStore} {id : String} {r r' : Response} (h : Told store id r)
    (alike : r.Alike r') : Told store id r' where
  consistent := h.consistent.congr alike
  names := by
    rw [alike.body]
    exact h.names

theorem told_plain {r : Response} (plain : r.Plain) (store : MemTaskStore) (id : String) :
    Told store id r :=
  ⟨plain.consistent, .inl plain.nameless⟩

theorem told_answerTask (s : PipelineState) (taskId : String) (now : UInt64) :
    Told (s.tasks.sweep now) taskId (s.answerTask taskId now).2 := by
  unfold answerTask
  dsimp only
  split
  · next t found =>
    refine ⟨Response.consistent_ofBody ?_, .inr ⟨t, found, rfl⟩⟩
    simp [createTaskResult, Json.ofMembers, Json.field?, Json.lookup_setField]
  · exact told_plain (Response.plain_text (by decide) _) ..

/-- The task that a duplicate or a promoted call gets at draw number `n`. -/
def made (env : Env) (n : ℕ) (who : Principal) (key : ToolKey) (createdAt now : UInt64) : Task :=
  newTask env ("tsk_" ++ env.randomHex 8 n) who key createdAt now

/-- What a duplicate does that makes a task. -/
theorem duplicateTask_spec (env : Env) (s : PipelineState) (req : Request) (key : ToolKey)
    (hit : InFlightEntry) (c : ℕ) (call : Call) (clk : Clock) :
    let t := made env s.draws req.who key hit.startedAtMs (clk 0)
    let out := s.duplicateTask env req key hit (some (c, call)) clk
    out.1.draws = s.draws + 1 ∧ out.1.log = s.log ∧ out.1.stack = s.stack ∧
      ((out.1.tasks = s.tasks.sweep (clk 1) ∧ out.1.calls = s.calls ∧ out.2.Plain) ∨
        ((s.tasks.insert t (clk 1)).2 = true ∧
          out.1.tasks = (s.tasks.insert t (clk 1)).1.sweep (clk 2) ∧
          out.1.calls = s.calls.insert c { call with taskId := t.taskId } ∧
          Told out.1.tasks t.taskId out.2)) := by
  unfold duplicateTask made
  dsimp only [draw]
  have full : (s.tasks.insert (newTask env ("tsk_" ++ env.randomHex 8 s.draws) req.who key
      hit.startedAtMs (clk 0)) (clk 1)).2 = false → _ := s.tasks.insert_full
  revert full
  generalize MemTaskStore.insert _ _ _ = inserted
  obtain ⟨tasks, stored⟩ := inserted
  intro full
  cases stored with
  | false =>
    exact ⟨rfl, rfl, rfl, .inl ⟨full rfl, rfl, Response.plain_text (by decide) _⟩⟩
  | true =>
    simp only [Bool.not_true, Bool.false_eq_true, if_false, answerTask_fst]
    split
    · exact ⟨rfl, rfl, rfl, .inr ⟨trivial, rfl, rfl, told_answerTask ..⟩⟩
    · exact ⟨rfl, rfl, rfl, .inr ⟨trivial, rfl, rfl, told_answerTask ..⟩⟩

/-- What a call does to get a task. -/
theorem promoteTask_spec (env : Env) (s : PipelineState) (c : ℕ) (call : Call) (clk : Clock) :
    let t := made env s.draws call.req.who call.key call.t0 (clk 0)
    let out := s.promoteTask env c call clk
    out.1.calls = s.calls ∧ out.1.log = s.log ∧ out.1.stack = s.stack ∧
      (∃ id, out.2.1 = { call with taskId := id }) ∧
      ((out.2.2 = true ∧ out.2.1.taskId = call.taskId ∧ out.1.tasks = s.tasks) ∨
        (out.2.2 = false ∧ out.2.1.taskId = call.taskId ∧ out.1.tasks = s.tasks.sweep (clk 1)) ∨
        (out.2.2 = true ∧ out.1.draws = s.draws + 1 ∧
          out.1.tasks = (s.tasks.insert t (clk 1)).1 ∧ call.taskId = "" ∧
          out.2.1.taskId = t.taskId)) := by
  intro t out
  rcases done : s.promoteTask env c call clk with ⟨s', call', stored⟩
  rw [show out = (s', call', stored) from done]
  unfold promoteTask at done
  split at done
  · next without =>
    dsimp only [draw] at done
    split at done
    · cases done
      exact ⟨rfl, rfl, rfl, ⟨_, rfl⟩,
        .inr (.inr ⟨rfl, rfl, rfl, String.isEmpty_iff.mp without, rfl⟩)⟩
    · next full =>
      cases done
      exact ⟨rfl, rfl, rfl, ⟨_, rfl⟩,
        .inr (.inl ⟨rfl, rfl, s.tasks.insert_full (Bool.not_eq_true _ ▸ full)⟩)⟩
  · cases done
    exact ⟨rfl, rfl, rfl, ⟨_, rfl⟩, .inl ⟨rfl, rfl, rfl⟩⟩

/-- A call that has responded is written back. -/
theorem put_respond (s : PipelineState) (c : ℕ) (call : Call) (r : Response) (clk : Clock)
    {p : ℕ → Response → Prop}
    (said : call.responded = false → ∀ r', r.Alike r' → p call.onDone.rid r') :
    let out := (s.respond call r clk).1.put c (s.respond call r clk).2
    out.calls = s.calls.insert c { call with responded := true } ∧ out.draws = s.draws ∧
      out.tasks = s.tasks ∧ Answers p s out := by
  obtain ⟨same, after⟩ := respond_frame s call r clk .empty
  have answers := answers_respond s call r clk said
  refine ⟨?_, congrArg Core.draws same, tasks_respond .., answers.log, answers.stack⟩
  rw [after]
  exact congrArg (AList.insert c _) (congrArg Core.calls same)

/-- What the promote timer does. -/
theorem onPromote_spec (env : Env) (s : PipelineState) (c : ℕ) (call : Call) (clk : Clock) :
    let t := made env s.draws call.req.who call.key call.t0 (clk 0)
    let out := s.onPromote env c call clk
    ∃ responded id,
      out.calls = s.calls.insert c { call with responded := responded, taskId := id } ∧
      Answers (fun rid r => r.Plain ∨
        (rid = call.onDone.rid ∧ call.req.caps.tasks = true ∧ Told out.tasks id r)) s out ∧
      ((id = call.taskId ∧ (out.tasks = s.tasks ∨ out.tasks = s.tasks.sweep (clk 1) ∨
          out.tasks = s.tasks.sweep (clk 2))) ∨
        (out.draws = s.draws + 1 ∧ call.cancelled = false ∧ call.req.caps.tasks = true ∧
          call.taskId = "" ∧ id = t.taskId ∧
          out.tasks = (s.tasks.insert t (clk 1)).1.sweep (clk 2))) := by
  unfold onPromote
  dsimp only
  split
  · exact ⟨call.responded, call.taskId, rfl, .of_eq rfl rfl, .inl ⟨rfl, .inl rfl⟩⟩
  next runs =>
  simp only [Bool.or_eq_true, not_or, Bool.not_eq_true] at runs
  split
  · next capable =>
    have promoted := promoteTask_spec env s c call clk
    revert promoted
    generalize s.promoteTask env c call clk = out
    obtain ⟨s', call', stored⟩ := out
    rintro ⟨calls, log, stack, ⟨id, rfl⟩, effect⟩
    dsimp only at calls log stack effect ⊢
    have before : ∀ {p : ℕ → Response → Prop}, Answers p s s' := .of_eq log stack
    cases stored with
    | false =>
      -- the answer that no task could be made is in plain words
      have full : (Response.ofText .unavailable "task store full").Plain :=
        Response.plain_text (by decide) _
      obtain ⟨calls', draws', tasks', answers⟩ := put_respond s' c { call with taskId := id }
        (.ofText .unavailable "task store full") (clk.after 3)
        (p := fun _ r => r.Plain) fun _ _ => full.congr
      refine ⟨true, id, calls'.trans (congrArg _ calls),
        before.trans (answers.mono fun _ _ => .inl), ?_⟩
      rcases effect with ⟨done, -⟩ | ⟨-, task, tasks⟩ | ⟨done, -⟩
      · cases done
      · exact .inl ⟨task, .inr (.inl (tasks'.trans tasks))⟩
      · cases done
    | true =>
      rw [if_pos rfl, answerTask_fst]
      obtain ⟨calls', draws', tasks', answers⟩ := put_respond
        { s' with tasks := s'.tasks.sweep (clk 2) } c { call with taskId := id }
        (s'.answerTask id (clk 2)).2 (clk.after 3)
        (p := fun rid r => rid = call.onDone.rid ∧ Told (s'.tasks.sweep (clk 2)) id r)
        fun _ r' alike => ⟨rfl, (told_answerTask ..).congr alike⟩
      have swept : ∀ {p : ℕ → Response → Prop}, Answers p s'
          { s' with tasks := s'.tasks.sweep (clk 2) } := .of_eq rfl rfl
      refine ⟨true, id, calls'.trans (congrArg _ calls),
        before.trans (swept.trans (answers.mono fun rid r said => .inr ?_)), ?_⟩
      · rw [tasks']
        exact ⟨said.1, capable, said.2⟩
      rcases effect with ⟨-, task, tasks⟩ | ⟨done, -⟩ | ⟨-, draws, tasks, without, task⟩
      · exact .inl ⟨task, .inr (.inr (tasks'.trans (congrArg (·.sweep (clk 2)) tasks)))⟩
      · cases done
      · exact .inr ⟨draws'.trans draws, runs.2, capable, without, task,
          tasks'.trans (congrArg (·.sweep (clk 2)) tasks)⟩
  · obtain ⟨calls, -, tasks, answers⟩ := put_respond s c call
      (.ofError .capability 400 missingTasksError) clk (p := fun _ r => r.Plain)
      fun _ _ => (Response.plain_error ..).congr
    exact ⟨true, call.taskId, calls, answers.mono fun _ _ => .inl, .inl ⟨rfl, .inl tasks⟩⟩

/-! ### Outcomes -/

theorem tasks_cancelWait (s : PipelineState) (c : ℕ) (call : Call) (clk : Clock) :
    (s.cancelWait c call clk).tasks = if call.taskId.isEmpty then s.tasks
      else s.tasks.updateStatus call.taskId .cancelled .null (clk 2) := by
  have answered := (respond_frame s { call with cancelled := true } cancelledResponse clk .empty).2
  have store := tasks_respond s { call with cancelled := true } cancelledResponse clk
  unfold cancelWait
  dsimp only
  rw [answered]
  dsimp only
  split
  · exact store
  · exact congrArg (·.updateStatus call.taskId .cancelled .null (clk 2)) store

/-- A call is told to stop waiting; if it has a task, the task is cancelled. -/
theorem evolves_cancelWait (h : a.Evolves reads writes (fun _ => False) s.tasks) (c : ℕ)
    {clk : Clock}
    (read : reads (clk 2))
    (written : ∀ t, a.byId.lookup call.taskId = some t → MemTaskStore.expired (clk 2) t = false →
      writes call.taskId .cancelled .null) :
    a.Evolves reads writes (fun _ => False) (s.cancelWait c call clk).tasks := by
  rw [tasks_cancelWait]
  split
  · exact h
  · exact h.updateStatus read written fun _ => id

theorem answers_cancelWait (s : PipelineState) (c : ℕ) (call : Call) (clk : Clock) :
    Answers Plain s (s.cancelWait c call clk) := by
  have answered : Answers Plain s
      (s.respond { call with cancelled := true } cancelledResponse clk).1 :=
    answers_respond _ _ _ _ fun _ _ => plain_cancelled.congr
  refine answered.trans ?_
  unfold cancelWait
  dsimp only
  have said : ∀ rid r, .cancelled c = PipelineEvent.answered rid r → Plain rid r :=
    fun rid r same => by cases same
  split <;> exact ⟨(Grows.refl _).cons said, fun _ _ => .inr⟩

/-- Every call is told to stop waiting. -/
theorem evolves_cancelAll (clk : String → Clock) (order : List String)
    (h : a.Evolves reads writes (fun _ => False) s.tasks) (read : ∀ id i, reads (clk id i))
    (written : ∀ c call t, s.calls.lookup c = some call → a.byId.lookup call.taskId = some t →
      MemTaskStore.expired (clk call.inflightId 2) t = false →
      writes call.taskId .cancelled .null)
    (alive : ∀ id c, s.live.lookup id = some c → ∀ call, s.calls.lookup c = some call →
      call.inflightId = id) :
    a.Evolves reads writes (fun _ => False) (order.foldl (cancelLive clk) s).tasks ∧
      Answers Plain s (order.foldl (cancelLive clk) s) := by
  induction order generalizing s with
  | nil => exact ⟨h, .refl s⟩
  -- the calls that are told later still have the tasks that they had
  | cons id order ih =>
    rw [List.foldl_cons]
    unfold cancelLive
    split
    · next c call found =>
      obtain ⟨live, stored⟩ := liveCall_spec found
      have named := alive id c live call stored
      have same := cancelWait_frame s c call (clk id) .empty
      have calls : (s.cancelWait c call (clk id)).calls = _ := congrArg Core.calls same
      have lives : (s.cancelWait c call (clk id)).live = s.live := congrArg Core.live same
      have told := evolves_cancelWait h c (read id 2) (named ▸ written c call · stored)
      have others : ∀ c' call', (s.cancelWait c call (clk id)).calls.lookup c' = some call' →
          ∃ old, s.calls.lookup c' = some old ∧ call'.taskId = old.taskId ∧
            call'.inflightId = old.inflightId := by
        intro c' call' stored'
        rw [calls, UnorderedMap.lookup_insert] at stored'
        split at stored'
        · next here =>
          rw [← Option.some.inj stored', here]
          exact ⟨call, stored, rfl, rfl⟩
        · exact ⟨call', stored', rfl, rfl⟩
      have still : ∀ c' call' t, (s.cancelWait c call (clk id)).calls.lookup c' = some call' →
          a.byId.lookup call'.taskId = some t →
          MemTaskStore.expired (clk call'.inflightId 2) t = false →
          writes call'.taskId .cancelled .null := by
        intro c' call' t stored'
        obtain ⟨old, before, task, inflightId⟩ := others c' call' stored'
        rw [task, inflightId]
        exact written c' old t before
      have reached : ∀ id' c', (s.cancelWait c call (clk id)).live.lookup id' = some c' →
          ∀ call', (s.cancelWait c call (clk id)).calls.lookup c' = some call' →
          call'.inflightId = id' := by
        intro id' c' live' call' stored'
        obtain ⟨old, before, -, inflightId⟩ := others c' call' stored'
        rw [inflightId]
        exact alive id' c' (lives ▸ live') old before
      obtain ⟨rest, answers⟩ := ih told still reached
      exact ⟨rest, (answers_cancelWait s c call (clk id)).trans answers⟩
    · exact ih h written alive

/-- The task of a call gets its outcome, and the promote timer is put away. -/
theorem settle_spec (s : PipelineState) (c : ℕ) (call : Call) (r : Response) (clk : Clock) :
    (∃ call', (s.settle c call r clk).calls = s.calls.insert c call' ∧
      call'.pending = call.pending ∧ call'.taskId = call.taskId ∧
      call'.promoteArmed = (call.promoteArmed && !call.promoteTimer.isSome)) ∧
    ((call.taskId = "" ∧ (s.settle c call r clk).tasks = s.tasks) ∨
      (call.taskId ≠ "" ∧ ∃ status, status ≠ .working ∧ status ≠ .cancelled ∧
        (s.settle c call r clk).tasks =
          s.tasks.updateStatus call.taskId status r.body (clk 0))) := by
  unfold settle
  dsimp only
  generalize built : (if call.promoteTimer.isSome then _ else _ : Call) = call'
  have same : call'.taskId = call.taskId ∧ call'.pending = call.pending ∧
      call'.promoteArmed = (call.promoteArmed && !call.promoteTimer.isSome) := by
    rw [← built]
    split
    · next armed => exact ⟨rfl, rfl, by simp [armed]⟩
    · next unarmed => exact ⟨rfl, rfl, by simp [unarmed]⟩
  generalize (if r.klass ≠ .ok ∧ !(r.body.isObject && r.body.contains "content") then _
    else r : Response) = r'
  rw [same.1]
  split
  · next none =>
    obtain ⟨calls, -, tasks, -⟩ := put_respond s c call' r' (clk.after 1)
      (p := fun _ _ => True) fun _ _ _ => trivial
    exact ⟨⟨_, calls, same.2.1, same.1, same.2.2⟩, .inl ⟨String.isEmpty_iff.mp none, tasks⟩⟩
  · next named =>
    generalize status : (if r.klass = .ok ∧ r.isError = false then TaskStatus.completed
      else .failed) = outcome
    obtain ⟨calls, -, tasks, -⟩ := put_respond
      { s with tasks := s.tasks.updateStatus call.taskId outcome r.body (clk 0) } c call' r'
      (clk.after 1) (p := fun _ _ => True) fun _ _ _ => trivial
    refine ⟨⟨_, calls, same.2.1, same.1, same.2.2⟩,
      .inr ⟨fun none => named (String.isEmpty_iff.mpr none), outcome, ?_, ?_, tasks⟩⟩
    · rw [← status]
      split <;> simp
    · rw [← status]
      split <;> simp

/-- What an outcome does to the store. -/
theorem onUpstream_tasks (env : Env) (s : PipelineState) (c : ℕ) (call : Call) (r : Response)
    (clk : Clock) :
    (s.onUpstream env c call r clk).tasks = s.tasks ∨
      (call.cancelled = false ∧ call.taskId ≠ "" ∧ (∃ call',
        (s.onUpstream env c call r clk).calls = s.calls.insert c call' ∧
          call'.pending = call.pending ∧ call'.taskId = call.taskId) ∧
        ∃ status, status ≠ .working ∧ status ≠ .cancelled ∧
          (s.onUpstream env c call r clk).tasks =
            s.tasks.updateStatus call.taskId status r.body (clk 3)) := by
  by_cases late : call.cancelled = true
  · left
    unfold onUpstream
    dsimp only
    rw [if_pos late]
    split
    · exact tasks_endSpan ..
    · rfl
  have runs : call.cancelled = false := by simpa using late
  by_cases again : retries env call r (s.circuit.isOpen call.key.backend (clk 0)).2 (clk 2) = true
  · left
    rw [onUpstream_retry s c r clk runs again, (aside_fireAttempt ..).tasks, tasks_heard]
  · rw [onUpstream_last s c r clk runs (by simpa using again)]
    obtain ⟨⟨call', calls, pending, taskId, -⟩, tasks⟩ :=
      settle_spec (s.heard c call r clk) c { call with upSpanLive := false } r
      (clk.after 3)
    have same : (s.heard c call r clk).calls = s.calls :=
      congrArg Core.calls (core_heard s c call r clk .empty)
    rw [tasks_heard] at tasks
    rw [same] at calls
    rcases tasks with ⟨-, tasks⟩ | ⟨named, status, tasks⟩
    · exact .inl tasks
    · exact .inr ⟨runs, named, ⟨call', calls, pending, taskId⟩, status, tasks⟩

end PipelineState

end Perfacet
