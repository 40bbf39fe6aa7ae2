import Perfacet.Pipeline.Effects

/-!
# Agents are isolated

Two agents share the in-flight table and the task store. A key of the table joins agent, tool
and hash with line breaks, and tool names may hold line breaks themselves, so agents are told
apart as long as their ids have none; a hash never has one. A task belongs to the agent whose
request it was made for, and the call that works on it is a call of that agent.

## Main definitions

* `AgentsOneLine` — the ids of the agents have no line breaks
* `PipelineState.Owned` — tasks and their calls belong to one agent
* `PipelineState.Confined` — a body names only tasks and calls of one agent

## Main results

* `agents_isolated` — what is answered, looked up and changed belongs to the agent who asks
-/

namespace Perfacet

variable {env : Env} {P : Promise} {k k' : Core} {c rid : ℕ} {call : Call} {req : Request}
  {h : List (TransitionSystem.Step PipelineState PipelineInput)} {s s' : PipelineState}
  {input : PipelineInput} {id agentId hash : String} {key : ToolKey} {e : InFlightEntry}
  {log log' : List PipelineEvent}

/-! ## Line breaks -/

/-- The agents of all requests that were received have ids without line breaks. -/
def AgentsOneLine (log : List PipelineEvent) : Prop :=
  ∀ rid req, .request rid req ∈ log → '\n' ∉ req.who.agentId.toList

/-- The request that an event tells of is one of an agent whose id has no line break. -/
def PipelineEvent.agentOneLine : PipelineEvent → Bool
  | .request _ req => decide ('\n' ∉ req.who.agentId.toList)
  | _ => true

theorem agentsOneLine_of_all (all : log.all PipelineEvent.agentOneLine = true) :
    AgentsOneLine log :=
  fun _ _ member => of_decide_eq_true (List.all_eq_true.mp all _ member)

theorem AgentsOneLine.suffix (plain : AgentsOneLine log') (older : log <:+ log') :
    AgentsOneLine log :=
  fun rid req member => plain rid req (older.subset member)

theorem newline_notMem_hex16 (n : UInt64) : '\n' ∉ (hex16 n).toList := by
  unfold hex16
  rw [String.toList_ofList, List.mem_map]
  rintro ⟨i, -, same⟩
  exact Json.hexDigit_ne_newline _ (Nat.mod_lt _ (by decide)) same

/-- A hash has no line break. -/
theorem newline_notMem_paramsHash {params : Json} (hashed : paramsHashOf params = .ok hash) :
    '\n' ∉ hash.toList := by
  unfold paramsHashOf at hashed
  split at hashed
  · split at hashed
    · cases hashed
      exact newline_notMem_hex16 _
    · cases hashed
  · unfold Json.dump at hashed
    split at hashed
    · cases hashed
      rw [String.toList_ofList]
      exact Json.newline_notMem_write _
    · cases hashed

/-! ## Hashes on their way -/

namespace Core

/-- The hashes of all requests that wait and of all calls have a property. -/
structure Hashed (p : String → Prop) (k : Core) : Prop where
  waiter : ∀ {ts w}, w ∈ k.gov.queue ts → p w.cb.hash
  hand : ∀ {w}, k.hand = .waiting w → p w.hash
  call : ∀ {c call}, k.calls.lookup c = some call → p call.paramsHash

namespace Hashed

variable {p : String → Prop}

theorem update (h : k.Hashed p) (call : Call) (this : p call.paramsHash) {c' : ℕ} {call' : Call}
    (stored : (k.calls.insert c call).lookup c' = some call') : p call'.paramsHash := by
  rw [UnorderedMap.lookup_insert] at stored
  split at stored
  · exact Option.some.inj stored ▸ this
  · exact h.call stored

theorem unqueue (h : k.Hashed p) {ts ts' : String} {w w' : Waiter Waiting}
    {l₁ l₂ : List (Waiter Waiting)} (split : k.gov.queue ts = l₁ ++ w :: l₂)
    (member : w' ∈ (k.gov.unqueue ts w (l₁ ++ l₂)).queue ts') : p w'.cb.hash := by
  rw [LocalGovernor.queue_unqueue] at member
  split at member
  · next same =>
    have older : w' ∈ k.gov.queue ts := by
      rw [split]
      exact List.mem_append.mpr ((List.mem_append.mp member).imp_right (List.mem_cons_of_mem _))
    exact h.waiter older
  · exact h.waiter member

theorem move (m : k.Move env P k') (accept : ∀ w, P.accept k.gov k.inflight k.calls w → p w.hash)
    (h : k.Hashed p) : k'.Hashed p := by
  cases m with
  | accept w holds running admitted accepted =>
    exact { h with hand := fun same => by cases same; exact accept w accepted }
  | enqueue w deadline holds =>
    refine { waiter := fun {ts w'} member => ?_, hand := by simp, call := h.call }
    rw [LocalGovernor.queue_enqueue] at member
    split at member
    · rcases List.mem_append.mp member with member | member
      · exact h.waiter member
      · obtain rfl := List.mem_singleton.mp member
        exact h.hand holds
    · exact h.waiter member
  | dequeue ts l₁ w l₂ empty split =>
    refine { waiter := h.unqueue split, hand := fun same => ?_, call := h.call }
    cases same
    exact h.waiter (by rw [split]; simp)
  | reject ts l₁ w l₂ r split => exact { h with waiter := h.unqueue split }
  | launch w summary now t0 delay upTrace call holds built =>
    subst built
    exact { waiter := h.waiter, hand := by simp [launched], call := h.update _ (h.hand holds) }
  | launchAbsent w summary now t0 r call holds built =>
    subst built
    exact { waiter := h.waiter, hand := by simp [launched], call := h.update _ (h.hand holds) }
  | act c call call' events frames stored act =>
    exact { h with call := h.update _ (act.same.paramsHash ▸ h.call stored) }
  | attach c call taskId stored =>
    have kept : p call.paramsHash := h.call stored
    exact { h with call := h.update { call with taskId := taskId } kept }
  | destroy c call below top stored =>
    refine { h with call := fun {c' call'} there => ?_ }
    change (k.calls.erase c).lookup c' = some call' at there
    rw [UnorderedMap.lookup_erase] at there
    split at there
    · cases there
    · exact h.call there
  | receive | answer | throw | turnAway | refuse | stop | stopped =>
    exact { waiter := h.waiter, hand := by simp, call := h.call }
  | _ => exact ⟨h.waiter, h.hand, h.call⟩

end Hashed

end Core

namespace PipelineState

/-- The hashes of all that is on its way have no line breaks. -/
theorem hashed_of_run (run : (Pipeline.machine env).Run h s) :
    (s.core .empty).Hashed fun hash => '\n' ∉ hash.toList := by
  have keeps : ∀ t ∈ h, t.pre.Keeps env
      ⟨fun _ _ _ w => '\n' ∉ w.hash.toList, fun _ => True⟩ t.input := by
    intro t member
    obtain ⟨earlier, before, step, -⟩ := run.of_mem member
    generalize same : t.input = input at step
    cases input with
    | handle req clk =>
      intro w reaches
      exact newline_notMem_paramsHash reaches.hashed
    | upstream c r clk => exact fun _ _ _ => trivial
    | _ => trivial
  refine (core_of_run run keeps ?_ fun k k' _ m hashed =>
    hashed.move m fun w accepted => accepted).2
  constructor
  · intro ts w member
    simp [Core.initial, LocalGovernor.queue] at member
  · simp [Core.initial]
  · intro c call stored
    simp [Core.initial, AList.lookup_empty] at stored

/-! ## Looking up -/

/-- A call was made for a request that was received. -/
theorem request_of_call (ok : (s.core .empty).Ok env) (stored : s.calls.lookup c = some call) :
    ∃ req, .request call.onDone.rid req ∈ s.log ∧ req.who = call.req.who := by
  obtain ⟨trace, received⟩ := (ok.orderly.underway c call stored).admitted.received
  exact ⟨_, received, rfl⟩

/-- The agents of calls have no line breaks. -/
theorem agent_of_call (ok : (s.core .empty).Ok env) (plain : AgentsOneLine s.log)
    (stored : s.calls.lookup c = some call) : '\n' ∉ call.req.who.agentId.toList := by
  obtain ⟨req, received, who⟩ := request_of_call ok stored
  exact who ▸ plain _ _ received

/-- A lookup finds entries of the agent who asks. -/
theorem agent_of_lookup (regular : s.Regular env) (plain : AgentsOneLine s.log)
    (agent : '\n' ∉ agentId.toList) (found : s.inflight.lookup agentId key hash = some e) :
    e.agentId = agentId := by
  obtain ⟨c, call, stored, tells, -⟩ := liveCall_of_lookup regular.ok.tables regular.entered found
  have own := regular.ok.tables.indexed.entryKey_of_lookup found
  have line := agent_of_call regular.ok plain stored
  exact (InFlight.mapKey_agent (tells.agentId ▸ line) agent own).1

/-- A lookup finds entries of the agent, the tool and the hash that were asked for. -/
theorem entry_of_lookup (regular : s.Regular env) (plain : AgentsOneLine s.log)
    (hashed : (s.core .empty).Hashed fun hash => '\n' ∉ hash.toList)
    (agent : '\n' ∉ agentId.toList) (line : '\n' ∉ hash.toList)
    (found : s.inflight.lookup agentId key hash = some e) :
    e.agentId = agentId ∧ e.key.str = key.str ∧ e.paramsHash = hash := by
  obtain ⟨c, call, stored, tells, -⟩ := liveCall_of_lookup regular.ok.tables regular.entered found
  have own := regular.ok.tables.indexed.entryKey_of_lookup found
  have plain := agent_of_call regular.ok plain stored
  have hashed : '\n' ∉ call.paramsHash.toList := hashed.call stored
  exact InFlight.mapKey_inj (tells.agentId ▸ plain) agent (tells.paramsHash ▸ hashed) line own

/-! ## Who owns what -/

/-- A task belongs to the agent of a request, and the call that works on it is the agent's. -/
structure Owned (s : PipelineState) : Prop where
  call : ∀ c call, s.calls.lookup c = some call → ∀ t,
    s.tasks.byId.lookup call.taskId = some t → t.agentId = call.req.who.agentId
  owner : ∀ id t, s.tasks.byId.lookup id = some t → t.agentId = t.owner.agentId ∧
    ∃ rid req, .request rid req ∈ s.log ∧ req.who = t.owner

theorem Owned.step (regular : s.Regular env) (plain : AgentsOneLine s'.log) (owned : s.Owned)
    (step : s.step env input = some s') : s'.Owned := by
  have effect := step_effect regular step
  have inherits := inherits_step regular step
  have older := effect.answers.log.suffix
  constructor
  · intro c call stored t found
    rcases effect.tasks.found found with ⟨old, before, same, -⟩ | ⟨-, named, entered⟩
    · obtain ⟨call', stored', task, req, -⟩ := inherits c call stored
        (Option.isSome_iff_exists.mpr ⟨old, before⟩)
      rw [same.agentId, ← req]
      exact owned.call c call' stored' old (task ▸ before)
    · rw [entered.agentId]
      cases entered.maker with
      | duplicate hashed looked owner only =>
        have received := plain _ _ (logged_step regular step)
        rw [owner, only c call stored named.symm]
        exact (agent_of_lookup regular (plain.suffix older) received looked).symm
      | promoted stored' owner only => rw [owner, only c call stored named.symm]
  · intro id t found
    rcases effect.tasks.found found with ⟨old, before, same, -⟩ | ⟨-, -, entered⟩
    · obtain ⟨agent, rid, req, received, who⟩ := owned.owner id old before
      rw [same.agentId, same.owner]
      exact ⟨agent, rid, req, older.subset received, who⟩
    · refine ⟨entered.agentId, ?_⟩
      cases entered.maker with
      | duplicate hashed looked owner => exact ⟨_, _, logged_step regular step, owner.symm⟩
      | promoted stored owner =>
        obtain ⟨req, received, who⟩ := request_of_call regular.ok stored
        exact ⟨_, req, older.subset received, who.trans owner.symm⟩

theorem owned_of_run (run : (Pipeline.machine env).Run h s) (plain : AgentsOneLine s.log) :
    s.Owned := by
  induction run with
  | start first =>
    obtain ⟨health, index, grants, rfl⟩ := first
    constructor
    · intro c call stored
      simp [initial, AList.lookup_empty] at stored
    · intro id t stored
      simp [initial, MemTaskStore.make, AList.lookup_empty] at stored
  | next before step ih =>
    have regular := regular_of_run before
    have older := (step_effect regular step).answers.log.suffix
    exact (ih (plain.suffix older)).step regular plain step

/-! ## What bodies name -/

theorem field?_createTaskResult (t : Task) :
    (createTaskResult t).field? "taskId" = some (.str t.taskId) ∧
      (createTaskResult t).field? "content" = none ∧
      (createTaskResult t).field? "resultType" = some (.str "task") := by
  refine ⟨?_, ?_, ?_⟩ <;> simp [createTaskResult, Json.ofMembers, Json.field?, Json.lookup_setField]

theorem field?_cancelledBody (id : String) :
    (cancelledBody id).field? "taskId" = some (.str id) ∧
      (cancelledBody id).field? "content" = none ∧
      (cancelledBody id).field? "resultType" = none := by
  refine ⟨?_, ?_, ?_⟩ <;> simp [cancelledBody, Json.ofMembers, Json.field?, Json.lookup_setField]

theorem field?_taskBody (t : Task) :
    (taskBody t).field? "taskId" = some (.str t.taskId) ∧
      (taskBody t).field? "content" = none ∧ (taskBody t).field? "resultType" = none := by
  unfold taskBody
  cases t.status <;> refine ⟨?_, ?_, ?_⟩ <;>
    simp [Json.ofMembers, Json.set, Json.field?, Json.lookup_setField]

/-- A text has content. -/
theorem ne_callToolText {body : Json} (none : body.field? "content" = none) (text : String)
    (isError : Bool) : body ≠ callToolText text isError := by
  rintro rfl
  rw [(Json.field?_callToolText text isError).2] at none
  cases none

/-- A body names only tasks that were made for requests of an agent, and if it is a text that
ends with a confirm token, then that of a call that was made for a request of the agent. -/
structure Confined (s s' : PipelineState) (agentId : String) (body : Json) : Prop where
  task : ∀ v, body.field? "taskId" = some v → ∃ id t, v = .str id ∧
    (s.tasks.byId.lookup id = some t ∨ s'.tasks.byId.lookup id = some t) ∧ t.agentId = agentId ∧
    ∃ rid req, .request rid req ∈ s'.log ∧ req.who = t.owner ∧ req.who.agentId = agentId
  token : ∀ text, body = callToolText (text ++ "\"") true → ∃ before c call,
    body = callToolText (before ++ "if_" ++ call.inflightId ++ "\"") true ∧
    s.calls.lookup c = some call ∧
    ∃ req, .request call.onDone.rid req ∈ s'.log ∧ req.who.agentId = agentId

theorem Confined.of_task {body : Json} {t : Task}
    (names : body.field? "taskId" = some (.str t.taskId))
    (content : body.field? "content" = none)
    (found : s.tasks.byId.lookup t.taskId = some t ∨ s'.tasks.byId.lookup t.taskId = some t)
    (owned : s'.Owned) (older : s.Owned) (grows : s.log <:+ s'.log) (own : t.agentId = agentId) :
    Confined s s' agentId body where
  task := by
    intro v same
    rw [names] at same
    refine ⟨t.taskId, t, (Option.some.inj same).symm, found, own, ?_⟩
    rcases found with before | after
    · obtain ⟨agent, rid, req, received, who⟩ := older.owner _ t before
      exact ⟨rid, req, grows.subset received, who, by rw [who, ← agent, own]⟩
    · obtain ⟨agent, rid, req, received, who⟩ := owned.owner _ t after
      exact ⟨rid, req, received, who, by rw [who, ← agent, own]⟩
  token := fun text same => absurd same (ne_callToolText content _ _)

/-- A task handle is relayed from an upstream, or it is that of a task of the agent who asked,
which the store holds. -/
theorem Reply.handed (regular : s.Regular env) (regular' : s'.Regular env) (owned' : s'.Owned)
    (plain : AgentsOneLine s'.log) (grows : s.log <:+ s'.log) {body : Json}
    (reply : s.Reply s' input rid body) (asked : .request rid req ∈ s'.log) :
    (∃ c r clk, input = .upstream c r clk ∧ body = r.body) ∨ body.field? "resultType" = none ∨
      ∃ t, body = createTaskResult t ∧ s'.tasks.byId.lookup t.taskId = some t ∧
        t.agentId = req.who.agentId := by
  have same : ∀ {req'}, .request rid req' ∈ s'.log → req' = req := fun asked' =>
    request_unique regular'.ok.orderly.lawful asked' asked
  cases reply with
  | plain nameless => exact .inr (.inl nameless.handle)
  | relayed => exact .inl ⟨_, _, _, rfl, rfl⟩
  | @status _ _ _ t => exact .inr (.inl (field?_taskBody t).2.2)
  | cancelled => exact .inr (.inl (field?_cancelledBody _).2.2)
  | notice => exact .inr (.inl (Json.unnamed_callToolText ..).2)
  | shared asked' hashed looked stored agent own found =>
    obtain rfl := same asked'
    refine .inr (.inr ⟨_, rfl, found, ?_⟩)
    rw [owned'.call _ _ stored _ (own ▸ found), agent]
    exact agent_of_lookup regular (plain.suffix grows) (plain _ _ asked) looked
  | promoted stored own found =>
    obtain ⟨req', received, who⟩ := request_of_call regular'.ok stored
    obtain rfl := same received
    refine .inr (.inr ⟨_, rfl, found, ?_⟩)
    rw [owned'.call _ _ stored _ (own ▸ found), who]

/-- What a step says to an agent is about the agent's own tasks and calls, unless it relays what
an upstream says. -/
theorem Reply.confined (regular : s.Regular env) (regular' : s'.Regular env) (owned : s.Owned)
    (owned' : s'.Owned) (plain : AgentsOneLine s'.log) (grows : s.log <:+ s'.log) {body : Json}
    (reply : s.Reply s' input rid body) (asked : .request rid req ∈ s'.log) :
    (∃ c r clk, input = .upstream c r clk ∧ body = r.body) ∨
      s.Confined s' req.who.agentId body := by
  have same : ∀ {req'}, .request rid req' ∈ s'.log → req' = req := fun asked' =>
    request_unique regular'.ok.orderly.lawful asked' asked
  have swept : ∀ {now id t}, (s.tasks.sweep now).byId.lookup id = some t →
      s.tasks.byId.lookup t.taskId = some t ∧ t.taskId = id := by
    intro now id t stored
    rw [MemTaskStore.lookup_sweep] at stored
    have before := (Option.filter_eq_some_iff.mp stored).1
    have named := (regular.drawn id t before).1
    exact ⟨named ▸ before, named⟩
  rcases reply.handed regular regular' owned' plain grows asked with
    relayed | unhanded | ⟨t, rfl, found, own⟩
  · exact .inl relayed
  · cases reply with
    | plain nameless =>
      refine .inr ⟨fun v names => ?_, fun text token => absurd token (nameless.token text)⟩
      rw [nameless.task] at names
      cases names
    | relayed => exact .inl ⟨_, _, _, rfl, rfl⟩
    | @status _ _ _ t asked' stored own =>
      obtain rfl := same asked'
      obtain ⟨names, content, -⟩ := field?_taskBody t
      exact .inr (.of_task names content (.inl (swept stored).1) owned' owned grows own)
    | @cancelled _ _ _ t asked' stored own =>
      obtain rfl := same asked'
      obtain ⟨before, named⟩ := swept stored
      rw [← named]
      obtain ⟨names, content, -⟩ := field?_cancelledBody t.taskId
      exact .inr (.of_task names content (.inl before) owned' owned grows own)
    | @notice asker clk _ key hash said e asked' hashed looked =>
      obtain rfl := same asked'
      obtain ⟨c, call, stored, tells, -⟩ :=
        liveCall_of_lookup regular.ok.tables regular.entered looked
      have agent := agent_of_lookup regular (plain.suffix grows) (plain _ _ asked) looked
      obtain ⟨req', received, who⟩ := request_of_call regular.ok stored
      have asks : req'.who.agentId = asker.who.agentId := by rw [who, ← tells.agentId, agent]
      refine .inr ⟨fun v names => ?_, fun text _ =>
        ⟨said, c, call, ?_, stored, req', grows.subset received, asks⟩⟩
      · rw [(Json.unnamed_callToolText ..).1] at names
        cases names
      · rw [tells.inflightId]
    | @shared _ _ _ _ _ _ _ _ t | @promoted _ _ _ t =>
      -- these are handles
      rw [(field?_createTaskResult t).2.2] at unhanded
      cases unhanded
  · obtain ⟨names, content, -⟩ := field?_createTaskResult t
    exact .inr (.of_task names content (.inr found) owned' owned grows own)

/-! ## Tasks of others -/

theorem endSpan_tasks (s : PipelineState) (store : MemTaskStore) (ctx : TraceContext)
    (klass : FailureClass) (latencyMs : UInt64) :
    { s with tasks := store }.endSpan ctx klass latencyMs =
      { s.endSpan ctx klass latencyMs with tasks := store } := by
  unfold endSpan
  dsimp only
  split <;> rfl

/-- Answering has nothing to do with the store. -/
theorem finish_tasks (s : PipelineState) (store : MemTaskStore) (fin : Finish) (r : Response)
    (now : UInt64) :
    { s with tasks := store }.finish fin r now = { s.finish fin r now with tasks := store } := by
  unfold finish
  dsimp only
  rw [s.endSpan_tasks store fin.gateway, (s.endSpan fin.gateway _ _).endSpan_tasks store fin.total]
  rfl

theorem startSpan_tasks (env : Env) (s : PipelineState) (store : MemTaskStore) (req : Request)
    (spanName : String) (now : UInt64) :
    { s with tasks := store }.startSpan env req spanName now =
      ({ (s.startSpan env req spanName now).1 with tasks := store },
        (s.startSpan env req spanName now).2) := by
  unfold startSpan
  by_cases new : req.trace.traceId.isEmpty
  · simp only [new, if_true, draw]
  · simp only [new, Bool.false_eq_true, if_false, draw]

/-- Nor has receiving a request. -/
theorem received_tasks (env : Env) (s : PipelineState) (store : MemTaskStore) (req : Request)
    (clk : Clock) :
    { s with tasks := store }.received env req clk =
      ({ (s.received env req clk).1 with tasks := store }, (s.received env req clk).2) := by
  unfold received
  dsimp only
  have opened := startSpan_tasks env
    { s with nextRequest := s.nextRequest + 1, log := .request s.nextRequest req :: s.log } store
    req "total" (clk 1)
  dsimp only at opened
  rw [opened]
  dsimp only
  rw [startSpan_tasks]

/-- What a request does that asks for a task nobody knows. -/
def unknownTask (env : Env) (s : PipelineState) (req : Request) (clk : Clock) : PipelineState :=
  (s.received env req clk).1.finish (s.received env req clk).2.2 taskNotFound (clk 4)

theorem unknownTask_tasks (env : Env) (s : PipelineState) (store : MemTaskStore) (req : Request)
    (clk : Clock) :
    unknownTask env { s with tasks := store } req clk =
      { unknownTask env s req clk with tasks := store } := by
  rw [unknownTask, received_tasks, finish_tasks, unknownTask]

/-- The task of another agent is as good as unknown. -/
theorem handle_foreign {clk : Clock}
    (method : req.method = "tasks/get" ∨ req.method = "tasks/cancel")
    (foreign : ∀ t, (s.tasks.sweep (clk 3)).byId.lookup req.name = some t →
      t.agentId ≠ req.who.agentId) :
    s.handle env req clk =
      { unknownTask env s req clk with tasks := s.tasks.sweep (clk 3) } := by
  obtain ⟨n, tracer, ctx, fin, received, -⟩ := received_eq env s req clk
  unfold handle unknownTask
  rw [received]
  dsimp only
  generalize opened : ({ s with
    nextRequest := _, log := _, draws := _, tracer := _ } : PipelineState) = s₁
  have tasks : s₁.tasks = s.tasks := by rw [← opened]
  have unknown : ∀ who : Principal, who = req.who →
      s₁.getTask req.name who (clk 3) = ({ s₁ with tasks := s.tasks.sweep (clk 3) }, none) := by
    rintro who rfl
    rcases s₁.getTask_cases req.name req.who (clk 3) with ⟨-, found⟩ | ⟨t, stored, own, -⟩
    · rw [found, tasks]
    · exact absurd own (foreign t (tasks ▸ stored))
  unfold dispatch
  rcases method with method | method
  · simp only [method, reduceIte, String.reduceEq]
    rw [show clk.after 3 0 = clk 3 from rfl, unknown req.who rfl]
    exact finish_tasks ..
  · simp only [method, reduceIte, String.reduceEq]
    unfold cancelTask
    rw [show clk.after 3 0 = clk 3 from rfl, unknown req.who rfl]
    exact finish_tasks ..

/-- The calls, the table and their indices are left alone. -/
structure LeavesCalls (s s' : PipelineState) : Prop where
  calls : s'.calls = s.calls
  inflight : s'.inflight = s.inflight
  live : s'.live = s.live
  byTask : s'.byTask = s.byTask

theorem leavesCalls_endSpan (s : PipelineState) (ctx : TraceContext) (klass : FailureClass)
    (latencyMs : UInt64) : s.LeavesCalls (s.endSpan ctx klass latencyMs) := by
  unfold endSpan
  split
  · constructor <;> rfl
  · constructor <;> rfl

theorem leavesCalls_finish (s : PipelineState) (fin : Finish) (r : Response) (now : UInt64) :
    s.LeavesCalls (s.finish fin r now) := by
  have first := leavesCalls_endSpan s fin.gateway r.klass (now - fin.t0)
  have second := leavesCalls_endSpan (s.endSpan fin.gateway r.klass (now - fin.t0)) fin.total
    r.klass (now - fin.t0)
  unfold finish
  dsimp only [emit]
  exact ⟨second.calls.trans first.calls, second.inflight.trans first.inflight,
    second.live.trans first.live, second.byTask.trans first.byTask⟩

theorem leavesCalls_unknownTask (env : Env) (s : PipelineState) (req : Request) (clk : Clock) :
    s.LeavesCalls (unknownTask env s req clk) := by
  obtain ⟨n, tracer, ctx, fin, received, -⟩ := received_eq env s req clk
  unfold unknownTask
  rw [received]
  dsimp only
  generalize opened : ({ s with
    nextRequest := _, log := _, draws := _, tracer := _ } : PipelineState) = s₁
  obtain ⟨calls, inflight, live, byTask⟩ := leavesCalls_finish s₁ fin taskNotFound (clk 4)
  subst opened
  exact ⟨calls, inflight, live, byTask⟩

end PipelineState

/-- A step keeps agents apart: what it answers, unless it relays the result of an upstream, is
about tasks and calls of the agent who asked, and to ask for the task of another agent is to ask
for one that does not exist. -/
structure Isolates (env : Env) (t : TransitionSystem.Step PipelineState PipelineInput) :
    Prop where
  said : ∀ rid r req, .answered rid r ∈ t.post.log → .answered rid r ∉ t.pre.log →
    .request rid req ∈ t.post.log →
    (∃ c r₀ clk, t.input = .upstream c r₀ clk ∧ r.body = r₀.body) ∨
      t.pre.Confined t.post req.who.agentId r.body
  foreign : ∀ req clk, t.input = .handle req clk →
    req.method = "tasks/get" ∨ req.method = "tasks/cancel" →
    (∀ task, t.pre.tasks.byId.lookup req.name = some task → task.agentId ≠ req.who.agentId) →
    t.post.tasks = t.pre.tasks.sweep (clk 3) ∧ t.pre.LeavesCalls t.post ∧
      ∀ store : MemTaskStore, store.byId.lookup req.name = none →
        { t.pre with tasks := store }.handle env req clk =
          { t.post with tasks := store.sweep (clk 3) }

namespace PipelineState

theorem said_of_run (run : (Pipeline.machine env).Run h s) (plain : AgentsOneLine s'.log)
    (step : s.step env input = some s') {r : Response} (answered : .answered rid r ∈ s'.log)
    (new : .answered rid r ∉ s.log) (asked : .request rid req ∈ s'.log) :
    (∃ c r₀ clk, input = .upstream c r₀ clk ∧ r.body = r₀.body) ∨
      s.Confined s' req.who.agentId r.body := by
  have regular := regular_of_run run
  have effect := step_effect regular step
  have grows := effect.answers.log.suffix
  have owned := owned_of_run run (plain.suffix grows)
  have run' : (Pipeline.machine env).Run (⟨s, input, s'⟩ :: h) s' := run.next step
  have reply := ((effect.answers.log.mem answered).resolve_right new rid r rfl).reply
  exact reply.confined regular (regular_of_run run') owned (owned_of_run run' plain) plain grows
    asked

theorem foreign_step {clk : Clock} (step : s.step env (.handle req clk) = some s')
    (method : req.method = "tasks/get" ∨ req.method = "tasks/cancel")
    (foreign : ∀ task, s.tasks.byId.lookup req.name = some task →
      task.agentId ≠ req.who.agentId) :
    s'.tasks = s.tasks.sweep (clk 3) ∧ s.LeavesCalls s' ∧
      ∀ store : MemTaskStore, store.byId.lookup req.name = none →
        { s with tasks := store }.handle env req clk =
          { s' with tasks := store.sweep (clk 3) } := by
  have attempt := (Option.filter_eq_some_iff.mp step).1
  simp only [PipelineState.attempt] at attempt
  split at attempt
  case isFalse => cases attempt
  have handled : s' = { unknownTask env s req clk with tasks := s.tasks.sweep (clk 3) } := by
    rw [← Option.some.inj attempt]
    refine handle_foreign method fun task found => ?_
    rw [MemTaskStore.lookup_sweep] at found
    exact foreign task (Option.filter_eq_some_iff.mp found).1
  have left := leavesCalls_unknownTask env s req clk
  generalize unknown : unknownTask env s req clk = s₁ at handled left
  subst handled
  refine ⟨rfl, ⟨left.calls, left.inflight, left.live, left.byTask⟩, fun store missing => ?_⟩
  have none : ∀ task, (store.sweep (clk 3)).byId.lookup req.name = some task →
      task.agentId ≠ req.who.agentId := by
    intro task found
    rw [MemTaskStore.lookup_sweep, missing] at found
    cases found
  rw [handle_foreign (s := { s with tasks := store }) method none, unknownTask_tasks, unknown]

end PipelineState

/-- In a run of agents whose ids have no line break, a lookup finds only what was entered for
that agent, tool and hash, and every step keeps agents apart. -/
theorem agents_isolated (run : (Pipeline.machine env).Run h s) (plain : AgentsOneLine s.log) :
    (∀ agentId key params hash e, '\n' ∉ agentId.toList → paramsHashOf params = .ok hash →
      s.inflight.lookup agentId key hash = some e →
      e.agentId = agentId ∧ e.key.str = key.str ∧ e.paramsHash = hash) ∧
    ∀ t ∈ h, Isolates env t := by
  constructor
  · intro agentId key params hash e agent hashed found
    exact PipelineState.entry_of_lookup (PipelineState.regular_of_run run) plain
      (PipelineState.hashed_of_run run) agent (newline_notMem_paramsHash hashed) found
  · intro t member
    obtain ⟨earlier, before, step, -⟩ := run.of_mem member
    have older := PipelineState.log_of_mem run member
    constructor
    · intro rid r req answered new asked
      exact PipelineState.said_of_run before (plain.suffix older) step answered new asked
    · intro req clk same method foreign
      exact PipelineState.foreign_step (same ▸ step) method foreign

namespace IsolationExample

open PipelineExample

/-- A call of one agent gets a task, and another agent asks for it. -/
def curious : List PipelineInput :=
  forwarded { PipelineExample.call "b__t" 1 with caps := ⟨true⟩ } ++
    [.promote 0 clk, .run clk,
      .handle { PipelineExample.call "tsk_ffffff" 0 with
        method := "tasks/get"
        who := { (PipelineExample.call "" 0).who with agentId := "bob" } } clk]

/-- The task is the first agent's. -/
def keepsTask (s : PipelineState) : Bool :=
  (s.tasks.byId.lookup "tsk_ffffff").any fun t => decide (t.agentId = "ann")

end IsolationExample

open PipelineExample IsolationExample in
/-- Two agents, one of whom asks for the task of the other. -/
theorem agents_isolated_curious : ∃ h s, (Pipeline.machine (gateway {})).Run h s ∧
    keepsTask s = true ∧
    (∀ agentId key params hash e, '\n' ∉ agentId.toList → paramsHashOf params = .ok hash →
      s.inflight.lookup agentId key hash = some e →
      e.agentId = agentId ∧ e.key.str = key.str ∧ e.paramsHash = hash) ∧
    ∀ t ∈ h, Isolates (gateway {}) t := by
  obtain ⟨h, s, run, -, reached⟩ := TransitionSystem.exists_run
    (M := Pipeline.machine (gateway {})) curious (fun _ _ => true)
    (fun s => keepsTask s && s.log.all PipelineEvent.agentOneLine) (start_init _)
    (by decide +kernel)
  obtain ⟨keeps, plain⟩ := Bool.and_eq_true _ _ |>.mp reached
  exact ⟨h, s, run, keeps, agents_isolated run (agentsOneLine_of_all plain)⟩

end Perfacet
