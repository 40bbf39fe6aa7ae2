import Perfacet.Pipeline.Isolation

/-!
# Task handles are durable

A client that gets a task handle polls the task until it is over. The store never drops a task
before its time to live is over and never grows beyond its capacity, so whoever got a handle
from the gateway can read the task until then. A handle that an upstream returns is relayed
as any result is, and the gateway knows nothing about its task.

## Main definitions

* `handleOf` — the task id of a response that is a task handle
* `ClockForward` — the clock of a run does not go back
* `Serves` — a step reads a task for its owner

## Main results

* `handles_durable` — who has a handle from the gateway can read the task until it expires
-/

namespace Perfacet

variable {env : Env} {rid : ℕ} {req : Request}
  {h : List (TransitionSystem.Step PipelineState PipelineInput)} {s s' : PipelineState}
  {input : PipelineInput} {id : String} {t : Task}

/-! ## Definitions -/

/-- The id of the task that a body is a handle of. -/
def handleOf (body : Json) : Option String :=
  match body.field? "resultType", body.field? "taskId" with
  | some (.str kind), some (.str id) => if kind = "task" then some id else none
  | _, _ => none

theorem handleOf_createTaskResult (t : Task) : handleOf (createTaskResult t) = some t.taskId := by
  obtain ⟨names, -, handle⟩ := PipelineState.field?_createTaskResult t
  simp [handleOf, names, handle]

theorem handleOf_of_none {body : Json} (none : body.field? "resultType" = none) :
    handleOf body = .none := by
  rw [handleOf, none]

/-- What a step reads from the clock is no less than what was read in earlier steps. -/
def ClockForward (h : List (TransitionSystem.Step PipelineState PipelineInput)) : Prop :=
  h.Pairwise fun later earlier => ∀ now now', earlier.input.Reads now → later.input.Reads now' →
    now ≤ now'

/-- If a step reads a task for its agent before the task expires, then it answers with the task:
the same owner, tool and times, and the outcome as it is. -/
def Serves (task : Task) (u : TransitionSystem.Step PipelineState PipelineInput) : Prop :=
  ∀ asker clk, u.input = .handle asker clk → asker.method = "tasks/get" →
    asker.name = task.taskId → asker.who.agentId = task.agentId →
    MemTaskStore.expired (clk 3) task = false →
    ∃ task' r, task.Same task' ∧ u.post.tasks.byId.lookup task.taskId = some task' ∧
      .request u.pre.nextRequest asker ∈ u.post.log ∧
      .answered u.pre.nextRequest r ∈ u.post.log ∧
      r.isError = false ∧ r.body = PipelineState.taskBody task'

/-- Whoever gets a handle in a step owns the task, which the store holds after the step. -/
def Backed (t : TransitionSystem.Step PipelineState PipelineInput) : Prop :=
  ∀ rid r req id, .answered rid r ∈ t.post.log → .answered rid r ∉ t.pre.log →
    .request rid req ∈ t.post.log → handleOf r.body = some id →
    ∃ task, t.post.tasks.byId.lookup id = some task ∧ task.agentId = req.who.agentId

/-! ## Expiry -/

/-- What has expired stays expired. -/
theorem expired_mono {now now' : UInt64} (lapsed : MemTaskStore.expired now t = true)
    (later : now ≤ now') : MemTaskStore.expired now' t = true := by
  unfold MemTaskStore.expired at lapsed ⊢
  rw [Bool.and_eq_true, decide_eq_true_eq, decide_eq_true_eq] at lapsed ⊢
  exact ⟨lapsed.1, UInt64.le_trans lapsed.2 later⟩

namespace PipelineState

/-! ## The store -/

/-- The store never holds more tasks than it may. -/
theorem hasRoom_of_run (run : (Pipeline.machine env).Run h s) :
    s.tasks.maxTasks = (MemTaskStore.make env.cfg.taskMax).maxTasks ∧ s.tasks.HasRoom := by
  induction run with
  | start first =>
    obtain ⟨health, index, grants, rfl⟩ := first
    exact ⟨rfl, MemTaskStore.hasRoom_make _⟩
  | next before step ih =>
    have effect := step_effect (regular_of_run before) step
    exact ⟨effect.tasks.maxTasks.trans ih.1, effect.tasks.room ih.2⟩

/-- A task is found again, or some step has read that it is over. -/
def Kept (task : Task) (later : List (TransitionSystem.Step PipelineState PipelineInput))
    (s : PipelineState) : Prop :=
  (∃ task', s.tasks.byId.lookup task.taskId = some task' ∧ task.Same task') ∨
    ∃ u ∈ later, ∃ now, u.input.Reads now ∧ MemTaskStore.expired now task = true

theorem Kept.step {later : List (TransitionSystem.Step PipelineState PipelineInput)}
    {u : TransitionSystem.Step PipelineState PipelineInput}
    (effect : Effect env u.pre u.post u.input)
    (kept : Kept t later u.pre) : Kept t (u :: later) u.post := by
  rcases kept with ⟨t', stored, same⟩ | ⟨v, member, now, read, lapsed⟩
  · cases found : u.post.tasks.byId.lookup t.taskId with
    | none =>
      obtain ⟨now, read, lapsed⟩ := effect.tasks.lost stored found
      exact .inr ⟨u, List.mem_cons_self, now, read, same.expired now ▸ lapsed⟩
    | some t'' =>
      rcases effect.tasks.found found with ⟨old, before, same', -⟩ | ⟨new, -⟩
      · obtain rfl := Option.some.inj (stored.symm.trans before)
        exact .inl ⟨t'', found, same.trans same'⟩
      · rw [stored] at new
        cases new
  · exact .inr ⟨v, List.mem_cons_of_mem _ member, now, read, lapsed⟩

theorem kept_of_run {later earlier : List (TransitionSystem.Step PipelineState PipelineInput)}
    {u : TransitionSystem.Step PipelineState PipelineInput}
    (run : (Pipeline.machine env).Run (later ++ u :: earlier) s)
    (stored : u.post.tasks.byId.lookup t.taskId = some t) : Kept t later s :=
  run.since (C := fun _ => True) (I := Kept t) (fun _ _ => trivial) (.inl ⟨t, stored, .refl t⟩)
    fun _ _ before step _ kept => kept.step (step_effect (regular_of_run before) step)

/-! ## Reading a task -/

/-- The owner of a task that has not expired reads it. -/
theorem handle_get {clk : Clock} (method : req.method = "tasks/get")
    (found : (s.tasks.sweep (clk 3)).byId.lookup req.name = some t)
    (own : t.agentId = req.who.agentId) :
    (s.handle env req clk).tasks = s.tasks.sweep (clk 3) ∧
      ∃ r, .answered s.nextRequest r ∈ (s.handle env req clk).log ∧ r.isError = false ∧
        r.body = taskBody t := by
  obtain ⟨n, tracer, ctx, fin, received, rid⟩ := received_eq env s req clk
  unfold handle
  rw [received]
  dsimp only
  generalize opened : ({ s with
    nextRequest := _, log := _, draws := _, tracer := _ } : PipelineState) = s₁
  have tasks : s₁.tasks = s.tasks := by rw [← opened]
  have known : s₁.getTask req.name req.who (clk 3) =
      ({ s₁ with tasks := s.tasks.sweep (clk 3) }, some t) := by
    rcases s₁.getTask_cases req.name req.who (clk 3) with ⟨foreign, -⟩ | ⟨t', stored, -, found'⟩
    · exact absurd own (foreign t (tasks ▸ found))
    · rw [tasks, found] at stored
      rw [found', tasks, ← Option.some.inj stored]
  unfold dispatch
  simp only [method, reduceIte, String.reduceEq]
  rw [show clk.after 3 0 = clk 3 from rfl, known]
  refine ⟨tasks_finish .., stamp fin (.ofBody (taskBody t)) (clk.after 3 1), ?_, rfl, rfl⟩
  rw [← rid]
  exact List.mem_cons_self

theorem get_step {clk : Clock} (regular : s.Regular env)
    (step : s.step env (.handle req clk) = some s') (method : req.method = "tasks/get")
    (found : (s.tasks.sweep (clk 3)).byId.lookup req.name = some t)
    (own : t.agentId = req.who.agentId) :
    s'.tasks.byId.lookup req.name = some t ∧ .request s.nextRequest req ∈ s'.log ∧
      ∃ r, .answered s.nextRequest r ∈ s'.log ∧ r.isError = false ∧ r.body = taskBody t := by
  have logged := logged_step regular step
  have attempt := (Option.filter_eq_some_iff.mp step).1
  simp only [PipelineState.attempt] at attempt
  split at attempt
  · rw [← Option.some.inj attempt] at logged ⊢
    obtain ⟨tasks, answered⟩ := handle_get method found own
    exact ⟨tasks ▸ found, logged, answered⟩
  · cases attempt

/-- A task that the store holds is served from then on. -/
theorem serves_of_run {later earlier : List (TransitionSystem.Step PipelineState PipelineInput)}
    {t u : TransitionSystem.Step PipelineState PipelineInput} {task : Task}
    (run : (Pipeline.machine env).Run (later ++ t :: earlier) s)
    (forward : ClockForward (later ++ t :: earlier))
    (stored : t.post.tasks.byId.lookup task.taskId = some task) (member : u ∈ later) :
    Serves task u := by
  obtain ⟨after, between, rfl⟩ := List.append_of_mem member
  rw [List.append_assoc, List.cons_append] at run forward
  obtain ⟨-, before, step⟩ := run.of_append
  intro asker clk same method name agent current
  rcases kept_of_run before stored with ⟨task', stored', alike⟩ | ⟨v, since, now, read, lapsed⟩
  · have found : (u.pre.tasks.sweep (clk 3)).byId.lookup asker.name = some task' := by
      rw [MemTaskStore.lookup_sweep, name, stored', Option.filter_some, if_pos]
      rw [alike.expired, current]
      rfl
    obtain ⟨left, logged, r, answered, worked, body⟩ := get_step (regular_of_run before)
      (same ▸ step) method found (alike.agentId.trans agent.symm)
    exact ⟨task', r, alike, name ▸ left, logged, answered, worked, body⟩
  · -- what was read between the handle and now is no later than now
    have apart := (List.pairwise_append.mp forward).2.1
    have order := List.rel_of_pairwise_cons apart (List.mem_append_left _ since)
    have later : now ≤ clk 3 := order now (clk 3) read (same ▸ ⟨3, rfl⟩)
    rw [expired_mono lapsed later] at current
    cases current

end PipelineState

/-- In a run with a clock that does not go back and agents whose ids have no line break, the
store stays within its capacity, and a task handle is relayed from an upstream or is that of a
task of the agent who gets it, which the store holds and every later step serves. The steps of a
run are those that the process survives; a request that ends it is not served. -/
theorem handles_durable (run : (Pipeline.machine env).Run h s) (plain : AgentsOneLine s.log)
    (forward : ClockForward h) :
    s.tasks.byId.entries.length ≤ (MemTaskStore.make env.cfg.taskMax).maxTasks ∧
    ∀ later t earlier, h = later ++ t :: earlier → ∀ rid r req id,
      .answered rid r ∈ t.post.log → .answered rid r ∉ t.pre.log →
      .request rid req ∈ t.post.log → handleOf r.body = some id →
      (∃ c r₀ clk, t.input = .upstream c r₀ clk ∧ r.body = r₀.body) ∨
      ∃ task, task.taskId = id ∧ t.post.tasks.byId.lookup id = some task ∧
        task.agentId = req.who.agentId ∧ ∀ u ∈ later, Serves task u := by
  obtain ⟨capacity, room⟩ := PipelineState.hasRoom_of_run run
  refine ⟨capacity ▸ room, ?_⟩
  rintro later t earlier rfl rid r req id answered new asked handle
  obtain ⟨run', before, step⟩ := run.of_append
  have plain' := plain.suffix (PipelineState.log_of_mem run
    (List.mem_append_right _ List.mem_cons_self))
  have regular := PipelineState.regular_of_run before
  have effect := PipelineState.step_effect regular step
  have reply := ((effect.answers.log.mem answered).resolve_right new rid r rfl).reply
  -- the upstream may answer with what looks like a handle
  rcases reply.handed regular (PipelineState.regular_of_run run')
      (PipelineState.owned_of_run run' plain') plain' effect.answers.log.suffix asked with
    relayed | unhanded | ⟨task, body, found, own⟩
  · exact .inl relayed
  · rw [handleOf_of_none unhanded] at handle
    cases handle
  · rw [body, handleOf_createTaskResult] at handle
    obtain rfl := Option.some.inj handle
    exact .inr ⟨task, rfl, found, own, fun u member =>
      PipelineState.serves_of_run run forward found member⟩

namespace HandlesExample

open PipelineExample

/-- A call of an agent who takes task handles. -/
def callBy (agentId name : String) : Request :=
  { PipelineExample.call name 1 with
    caps := ⟨true⟩
    who := { (PipelineExample.call name 1).who with agentId := agentId } }

/-- The upstream of a call runs it as a task of its own. -/
def remoteTask : Response :=
  .ofBody (.ofMembers [("resultType", .str "task"), ("taskId", .str "tsk_remote")])

/-- A call takes long and gets a task, which its owner reads. -/
def polled : List PipelineInput :=
  forwarded (callBy "ann" "b__t") ++
    [.promote 0 clk, .run clk,
      .handle { callBy "ann" "tsk_ffffff" with method := "tasks/get" } clk]

/-- Two agents and two tools, with line breaks in their names, share an entry of the table. -/
def collided : List PipelineInput :=
  forwarded (callBy "x" "b__t\nb__u") ++ [.promote 0 clk, .run clk]

def isHandle (rid : ℕ) (id : String) : PipelineEvent → Bool
  | .answered rid' r => decide (rid' = rid) && decide (handleOf r.body = some id)
  | _ => false

def isRequestOf (rid : ℕ) (agentId : String) : PipelineEvent → Bool
  | .request rid' req => decide (rid' = rid) && decide (req.who.agentId = agentId)
  | _ => false

/-- A request that was not answered before gets the handle of a task that is not its agent's. -/
def strays (rid : ℕ) (agentId id : String) (s s' : PipelineState) : Bool :=
  !s.log.any (PipelineEvent.isAnswer rid) && s'.log.any (isHandle rid id) &&
    s'.log.any (isRequestOf rid agentId) &&
    !(s'.tasks.byId.lookup id).any fun t => decide (t.agentId = agentId)

theorem not_backed_of_strays {t : TransitionSystem.Step PipelineState PipelineInput}
    {agentId : String} (stray : strays rid agentId id t.pre t.post = true) : ¬ Backed t := by
  rw [strays, Bool.and_eq_true, Bool.and_eq_true, Bool.and_eq_true, List.any_eq_true,
    List.any_eq_true, Bool.not_eq_true', Bool.not_eq_true', List.any_eq_false] at stray
  obtain ⟨⟨⟨fresh, e, answered, handle⟩, e', asked, request⟩, missing⟩ := stray
  intro backed
  cases e with
  | answered rid₁ r =>
    cases e' with
    | request rid₂ req =>
      obtain ⟨same, hands⟩ := (Bool.and_eq_true _ _).mp handle
      obtain ⟨same', agent⟩ := (Bool.and_eq_true _ _).mp request
      obtain rfl := of_decide_eq_true same
      obtain rfl := of_decide_eq_true same'
      have new : .answered rid₂ r ∉ t.pre.log := fun member => fresh _ member (decide_eq_true rfl)
      obtain ⟨task, stored, own⟩ := backed _ r req id answered new asked (of_decide_eq_true hands)
      rw [stored, Option.any_some, own, of_decide_eq_true agent] at missing
      exact of_decide_eq_false missing rfl
    | _ => cases request
  | _ => cases handle

/-- All that is read from the clock is one instant. -/
def AtOnce (input : PipelineInput) : Prop := ∀ now, input.Reads now → now = 1

theorem clockForward_of_atOnce
    (atOnce : ∀ t ∈ h, AtOnce t.input) : ClockForward h := by
  refine List.pairwise_of_forall_mem_list fun t member u member' now now' read read' => ?_
  rw [atOnce u member' now read, atOnce t member now' read']
  exact UInt64.le_refl 1

/-- A step that tests find after a run, at which somebody gets a handle that is not backed. -/
theorem exists_unbacked {q : PipelineInput → Prop} (rid : ℕ) (agentId id : String)
    (input : PipelineInput) (inputs : List PipelineInput)
    (kind : ∀ i ∈ input :: inputs, AtOnce i ∧ q i)
    (passed : (Pipeline.machine (gateway {})).test (fun _ _ => true)
      (fun s => (s.step (gateway {}) input).any (strays rid agentId id s)) (start {})
      inputs = true) :
    ∃ h s, (Pipeline.machine (gateway {})).Run h s ∧ ClockForward h ∧ (∀ t ∈ h, q t.input) ∧
      ∃ t ∈ h, ¬ Backed t := by
  obtain ⟨last, kinds⟩ := List.forall_mem_cons.mp kind
  obtain ⟨h, s, run, checked, reached⟩ := TransitionSystem.exists_run_of inputs _ _ kinds
    (start_init _) passed
  obtain ⟨s', step, stray⟩ := (Option.any_eq_true _ _).mp reached
  have all : ∀ t ∈ ⟨s, input, s'⟩ :: h, AtOnce t.input ∧ q t.input :=
    List.forall_mem_cons.mpr ⟨last, fun t member => (checked t member).2⟩
  exact ⟨_, s', run.next step, clockForward_of_atOnce fun t member => (all t member).1,
    fun t member => (all t member).2, _, List.mem_cons_self, not_backed_of_strays stray⟩

end HandlesExample

open PipelineExample HandlesExample

/-- The owner of a task reads it. -/
theorem handles_durable_polled : ∃ h s, (Pipeline.machine (gateway {})).Run h s ∧
    s.log.any (isHandle 0 "tsk_ffffff") = true ∧
    s.tasks.byId.entries.length ≤ (MemTaskStore.make (gateway {}).cfg.taskMax).maxTasks ∧
    ∀ later t earlier, h = later ++ t :: earlier → ∀ rid r req id,
      .answered rid r ∈ t.post.log → .answered rid r ∉ t.pre.log →
      .request rid req ∈ t.post.log → handleOf r.body = some id →
      (∃ c r₀ clk, t.input = .upstream c r₀ clk ∧ r.body = r₀.body) ∨
      ∃ task, task.taskId = id ∧ t.post.tasks.byId.lookup id = some task ∧
        task.agentId = req.who.agentId ∧ ∀ u ∈ later, Serves task u := by
  obtain ⟨h, s, run, checked, reached⟩ := TransitionSystem.exists_run_of (q := AtOnce)
    (M := Pipeline.machine (gateway {})) polled (fun _ _ => true)
    (fun s => s.log.any (isHandle 0 "tsk_ffffff") && s.log.all PipelineEvent.agentOneLine)
    (by simp [polled, forwarded, AtOnce, PipelineInput.Reads, clk]) (start_init _)
    (by decide +kernel)
  obtain ⟨handle, plain⟩ := Bool.and_eq_true _ _ |>.mp reached
  exact ⟨h, s, run, handle, handles_durable run (agentsOneLine_of_all plain)
    (clockForward_of_atOnce fun t member => (checked t member).2)⟩

/-- An upstream returns a handle of its own; and without any result of an upstream, an agent
gets the handle of another agent's task, when line breaks make their keys the same. -/
theorem handle_unbacked :
    (∃ h s, (Pipeline.machine (gateway {})).Run h s ∧ ClockForward h ∧
      (∀ t ∈ h, ∀ req clk, t.input = .handle req clk → '\n' ∉ req.who.agentId.toList) ∧
      ∃ t ∈ h, ¬ Backed t) ∧
    ∃ h s, (Pipeline.machine (gateway {})).Run h s ∧ ClockForward h ∧
      (∀ t ∈ h, ∀ c r clk, t.input ≠ .upstream c r clk) ∧ ∃ t ∈ h, ¬ Backed t := by
  constructor
  · refine exists_unbacked
      (q := fun input => ∀ req clk, input = .handle req clk → '\n' ∉ req.who.agentId.toList)
      0 "ann" "tsk_remote" (.upstream 0 remoteTask clk) (forwarded (callBy "ann" "b__t")) ?_
      (by decide +kernel)
    simp [forwarded, AtOnce, PipelineInput.Reads, clk, callBy]
  · refine exists_unbacked (q := fun input => ∀ c r clk, input ≠ .upstream c r clk)
      1 "x\nb__t" "tsk_ffffff" (.handle (callBy "x\nb__t" "b__u") clk) collided ?_
      (by decide +kernel)
    simp [collided, forwarded, AtOnce, PipelineInput.Reads, clk]

end Perfacet
