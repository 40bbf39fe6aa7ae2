import Perfacet.Pipeline.Guarantees
import Perfacet.Pipeline.Handles

/-!
# One task for each call

A call gets a task when its promote timer runs out or when a duplicate of it comes in, whichever
is first, and never another one: every handle that is given out for it is that of the one task.
The in-flight table and the table of tasks agree with the call about it. Whoever does not
understand tasks gets no handle.

## Main definitions

* `PipelineState.Concerns` — the steps in which handles for a call are given out
* `HandsOut`, `Creates` — a step gives a handle out, or makes a task
* `PipelineState.Agrees` — the three tables say the same about the tasks of calls

## Main results

* `one_task_per_call` — handles go to those who asked for them, and are the same for one call
-/

namespace Perfacet

variable {env : Env} {P : Promise} {k k' : Core} {c c' rid : ℕ} {call : Call} {req : Request}
  {h : List (TransitionSystem.Step PipelineState PipelineInput)} {s s' : PipelineState}
  {input : PipelineInput} {id id' : String} {t t' : Task} {body : Json}

/-! ## Definitions -/

namespace PipelineState

/-- The step is about call `c`: its promote timer runs out, or a duplicate of it comes in. -/
inductive Concerns (s : PipelineState) : PipelineInput → ℕ → Prop
  | promote {c : ℕ} {clk : Clock} : Concerns s (.promote c clk) c
  | duplicate {req : Request} {clk : Clock} {key : ToolKey} {hash : String} {e : InFlightEntry}
      {c : ℕ} : ToolKey.parse req.name = some key → paramsHashOf req.params = .ok hash →
      s.inflight.lookup req.who.agentId key hash = some e →
      s.live.lookup e.inflightId = some c → Concerns s (.handle req clk) c

/-- A step is about one call at most. -/
theorem Concerns.unique (one : s.Concerns input c) (other : s.Concerns input c') : c = c' := by
  cases one with
  | promote =>
    cases other with
    | promote => rfl
  | duplicate parsed hashed looked live =>
    cases other with
    | duplicate parsed' hashed' looked' live' =>
      obtain rfl := Option.some.inj (parsed.symm.trans parsed')
      obtain rfl := Except.ok.inj (hashed.symm.trans hashed')
      obtain rfl := Option.some.inj (looked.symm.trans looked')
      exact Option.some.inj (live.symm.trans live')

/-- In-flight entries, calls and the table of tasks say the same about the tasks of calls. -/
structure Agrees (s : PipelineState) : Prop where
  entry : ∀ id e, s.inflight.byId.lookup id = some e →
    ∃ c call, s.live.lookup id = some c ∧ s.calls.lookup c = some call ∧
      e.taskId.getD "" = call.taskId
  call : ∀ c call, s.calls.lookup c = some call →
    ∃ e, s.inflight.byId.lookup call.inflightId = some e ∧ e.taskId.getD "" = call.taskId
  byTask : ∀ id c, s.byTask.lookup id = some c ↔
    id ≠ "" ∧ ∃ call, s.calls.lookup c = some call ∧ call.taskId = id

theorem Regular.agrees (regular : s.Regular env) : s.Agrees where
  entry := by
    intro id e found
    obtain ⟨c, call, stored, tells⟩ := regular.entered id e found
    exact ⟨c, call, regular.ok.tables.alive.mpr ⟨call, stored, tells.inflightId⟩, stored,
      tells.taskId⟩
  call := by
    intro c call stored
    have held := regular.ok.tables.held.mpr ⟨c, regular.ok.tables.alive.mpr ⟨call, stored, rfl⟩⟩
    obtain ⟨e, found⟩ := Option.isSome_iff_exists.mp held
    obtain ⟨c', call', stored', tells⟩ := regular.entered _ e found
    obtain rfl := regular.ok.tables.eq_of_inflightId stored stored' tells.inflightId.symm
    obtain rfl := Option.some.inj (stored.symm.trans stored')
    exact ⟨e, found, tells.taskId⟩
  byTask := fun _ _ => regular.ok.tables.task

end PipelineState

/-- A step answers with the handle of task `id` for call `c`. -/
structure HandsOut (u : TransitionSystem.Step PipelineState PipelineInput) (c : ℕ) (id : String) :
    Prop where
  concerns : u.pre.Concerns u.input c
  answer : ∃ rid r, .answered rid r ∈ u.post.log ∧ .answered rid r ∉ u.pre.log ∧
    handleOf r.body = some id

/-- A step makes task `id` for call `c`. -/
structure Creates (u : TransitionSystem.Step PipelineState PipelineInput) (c : ℕ) (id : String) :
    Prop where
  concerns : u.pre.Concerns u.input c
  new : u.pre.tasks.byId.lookup id = none
  held : ∃ t, u.post.tasks.byId.lookup id = some t

/-! ## What a step gives out -/

namespace PipelineState

/-- A task is made for the call that the step is about, which had none. -/
theorem MakesFor.gets (maker : s.MakesFor env s' input t) :
    ∃ c call, s.Concerns input c ∧ s.Gets s' c call t.taskId := by
  cases maker with
  | duplicate hashed looked owner only parsed capable live gets =>
    exact ⟨_, _, .duplicate parsed hashed looked live, gets⟩
  | promoted stored owner only capable runs gets => exact ⟨_, _, .promote, gets⟩

/-- A body that names a task in answer to a `tools/call` is relayed, or is the handle of the task
of the call that the step is about, and goes to someone who understands tasks. -/
theorem Reply.names (regular' : s'.Regular env) (reply : s.Reply s' input rid body)
    (asked : .request rid req ∈ s'.log) (method : req.method = "tools/call") {v : Json}
    (names : body.field? "taskId" = some v) :
    (∃ c r clk, input = .upstream c r clk ∧ body = r.body) ∨
      req.caps.tasks = true ∧ ∃ c call t, s.Concerns input c ∧
        s'.calls.lookup c = some call ∧ call.taskId = t.taskId ∧
        s'.tasks.byId.lookup t.taskId = some t ∧ body = createTaskResult t := by
  have same : ∀ {req'}, .request rid req' ∈ s'.log → req' = req := fun asked' =>
    request_unique regular'.ok.orderly.lawful asked' asked
  cases reply with
  | plain nameless =>
    rw [nameless.task] at names
    cases names
  | relayed => exact .inl ⟨_, _, _, rfl, rfl⟩
  | status asked' stored own other =>
    obtain rfl := same asked'
    rw [method] at other
    exact absurd other (by decide)
  | cancelled asked' stored own other =>
    obtain rfl := same asked'
    rw [method] at other
    exact absurd other (by decide)
  | notice =>
    rw [(Json.unnamed_callToolText ..).1] at names
    cases names
  | shared asked' hashed looked stored agent own found parsed capable live =>
    obtain rfl := same asked'
    exact .inr ⟨capable, _, _, _, .duplicate parsed hashed looked live, stored, own, found, rfl⟩
  | promoted stored own found capable =>
    obtain ⟨trace, received⟩ := (regular'.ok.orderly.underway _ _ stored).admitted.received
    obtain rfl := same received
    exact .inr ⟨capable, _, _, _, .promote, stored, own, found, rfl⟩

/-- The handle that a step gives out for a call is that of the call's task. -/
theorem Reply.handsOut (reply : s.Reply s' input rid body) (concerns : s.Concerns input c)
    (handle : handleOf body = some id) :
    ∃ call, s'.calls.lookup c = some call ∧ call.taskId = id ∧
      ∃ t, s'.tasks.byId.lookup id = some t := by
  have none : ∀ {P : Prop}, body.field? "resultType" = .none → P := by
    intro P unhanded
    rw [handleOf_of_none unhanded] at handle
    cases handle
  cases reply with
  | plain nameless => exact none nameless.handle
  | relayed => cases concerns
  | status => exact none (field?_taskBody _).2.2
  | cancelled => exact none (field?_cancelledBody _).2.2
  | notice => exact none (Json.unnamed_callToolText ..).2
  | shared asked hashed looked stored agent own found parsed capable live =>
    obtain rfl := concerns.unique (.duplicate parsed hashed looked live)
    rw [handleOf_createTaskResult] at handle
    exact ⟨_, stored, own.trans (Option.some.inj handle), _, Option.some.inj handle ▸ found⟩
  | promoted stored own found =>
    obtain rfl := concerns.unique .promote
    rw [handleOf_createTaskResult] at handle
    exact ⟨_, stored, own.trans (Option.some.inj handle), _, Option.some.inj handle ▸ found⟩

theorem Regular.taskId_ne (regular : s.Regular env) (found : s.tasks.byId.lookup id = some t) :
    id ≠ "" := by
  obtain ⟨-, n, -, same⟩ := regular.drawn id t found
  rw [same]
  exact Perfacet.taskId_ne _

/-- Whatever a step does about tasks for a call, it is about the call's task. -/
theorem named_of_step {u : TransitionSystem.Step PipelineState PipelineInput}
    (regular : u.pre.Regular env) (regular' : u.post.Regular env)
    (step : u.pre.step env u.input = some u.post) (gives : HandsOut u c id ∨ Creates u c id) :
    id ≠ "" ∧ ∃ call, u.post.calls.lookup c = some call ∧ call.taskId = id := by
  have effect := step_effect regular step
  rcases gives with ⟨concerns, rid, r, answered, new, handle⟩ | ⟨concerns, new, t, held⟩
  · have reply := ((effect.answers.log.mem answered).resolve_right new rid r rfl).reply
    obtain ⟨call, stored, own, t, found⟩ := reply.handsOut concerns handle
    exact ⟨regular'.taskId_ne found, call, stored, own⟩
  · rcases effect.tasks.found held with ⟨old, before, -⟩ | ⟨-, named, entered⟩
    · rw [new] at before
      cases before
    · obtain ⟨c', call, concerns', gets⟩ := entered.maker.gets
      obtain rfl := concerns.unique concerns'
      obtain ⟨call', stored, own, -⟩ := gets.after
      exact ⟨regular'.taskId_ne held, call', stored, own.trans named⟩

end PipelineState

/-! ## A call keeps its task -/

namespace Core

/-- Call `c` was started, and while it lives its task is `id`. -/
structure HasTask (k : Core) (c : ℕ) (id : String) : Prop where
  started : c < k.nextCall
  task : ∀ call, k.calls.lookup c = some call → call.taskId = id

theorem HasTask.update (h : k.HasTask c id) {stored : Call}
    (found : k.calls.lookup c' = some stored)
    (same : call.taskId = stored.taskId) (later : k.nextCall ≤ k'.nextCall)
    (calls : k'.calls = k.calls.insert c' call) : k'.HasTask c id where
  started := h.started.trans_le later
  task := fun call' there => by
    rw [calls, UnorderedMap.lookup_insert] at there
    split at there
    · next here =>
      rw [← Option.some.inj there, same]
      exact h.task stored (here ▸ found)
    · exact h.task call' there

theorem HasTask.launched (h : k.HasTask c id) (call : Call)
    (calls : k'.calls = k.calls.insert k.nextCall call) (later : k'.nextCall = k.nextCall + 1) :
    k'.HasTask c id where
  started := later ▸ Nat.lt_succ_of_lt h.started
  task := fun call' there => by
    rw [calls, UnorderedMap.lookup_insert, if_neg (Nat.ne_of_lt h.started)] at there
    exact h.task call' there

theorem HasTask.move (m : k.Move env P k') (named : id ≠ "") (h : k.HasTask c id) :
    k'.HasTask c id := by
  cases m with
  | launch => exact h.launched _ rfl rfl
  | launchAbsent => exact h.launched _ rfl rfl
  | act c' call call' events frames stored act =>
    exact h.update stored act.same.taskId (Nat.le_refl _) rfl
  | attach c' call taskId stored without =>
    refine ⟨h.started, fun call' there => ?_⟩
    change (k.calls.insert c' _).lookup c = some call' at there
    rw [UnorderedMap.lookup_insert] at there
    split at there
    · -- the call would have a task already
      next here =>
      exact absurd ((h.task call (here ▸ stored)).symm.trans without) named
    · exact h.task call' there
  | destroy c' call below top stored =>
    refine ⟨h.started, fun call' there => ?_⟩
    change (k.calls.erase c').lookup c = some call' at there
    rw [UnorderedMap.lookup_erase] at there
    split at there
    · cases there
    · exact h.task call' there
  | _ => exact ⟨h.started, h.task⟩

end Core

namespace PipelineState

theorem hasTask_step (regular : s.Regular env) (step : s.step env input = some s')
    (named : id ≠ "") (h : (s.core .empty).HasTask c id) : (s'.core .empty).HasTask c id := by
  have moves := step_moves regular.ok step (keeps_none s input)
  generalize s'.core .empty = k' at moves ⊢
  induction moves with
  | refl => exact h
  | tail _ m ih => exact ih.move m named

/-- After a step that does something about tasks for a call, the call has the task. -/
theorem hasTask_of_gives {u : TransitionSystem.Step PipelineState PipelineInput}
    (before : (Pipeline.machine env).Run h u.pre) (step : u.pre.step env u.input = some u.post)
    (gives : HandsOut u c id ∨ Creates u c id) :
    id ≠ "" ∧ (u.post.core .empty).HasTask c id := by
  have regular' := regular_of_run (before.next step)
  obtain ⟨named, call, stored, own⟩ := named_of_step (regular_of_run before) regular' step gives
  refine ⟨named, regular'.ok.orderly.numbered.call stored, fun call' there => ?_⟩
  obtain rfl := Option.some.inj (stored.symm.trans there)
  exact own

/-- A call that has a task gets no other one. -/
theorem not_creates {u : TransitionSystem.Step PipelineState PipelineInput}
    (regular : u.pre.Regular env) (step : u.pre.step env u.input = some u.post) (named : id ≠ "")
    (has : (u.pre.core .empty).HasTask c id) : ¬ Creates u c id' := by
  rintro ⟨concerns, new, t, held⟩
  rcases (step_effect regular step).tasks.found held with ⟨old, before, -⟩ | ⟨-, -, entered⟩
  · rw [new] at before
    cases before
  · obtain ⟨c', call, concerns', gets⟩ := entered.maker.gets
    obtain rfl := concerns.unique concerns'
    exact named ((has.task call gets.before).symm.trans gets.without)

end PipelineState

/-! ## Runs -/

/-- Handles go to those who asked for them, and are the same for one call; what makes a task is
the first of them. -/
structure OneTask (h : List (TransitionSystem.Step PipelineState PipelineInput)) : Prop where
  capable : ∀ u ∈ h, ∀ rid r req v, .answered rid r ∈ u.post.log → .answered rid r ∉ u.pre.log →
    .request rid req ∈ u.post.log → req.method = "tools/call" →
    r.body.field? "taskId" = some v →
      (∃ c r₀ clk, u.input = .upstream c r₀ clk ∧ r.body = r₀.body) ∨
      req.caps.tasks = true ∧ ∃ c id, v = .str id ∧ HandsOut u c id
  same : ∀ u ∈ h, ∀ u' ∈ h, ∀ c id id', HandsOut u c id ∨ Creates u c id →
    HandsOut u' c id' ∨ Creates u' c id' → id = id'
  made : ∀ u ∈ h, ∀ id t, u.pre.tasks.byId.lookup id = none →
    u.post.tasks.byId.lookup id = some t → ∃ c, Creates u c id
  once : ∀ later u earlier, h = later ++ u :: earlier → ∀ c id, Creates u c id →
    ∀ u' ∈ later, ∀ id', ¬ Creates u' c id'

namespace PipelineState

theorem capable_of_step (run : (Pipeline.machine env).Run h s) {r : Response}
    (step : s.step env input = some s') (answered : .answered rid r ∈ s'.log)
    (new : .answered rid r ∉ s.log) (asked : .request rid req ∈ s'.log)
    (method : req.method = "tools/call") {v : Json} (names : r.body.field? "taskId" = some v) :
    (∃ c r₀ clk, input = .upstream c r₀ clk ∧ r.body = r₀.body) ∨
      req.caps.tasks = true ∧ ∃ c id, v = .str id ∧ HandsOut ⟨s, input, s'⟩ c id := by
  have effect := step_effect (regular_of_run run) step
  have reply := ((effect.answers.log.mem answered).resolve_right new rid r rfl).reply
  refine (reply.names (regular_of_run (run.next step)) asked method names).imp_right ?_
  rintro ⟨capable, c, call, t, concerns, stored, own, found, body⟩
  have handle : handleOf r.body = some t.taskId := body ▸ handleOf_createTaskResult t
  rw [body, (field?_createTaskResult t).1] at names
  exact ⟨capable, c, t.taskId, (Option.some.inj names).symm, concerns, rid, r, answered, new,
    handle⟩

/-- What a step gives out for a call that has a task is this task. -/
theorem eq_of_gives {u : TransitionSystem.Step PipelineState PipelineInput}
    (before : (Pipeline.machine env).Run h u.pre) (step : u.pre.step env u.input = some u.post)
    (gives : HandsOut u c id ∨ Creates u c id) (has : (u.post.core .empty).HasTask c id') :
    id = id' := by
  obtain ⟨-, call, stored, own⟩ := named_of_step (regular_of_run before)
    (regular_of_run (before.next step)) step gives
  exact own.symm.trans (has.task call stored)

/-- A call that had something to do with a task in a run has it ever after. -/
theorem hasTask_of_run (run : (Pipeline.machine env).Run h s)
    {u : TransitionSystem.Step PipelineState PipelineInput} (member : u ∈ h)
    (gives : HandsOut u c id ∨ Creates u c id) : id ≠ "" ∧ (s.core .empty).HasTask c id := by
  induction run with
  | start first => cases member
  | @next h s s' input before step ih =>
    rcases List.mem_cons.mp member with rfl | older
    · exact hasTask_of_gives (u := ⟨s, input, s'⟩) before step gives
    · obtain ⟨named, has⟩ := ih older
      exact ⟨named, hasTask_step (regular_of_run before) step named has⟩

/-- All that the steps of a run give out for one call is one task. -/
theorem same_of_run (run : (Pipeline.machine env).Run h s) : ∀ u ∈ h, ∀ u' ∈ h, ∀ c id id',
    HandsOut u c id ∨ Creates u c id → HandsOut u' c id' ∨ Creates u' c id' → id = id' := by
  induction run with
  | start first =>
    intro u member
    cases member
  | @next h s s' input before step ih =>
    have all : ∀ {u c id}, u ∈ (⟨s, input, s'⟩ :: h : List _) → HandsOut u c id ∨ Creates u c id →
        id ≠ "" ∧ (s'.core .empty).HasTask c id :=
      hasTask_of_run (before.next step)
    intro u member u' member' c id id' gives gives'
    -- one of the two steps is the last one, or both are older
    rcases List.mem_cons.mp member with rfl | older
    · exact eq_of_gives (u := ⟨s, input, s'⟩) before step gives (all member' gives').2
    rcases List.mem_cons.mp member' with rfl | older'
    · exact (eq_of_gives (u := ⟨s, input, s'⟩) before step gives' (all member gives).2).symm
    · exact ih u older u' older' c id id' gives gives'

end PipelineState

/-- Whoever does not understand tasks gets no handle from the gateway, all handles for one call
are those of one task, which is made once, and all tables agree about it. -/
theorem one_task_per_call (run : (Pipeline.machine env).Run h s) : OneTask h ∧ s.Agrees := by
  refine ⟨⟨?_, ?_, ?_, ?_⟩, (PipelineState.regular_of_run run).agrees⟩
  · intro u member rid r req v answered new asked method names
    obtain ⟨earlier, before, step, -⟩ := run.of_mem member
    exact PipelineState.capable_of_step before step answered new asked method names
  · exact PipelineState.same_of_run run
  · intro u member id t new held
    obtain ⟨earlier, before, step, -⟩ := run.of_mem member
    have regular := PipelineState.regular_of_run before
    -- a task that is new was entered for a call
    rcases (PipelineState.step_effect regular step).tasks.found held with
      ⟨old, stored, -⟩ | ⟨-, -, entered⟩
    · rw [new] at stored
      cases stored
    · obtain ⟨c, call, concerns, gets⟩ := entered.maker.gets
      exact ⟨c, concerns, new, t, held⟩
  · rintro later u earlier rfl c id creates u' member id'
    obtain ⟨after, between, rfl⟩ := List.append_of_mem member
    rw [List.append_assoc, List.cons_append] at run
    obtain ⟨-, before, step⟩ := run.of_append
    have inside : u ∈ between ++ u :: earlier := by simp
    -- the call has its task from then on, and gets no second one
    obtain ⟨named, has⟩ := PipelineState.hasTask_of_run before inside (.inr creates)
    exact PipelineState.not_creates (PipelineState.regular_of_run before) step named has

open PipelineExample HandlesExample in
/-- A call is promoted, and then a duplicate of it gets the same handle. -/
theorem one_task_per_call_duplicate : ∃ h s, (Pipeline.machine (gateway {})).Run h s ∧
    s.log.any (isHandle 0 "tsk_ffffff") = true ∧ s.log.any (isHandle 1 "tsk_ffffff") = true ∧
    OneTask h ∧ s.Agrees := by
  obtain ⟨h, s, run, -, reached⟩ := TransitionSystem.exists_run
    (M := Pipeline.machine (gateway {})) (polled.take 5 ++ [.handle (callBy "ann" "b__t") clk])
    (fun _ _ => true)
    (fun s => s.log.any (isHandle 0 "tsk_ffffff") && s.log.any (isHandle 1 "tsk_ffffff"))
    (start_init _) (by decide +kernel)
  obtain ⟨first, second⟩ := Bool.and_eq_true _ _ |>.mp reached
  exact ⟨h, s, run, first, second, one_task_per_call run⟩

end Perfacet
