import Perfacet.Pipeline.Effects

/-!
# Outcomes of tasks

A task is working until it is completed, failed or cancelled, and should then stay as it is
until it expires. The store accepts any write, so this is up to those who write: a call writes
while it is waited for, and only then, but its owner and the shutdown cancel a task whether it
is over or not.

## Main definitions

* `PipelineState.overwrites` — a step cancels a task that has its result

## Main results

* `outcomes_kept` — in runs without such steps, tasks that are over stay as they are
-/

namespace Perfacet

variable {env : Env} {c : ℕ} {call : Call}
  {h : List (TransitionSystem.Step PipelineState PipelineInput)} {s s' : PipelineState}
  {input : PipelineInput} {id : String} {status : TaskStatus} {body : Json}

/-- A task has its result: it was completed, or it failed. -/
def TaskStatus.hasResult : TaskStatus → Bool
  | .completed => true
  | .failed => true
  | _ => false

/-- What is over stays as it is until it has expired, and what is new is working. -/
structure KeepsOutcomes (reads : UInt64 → Prop) (a b : MemTaskStore) : Prop where
  old : ∀ id t, a.byId.lookup id = some t → t.status ≠ .working →
    (∃ t', b.byId.lookup id = some t' ∧ t'.status = t.status ∧
        t'.resultOrError = t.resultOrError) ∨
      (b.byId.lookup id = none ∧ ∃ now, reads now ∧ MemTaskStore.expired now t = true)
  new : ∀ id t', a.byId.lookup id = none → b.byId.lookup id = some t' → t'.status = .working

namespace PipelineState

/-- The owner cancels a task that has its result, or the gateway is told to stop while the task
of a live call has its result. -/
def overwrites (s : PipelineState) : PipelineInput → Bool
  | .handle req clk => decide (req.method = "tasks/cancel") &&
      ((s.tasks.sweep (clk 3)).byId.lookup req.name).any fun t =>
        decide (t.agentId = req.who.agentId) && t.status.hasResult
  | .requestStop _ _ clk _ => s.calls.entries.any fun e =>
      ((s.tasks.sweep (clk e.2.inflightId 2)).byId.lookup e.2.taskId).any fun t =>
        t.status.hasResult
  | _ => false

/-! ## Who writes when -/

theorem Writes.ends (written : s.Writes s' input id status body) : s'.Over id := by
  cases written with
  | cancel ended => exact ended
  | settle ended => exact ended
  | stop ended => exact ended

/-- A task whose call is waited for is working, and a cancelled task has no result. -/
structure Awaited (s : PipelineState) : Prop where
  working : ∀ c call, s.calls.lookup c = some call → call.Waited →
    ∀ t, s.tasks.byId.lookup call.taskId = some t → t.status = .working
  blank : ∀ id t, s.tasks.byId.lookup id = some t → t.status = .cancelled → t.resultOrError = .null

namespace Awaited

theorem working_step (awaited : s.Awaited) (inherits : (s'.core .empty).Inherits s.calls s.tasks)
    (effect : Effect env s s' input) (stored : s'.calls.lookup c = some call)
    (waited : call.Waited) {t : Task} (found : s'.tasks.byId.lookup call.taskId = some t) :
    t.status = .working := by
  rcases effect.tasks.found found with ⟨old, before, -, ⟨same, -⟩ | written⟩ | ⟨-, -, entered⟩
  · obtain ⟨call', stored', task, -, waited'⟩ := inherits c call stored
      (Option.isSome_iff_exists.mpr ⟨old, before⟩)
    rw [same]
    exact awaited.working c call' stored' (waited' waited) old (task ▸ before)
  · rcases written.ends c call stored rfl with told | rests
    · exact Bool.noConfusion (told.symm.trans waited.runs)
    · exact absurd waited.waits (rests ▸ Nat.lt_irrefl 0)
  · exact entered.status

theorem blank_step (awaited : s.Awaited) (effect : Effect env s s' input) {t : Task}
    (found : s'.tasks.byId.lookup id = some t) (cancelled : t.status = .cancelled) :
    t.resultOrError = .null := by
  rcases effect.tasks.found found with
    ⟨old, before, -, ⟨status, result⟩ | written⟩ | ⟨-, -, entered⟩
  · exact result.trans (awaited.blank id old before (status.symm.trans cancelled))
  · generalize t.resultOrError = body, t.status = status at written cancelled ⊢
    cases written with
    | cancel => rfl
    | settle ended stored runs waits worked kept => exact absurd cancelled kept
    | stop => rfl
  · exact entered.resultOrError

end Awaited

theorem awaited_of_run (run : (Pipeline.machine env).Run h s) : s.Awaited := by
  induction run with
  | start first =>
    obtain ⟨health, index, grants, rfl⟩ := first
    constructor
    · intro c call stored
      simp [initial, AList.lookup_empty] at stored
    · intro id t stored
      simp [initial, MemTaskStore.make, AList.lookup_empty] at stored
  | next before step ih =>
    have regular := regular_of_run before
    have effect := step_effect regular step
    have inherits := inherits_step regular step
    exact ⟨fun c call stored waited t => ih.working_step inherits effect stored waited,
      fun id t => ih.blank_step effect⟩

/-! ## Outcomes are kept -/

/-- What is written to a task that is over is what it says already, unless it has its result. -/
theorem Writes.kept (awaited : s.Awaited)
    (careful : s.overwrites input = false) (written : s.Writes s' input id status body)
    {t : Task} (found : s.tasks.byId.lookup id = some t) (ended : t.status ≠ .working) :
    status = t.status ∧ body = t.resultOrError := by
  have cancelled : t.status.hasResult = false →
      TaskStatus.cancelled = t.status ∧ Json.null = t.resultOrError := by
    intro none
    have same : t.status = .cancelled := by
      cases status : t.status with
      | cancelled => rfl
      | working => exact absurd status ended
      | completed => rw [status] at none; cases none
      | failed => rw [status] at none; cases none
    exact ⟨same.symm, (awaited.blank id t found same).symm⟩
  cases written with
  | cancel _ method stored own =>
    refine cancelled ?_
    simp only [overwrites, method, decide_true, Bool.true_and, stored, Option.any_some, own]
      at careful
    rw [MemTaskStore.lookup_sweep, found] at stored
    exact Option.some.inj (Option.filter_eq_some_iff.mp stored).1 ▸ careful
  | settle _ stored runs waits =>
    exact absurd (awaited.working _ _ stored ⟨runs, waits⟩ t found) ended
  | stop _ stored kept =>
    refine cancelled ?_
    have none := List.any_eq_false.mp careful _ (UnorderedMap.mem_entries_iff.mpr stored)
    simp only [kept, Option.any_some, Bool.not_eq_true] at none
    rw [MemTaskStore.lookup_sweep, found] at kept
    exact Option.some.inj (Option.filter_eq_some_iff.mp kept).1 ▸ none

theorem keepsOutcomes_step (awaited : s.Awaited)
    (careful : s.overwrites input = false) (effect : Effect env s s' input) :
    KeepsOutcomes input.Reads s.tasks s'.tasks where
  old := by
    intro id t found ended
    cases left : s'.tasks.byId.lookup id with
    | none => exact .inr ⟨rfl, effect.tasks.lost found left⟩
    | some t' =>
      refine .inl ⟨t', rfl, ?_⟩
      rcases effect.tasks.found left with ⟨old, before, -, same | written⟩ | ⟨new, -⟩
      · obtain rfl := Option.some.inj (found.symm.trans before)
        exact same
      · exact written.kept awaited careful found ended
      · rw [found] at new
        cases new
  new := by
    intro id t' missing found
    rcases effect.tasks.found found with ⟨old, before, -⟩ | ⟨-, -, entered⟩
    · rw [missing] at before
      cases before
    · exact entered.status

theorem keepsOutcomes_of_mem (run : (Pipeline.machine env).Run h s)
    {t : TransitionSystem.Step PipelineState PipelineInput} (member : t ∈ h)
    (careful : t.pre.overwrites t.input = false) :
    KeepsOutcomes t.input.Reads t.pre.tasks t.post.tasks := by
  obtain ⟨earlier, before, step, -⟩ := run.of_mem member
  exact keepsOutcomes_step (awaited_of_run before) careful
    (step_effect (regular_of_run before) step)

end PipelineState

/-- In a run in which nobody cancels a task that has its result, every step keeps outcomes, and a
task that is over after some step is the same whenever it is found later. -/
theorem outcomes_kept (run : (Pipeline.machine env).Run h s)
    (careful : ∀ t ∈ h, t.pre.overwrites t.input = false) :
    (∀ t ∈ h, KeepsOutcomes t.input.Reads t.pre.tasks t.post.tasks) ∧
      ∀ later t earlier, h = later ++ t :: earlier → ∀ id task,
        t.post.tasks.byId.lookup id = some task → task.status ≠ .working → ∀ task',
        s.tasks.byId.lookup id = some task' →
        task'.status = task.status ∧ task'.resultOrError = task.resultOrError := by
  refine ⟨fun t member => PipelineState.keepsOutcomes_of_mem run member (careful t member), ?_⟩
  rintro later t earlier rfl id task found ended
  have drawn := (PipelineState.regular_of_run (run.of_append).1).drawn
  -- from the step on the task keeps what it has, and the ids that are drawn are later ones
  refine (run.since (C := fun u => u.pre.overwrites u.input = false)
    (I := fun _ σ => t.post.draws ≤ σ.draws ∧ ∀ task', σ.tasks.byId.lookup id = some task' →
      task'.status = task.status ∧ task'.resultOrError = task.resultOrError)
    (fun u member => careful u (List.mem_append_left _ member)) ?_ ?_).2
  · refine ⟨le_rfl, fun task' found' => ?_⟩
    obtain rfl := Option.some.inj (found.symm.trans found')
    exact ⟨rfl, rfl⟩
  · rintro later u before step kept ⟨drawnBefore, same⟩
    have regular := PipelineState.regular_of_run before
    have effect := PipelineState.step_effect regular step
    refine ⟨drawnBefore.trans (PipelineState.draws_step regular.ok step), fun task' found' => ?_⟩
    rcases effect.tasks.found found' with ⟨old, stored, -⟩ | ⟨-, named, entered⟩
    · obtain ⟨status, result⟩ := same old stored
      have keeps :=
        PipelineState.keepsOutcomes_step (PipelineState.awaited_of_run before) kept effect
      rcases keeps.old id old stored (status ▸ ended) with ⟨t', left, status', result'⟩ | ⟨gone, -⟩
      · obtain rfl := Option.some.inj (left.symm.trans found')
        exact ⟨status'.trans status, result'.trans result⟩
      · rw [found'] at gone
        cases gone
    · -- an id that was drawn before is not drawn again
      obtain ⟨n, later, -, fresh⟩ := entered.drawn
      obtain ⟨-, m, earlier, old⟩ := drawn id task found
      have equal : n = m :=
        env.distinct 8 ((String.append_right_inj _).mp (fresh.symm.trans (named.trans old)))
      omega

namespace OutcomesExample

open PipelineExample

/-- A call that takes long gets a task, which is completed. -/
def completed : List PipelineInput :=
  forwarded { PipelineExample.call "b__t" 1 with caps := ⟨true⟩ } ++
    [.promote 0 clk, .run clk, .upstream 0 (.ofBody .object) clk]

/-- The owner of the task cancels it. -/
def cancel : PipelineInput :=
  .handle { PipelineExample.call "tsk_ffffff" 0 with method := "tasks/cancel" } clk

/-- The task has a given status. -/
def hasStatus (s : PipelineState) (status : TaskStatus) : Bool :=
  (s.tasks.byId.lookup "tsk_ffffff").any fun t => decide (t.status = status)

end OutcomesExample

open PipelineExample OutcomesExample

/-- A call whose task is completed. -/
theorem outcomes_kept_completed : ∃ h s, (Pipeline.machine (gateway {})).Run h s ∧
    hasStatus s .completed = true ∧
    (∀ t ∈ h, KeepsOutcomes t.input.Reads t.pre.tasks t.post.tasks) ∧
      ∀ later t earlier, h = later ++ t :: earlier → ∀ id task,
        t.post.tasks.byId.lookup id = some task → task.status ≠ .working → ∀ task',
        s.tasks.byId.lookup id = some task' →
        task'.status = task.status ∧ task'.resultOrError = task.resultOrError := by
  obtain ⟨h, s, run, careful, reached⟩ := TransitionSystem.exists_run
    (M := Pipeline.machine (gateway {})) completed (fun s input => !s.overwrites input)
    (fun s => hasStatus s .completed) (start_init _) (by decide +kernel)
  exact ⟨h, s, run, reached, outcomes_kept run fun t member => by simpa using careful t member⟩

/-- A completed task is cancelled by its owner, and its result is gone. -/
theorem result_overwritten : ∃ h s, (Pipeline.machine (gateway {})).Run h s ∧
    ∃ t ∈ h, ¬ KeepsOutcomes t.input.Reads t.pre.tasks t.post.tasks := by
  obtain ⟨h, s, run, -, reached⟩ := TransitionSystem.exists_run
    (M := Pipeline.machine (gateway {})) completed (fun _ _ => true)
    (fun s => hasStatus s .completed && (s.step (gateway {}) cancel).any fun s' =>
      hasStatus s' .cancelled) (start_init _) (by decide +kernel)
  obtain ⟨before, after⟩ := Bool.and_eq_true _ _ |>.mp reached
  obtain ⟨s', step, after⟩ := (Option.any_eq_true _ _).mp after
  obtain ⟨t, found, completed⟩ := (Option.any_eq_true _ _).mp before
  obtain ⟨t', found', cancelled⟩ := (Option.any_eq_true _ _).mp after
  refine ⟨_, s', run.next step, _, List.mem_cons_self, fun keeps => ?_⟩
  have status := of_decide_eq_true completed
  rcases keeps.old _ t found (by rw [status]; decide) with ⟨t'', left, same, -⟩ | ⟨gone, -⟩
  · obtain rfl := Option.some.inj (found'.symm.trans left)
    rw [of_decide_eq_true cancelled, status] at same
    cases same
  · rw [found'] at gone
    cases gone

end Perfacet
