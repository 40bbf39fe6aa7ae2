import Perfacet.Pipeline.Guarantees
import Perfacet.Pipeline.Works

/-!
# The limits in runs of the pipeline

The governor belongs to the pipeline, which asks it for a slot before a call starts and gives the
slot back when the call is destroyed. So the limits of the governor bound how many calls are alive.

## Main definitions

* `PipelineState.Bounded` — the live calls are no more than a configuration allows

## Main results

* `PipelineState.limited_of_run` — no more is in use than may ever be granted
* `Pipeline.bounded_of_run` — the calls of a tool or a principal become more only below the limit
  that is in force
-/

namespace Perfacet

variable {env : Env} {s s' : PipelineState}

namespace PipelineState

/-- Every step grants slots only below the limits that are in force, or it lists tools. -/
theorem grants_step (ok : (s.core .empty).Ok env) {input : PipelineInput}
    (step : s.step env input = some s') : s.gov.Grants s'.gov ∨
      ∃ backend tools, s'.gov = s.gov.onToolsListed backend tools := by
  cases lists : input.lists with
  | true =>
    obtain ⟨index, backend, tools, rfl⟩ := eq_of_lists lists step
    exact .inr ⟨backend, tools, rfl⟩
  | false =>
    refine .inl ?_
    cases asks : input.asks with
    | false => exact (works_step ok.queues asks lists step).gov
    | true =>
      cases input with
      | handle req clk => exact (works_of_handle step).gov
      | _ => cases asks

/-! ## Runs -/

variable {h : List (TransitionSystem.Step PipelineState PipelineInput)} {ts a : String}

theorem limited_of_run (run : (Pipeline.machine env).Run h s) : s.gov.Limited env.cfg := by
  induction run with
  | start first =>
    obtain ⟨health, index, grants, rfl⟩ := first
    exact .initial env.cfg
  | next before step ih =>
    rcases grants_step (ok_of_run before) step with granted | ⟨backend, tools, listed⟩
    · exact ih.grants granted
    · rw [listed]
      exact ih.onToolsListed backend tools

/-- How many calls of a tool are alive. -/
def toolCalls (s : PipelineState) (toolStr : String) : ℕ :=
  s.callsWhere fun call => decide (call.key.str = toolStr)

/-- How many calls of a principal are alive. -/
def agentCalls (s : PipelineState) (agent : String) : ℕ :=
  s.callsWhere fun call => decide (call.req.who.agentId = agent)

theorem callsWhere_congr {p q : Call → Bool}
    (same : ∀ c call, s.calls.lookup c = some call → p call = q call) :
    s.callsWhere p = s.callsWhere q := by
  refine le_antisymm ?_ ?_ <;> refine UnorderedMap.total_mono fun c call stored => ?_
  · rw [same c call stored]
  · rw [same c call stored]

/-- A live call holds a slot of its tool. -/
theorem toolHeld_eq (ok : (s.core .empty).Ok env) (ts : String) :
    s.gov.toolHeld ts = s.toolCalls ts := by
  rw [(conserved_of_ok ok).tool ts]
  refine congrArg Nat.cast (callsWhere_congr fun c call stored => ?_)
  rw [(ok.orderly.underway c call stored).permit]

/-- And one of its principal. -/
theorem agentHeld_eq (ok : (s.core .empty).Ok env) (a : String) :
    s.gov.agentHeld a = s.agentCalls a := by
  rw [(conserved_of_ok ok).agent a]
  refine congrArg Nat.cast (callsWhere_congr fun c call stored => ?_)
  rw [(ok.orderly.underway c call stored).permit]

/-- The live calls are no more than a configuration allows. -/
structure Bounded (cfg : YamlConfig) (s : PipelineState) : Prop where
  tool : ∀ ts, (s.toolCalls ts : ℤ) ≤ max 0 (cfg.ceiling ts)
  agent : ∀ a, (s.agentCalls a : ℤ) ≤ max 0 cfg.perPrincipalConcurrency

theorem bounded_of_limited (ok : (s.core .empty).Ok env) (limited : s.gov.Limited env.cfg) :
    s.Bounded env.cfg where
  tool := fun ts => by
    rw [← toolHeld_eq ok]
    exact limited.tool ts
  agent := fun a => by
    rw [← agentHeld_eq ok]
    exact limited.agent a

end PipelineState

namespace Pipeline

variable {h : List (TransitionSystem.Step PipelineState PipelineInput)}

/-- In a step the live calls become more only up to the limits that are in force. -/
structure Admits (t : TransitionSystem.Step PipelineState PipelineInput) : Prop where
  tool : ∀ ts, t.pre.toolCalls ts < t.post.toolCalls ts →
    (t.post.toolCalls ts : ℤ) ≤ t.pre.gov.toolLimit ts
  agent : ∀ a, t.pre.agentCalls a < t.post.agentCalls a →
    (t.post.agentCalls a : ℤ) ≤ t.pre.gov.cfg.perPrincipalConcurrency

theorem admits_of_step {t : TransitionSystem.Step PipelineState PipelineInput}
    (before : (t.pre.core .empty).Ok env) (after : (t.post.core .empty).Ok env)
    (step : t.pre.step env t.input = some t.post) : Admits t := by
  have tools (ts : String) : t.pre.gov.toolHeld ts = t.pre.toolCalls ts ∧
      t.post.gov.toolHeld ts = t.post.toolCalls ts :=
    ⟨PipelineState.toolHeld_eq before ts, PipelineState.toolHeld_eq after ts⟩
  have agents (a : String) : t.pre.gov.agentHeld a = t.pre.agentCalls a ∧
      t.post.gov.agentHeld a = t.post.agentCalls a :=
    ⟨PipelineState.agentHeld_eq before a, PipelineState.agentHeld_eq after a⟩
  rcases PipelineState.grants_step before step with granted | ⟨backend, names, listed⟩
  · refine ⟨fun ts more => ?_, fun a more => ?_⟩
    · have bound := granted.tool ts
      have := tools ts
      omega
    · have bound := granted.agent a
      have := agents a
      omega
  · -- listing tools starts no call
    refine ⟨fun ts more => ?_, fun a more => ?_⟩
    · have same : t.post.gov.toolHeld ts = t.pre.gov.toolHeld ts := by rw [listed]; rfl
      have := tools ts
      omega
    · have same : t.post.gov.agentHeld a = t.pre.gov.agentHeld a := by rw [listed]; rfl
      have := agents a
      omega

/-- In every run the calls of a tool or of a principal become more only below the limit that is in
force, and are never more than the configuration allows, whatever tools are listed. -/
theorem bounded_of_run (run : (machine env).Run h s) :
    (∀ t ∈ h, Admits t) ∧ s.Bounded env.cfg := by
  refine ⟨fun t member => ?_, ?_⟩
  · obtain ⟨earlier, before, step, -⟩ := run.of_mem member
    exact admits_of_step (PipelineState.ok_of_run before)
      (PipelineState.ok_of_run (before.next step)) step
  · exact PipelineState.bounded_of_limited (PipelineState.ok_of_run run)
      (PipelineState.limited_of_run run)

open PipelineExample in
/-- A second call waits, as its principal may have only one at a time. -/
theorem bounded_of_run_waiting : ∃ h s,
    (machine (gateway { perPrincipalConcurrency := 1 })).Run h s ∧ s.agentCalls "ann" = 1 ∧
      (s.gov.queue "b__t").length = 1 ∧ (∀ t ∈ h, Admits t) ∧
        s.Bounded { perPrincipalConcurrency := 1 } := by
  obtain ⟨h, s, run, -, reached⟩ := TransitionSystem.exists_run
    (M := machine (gateway { perPrincipalConcurrency := 1 }))
    (forwarded (call "b__t" 1) ++ [.handle (call "b__t" 2) clk])
    (fun _ _ => true) (fun s => s.agentCalls "ann" = 1 && (s.gov.queue "b__t").length = 1)
    (start_init _) (by decide +kernel)
  simp only [Bool.and_eq_true, decide_eq_true_eq] at reached
  exact ⟨h, s, run, reached.1, reached.2, bounded_of_run run⟩

end Pipeline

end Perfacet
