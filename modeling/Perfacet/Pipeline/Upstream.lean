import Perfacet.Backend.HttpMcpBackend
import Perfacet.Pipeline.Simulation.Steps

/-!
# What goes upstream in a run

Whatever a backend is called with was made by `Call::makeBackendCall` of one request that was
received and allowed. So what the upstream gets is what the two stages make of that request.

## Main results

* `traced_of_run` — where the calls of backends come from
* `upstream_sanitised_iff` — when what goes upstream is sanitised
-/

namespace Perfacet

variable {env : Env} {P : Promise} {h : List (TransitionSystem.Step PipelineState PipelineInput)}
  {k k' : Core} {s : PipelineState} {c rid : ℕ} {req : Request} {bc : BackendCall}

/-- `bc` was made for call `c`, of the request that the call was started for. -/
def Traced (env : Env) (log : List PipelineEvent) (c : ℕ) (bc : BackendCall) : Prop :=
  ∃ call, bc = PipelineState.makeBackendCall call ∧
    (∃ confirmed twin, .started c call.onDone.rid confirmed twin ∈ log) ∧
    Admitted env log call.onDone.rid call.req call.key

theorem Traced.mono {log log' : List PipelineEvent} (h : Traced env log c bc)
    (longer : ∀ e ∈ log, e ∈ log') : Traced env log' c bc := by
  obtain ⟨call, made, ⟨confirmed, twin, started⟩, admitted⟩ := h
  exact ⟨call, made, ⟨confirmed, twin, longer _ started⟩, admitted.mono longer⟩

namespace Core

/-- Every call of a backend is traced. -/
def AllTraced (env : Env) (k : Core) : Prop :=
  ∀ c n decided backend bc circuitOpen,
    .backendCall c n decided backend bc circuitOpen ∈ k.log → Traced env k.log c bc

theorem AllTraced.move (m : k.Move env P k') (ok : k.Ok env) (h : k.AllTraced env) :
    k'.AllTraced env := by
  have longer : ∀ e ∈ k.log, e ∈ k'.log := (PipelineState.log_moves (.single m)).subset
  -- What was sent earlier stays traced; a move has to account for what it sends.
  suffices new : ∀ c n decided backend bc circuitOpen,
      .backendCall c n decided backend bc circuitOpen ∈ k'.log →
      .backendCall c n decided backend bc circuitOpen ∉ k.log → Traced env k'.log c bc by
    intro c n decided backend bc circuitOpen member
    by_cases old : .backendCall c n decided backend bc circuitOpen ∈ k.log
    · exact (h _ _ _ _ _ _ old).mono longer
    · exact new _ _ _ _ _ _ member old
  intro c n decided backend bc circuitOpen member fresh
  cases m with
  | launch w summary now t0 delay upTrace call holds built present =>
    simp only [launched, List.cons_append, List.nil_append, List.mem_cons, fresh,
      PipelineEvent.backendCall.injEq, reduceCtorEq, or_false] at member
    obtain ⟨rfl, -, -, -, rfl, -⟩ := member
    have underway := ok.orderly.underway_launched holds (env.randomHex 16 k.draws) t0
    rw [← built] at underway
    refine Traced.mono ⟨call, rfl, underway.started, underway.admitted⟩ fun e old => ?_
    exact List.mem_cons_of_mem _ old
  | act c' call call' events frames stored act =>
    cases act with
    | retry r circuitOpen' shield now delay upTrace free waits again present shielded =>
      simp only [List.cons_append, List.nil_append, List.mem_cons, fresh,
        PipelineEvent.backendCall.injEq, reduceCtorEq, or_false] at member
      obtain ⟨rfl, -, -, -, rfl, -⟩ := member
      have underway := ok.orderly.underway _ _ stored
      exact Traced.mono ⟨call, rfl, underway.started, underway.admitted⟩ longer
    | respond | cancelled | outcome => simp [fresh] at member
    | _ => exact absurd member fresh
  | receive | answer | throw | turnAway | reject | refuse | stop | absentOutcome | destroy
  | launchAbsent =>
    simp [launched, destroyed, fresh] at member
  | _ => exact absurd member fresh

end Core

namespace PipelineState

/-- In every state of every run the calls of backends are traced. -/
theorem traced_of_run (run : (Pipeline.machine env).Run h s) :
    (s.core .empty).AllTraced env :=
  core_of_any_run run (fun _ _ _ _ _ _ member => by cases member) fun _ _ ok m h => h.move m ok

end PipelineState

/-- What a backend is called with was made of the request that its call was started for. -/
theorem made_of_run (run : (Pipeline.machine env).Run h s) {n : ℕ} {decided : Option UInt64}
    {backend : String} {circuitOpen confirmed twin : Bool}
    (sent : .backendCall c n decided backend bc circuitOpen ∈ s.log)
    (started : .started c rid confirmed twin ∈ s.log) (received : .request rid req ∈ s.log) :
    ∃ call, bc = PipelineState.makeBackendCall call ∧ call.req.params = req.params ∧
      call.req.metaJson = req.metaJson := by
  have lawful : Lawful (PipelineEvent.Law env) s.log := (PipelineState.ok_of_run run).orderly.lawful
  obtain ⟨call, made, ⟨confirmed', twin', started'⟩, admitted⟩ :=
    PipelineState.traced_of_run run _ _ _ _ _ _ sent
  obtain ⟨trace, received'⟩ := admitted.received
  obtain rfl := started_unique lawful started' started
  obtain rfl := request_unique lawful received' received
  exact ⟨call, made, rfl, rfl⟩

/-- What a backend is sent for a request is sanitised if and only if the request declares no
tasks. -/
theorem upstream_sanitised_iff (run : (Pipeline.machine env).Run h s) {n : ℕ}
    {decided : Option UInt64} {backend : String} {circuitOpen confirmed twin : Bool}
    (sent : .backendCall c n decided backend bc circuitOpen ∈ s.log)
    (started : .started c rid confirmed twin ∈ s.log) (received : .request rid req ∈ s.log) :
    HttpMcpBackend.Sanitised req (HttpMcpBackend.requestBody bc) ↔
      HttpMcp.declaresTasks req.metaJson = false := by
  obtain ⟨call, rfl, params, metas⟩ := made_of_run run sent started received
  exact HttpMcpBackend.sanitised_iff params metas

/-! ## An example -/

namespace UpstreamExample

/-- A call by a client with the given capabilities. -/
def call (caps : Json) : Request :=
  { PipelineExample.call "b__t" 1 with
    metaJson := .ofMembers [(kMetaProtocol, .str kProtocolVersion), (kMetaCaps, caps)] }

/-- The capabilities of a client that knows tasks. -/
def tasks : Json := .ofMembers [("extensions", .ofMembers [(kTasksExt, .object)])]

/-- The event is what the first call sends. -/
def isSent : PipelineEvent → Bool
  | .backendCall c .. => decide (c = 0)
  | _ => false

/-- The event is the start of the first call, for the first request. -/
def isStarted : PipelineEvent → Bool
  | .started c rid .. => decide (c = 0 ∧ rid = 0)
  | _ => false

/-- The event is the first request, of a client that knows tasks or does not. -/
def isRequest (declares : Bool) : PipelineEvent → Bool
  | .request rid req => decide (rid = 0) && decide (HttpMcp.declaresTasks req.metaJson = declares)
  | _ => false

/-- The first request has gone upstream. -/
def sent (declares : Bool) (s : PipelineState) : Bool :=
  s.log.any isSent && s.log.any isStarted && s.log.any (isRequest declares)

theorem sent_spec {declares : Bool} (reached : sent declares s = true) :
    ∃ n decided backend bc circuitOpen confirmed twin req,
      .backendCall 0 n decided backend bc circuitOpen ∈ s.log ∧
        .started 0 0 confirmed twin ∈ s.log ∧ .request 0 req ∈ s.log ∧
        HttpMcp.declaresTasks req.metaJson = declares := by
  simp only [sent, Bool.and_eq_true, List.any_eq_true] at reached
  obtain ⟨⟨⟨e₁, member₁, sent⟩, e₂, member₂, started⟩, e₃, member₃, received⟩ := reached
  cases e₁ with
  | backendCall c n decided backend bc circuitOpen =>
    obtain rfl : c = 0 := of_decide_eq_true sent
    cases e₂ with
    | started c rid confirmed twin =>
      obtain ⟨rfl, rfl⟩ : c = 0 ∧ rid = 0 := of_decide_eq_true started
      cases e₃ with
      | request rid req =>
        simp only [isRequest, Bool.and_eq_true, decide_eq_true_eq] at received
        obtain ⟨rfl, declares⟩ := received
        exact ⟨n, decided, backend, bc, circuitOpen, confirmed, twin, req, member₁, member₂,
          member₃, declares⟩
      | _ => cases received
    | _ => cases started
  | _ => cases sent

end UpstreamExample

open PipelineExample UpstreamExample in
/-- A client that knows no tasks. -/
theorem upstream_sanitised_iff_plain :
    ∃ h s c rid req n decided backend bc circuitOpen confirmed twin,
      (Pipeline.machine (gateway {})).Run h s ∧
      .backendCall c n decided backend bc circuitOpen ∈ s.log ∧
      .started c rid confirmed twin ∈ s.log ∧ .request rid req ∈ s.log ∧
      HttpMcpBackend.Sanitised req (HttpMcpBackend.requestBody bc) := by
  obtain ⟨h, s, run, -, reached⟩ := TransitionSystem.exists_run
    (M := Pipeline.machine (gateway {})) (forwarded (UpstreamExample.call .object))
    (fun _ _ => true) (sent false) (start_init _) (by decide +kernel)
  obtain ⟨n, decided, backend, bc, circuitOpen, confirmed, twin, req, calls, started, received,
    none⟩ := sent_spec reached
  exact ⟨h, s, 0, 0, req, n, decided, backend, bc, circuitOpen, confirmed, twin, run, calls,
    started, received, (upstream_sanitised_iff run calls started received).mpr none⟩

open PipelineExample UpstreamExample in
/-- The tasks extension that a client declares is declared to the upstream. -/
theorem tasks_declared_upstream : ∃ h s c rid req n decided backend bc circuitOpen confirmed twin,
    (Pipeline.machine (gateway {})).Run h s ∧
      .backendCall c n decided backend bc circuitOpen ∈ s.log ∧
      .started c rid confirmed twin ∈ s.log ∧ .request rid req ∈ s.log ∧
      ¬ HttpMcpBackend.Sanitised req (HttpMcpBackend.requestBody bc) := by
  obtain ⟨h, s, run, -, reached⟩ := TransitionSystem.exists_run
    (M := Pipeline.machine (gateway {})) (forwarded (UpstreamExample.call tasks))
    (fun _ _ => true) (sent true) (start_init _) (by decide +kernel)
  obtain ⟨n, decided, backend, bc, circuitOpen, confirmed, twin, req, calls, started, received,
    declares⟩ := sent_spec reached
  refine ⟨h, s, 0, 0, req, n, decided, backend, bc, circuitOpen, confirmed, twin, run, calls,
    started, received, ?_⟩
  obtain ⟨made, rfl, params, metas⟩ := made_of_run run calls started received
  rw [HttpMcpBackend.sanitised_iff params metas, declares]
  decide

end Perfacet
