import Perfacet.Pipeline.Guarantees

/-!
# Two rules that the code does not keep

No duplicate goes upstream without a confirm token, and nothing goes upstream while the
circuit is open. The code breaks both: the search for duplicates does not look into the
governor's queues, and a retry uses what the circuit said before the failure was reported to
it. The rules hold in the runs that avoid this.

## Main definitions

* `PipelineState.overlooks`, `PipelineState.trips` — a step takes the branch that goes wrong

## Main results

* `no_unconfirmed_twin` — runs whose duplicates are all seen keep the first rule
* `circuit_shields_iff` — a run keeps the second rule iff no retried failure opens the circuit
* `unconfirmed_twin`, `open_circuit_called` — runs that break them
-/

namespace Perfacet

variable {env : Env} {P : Promise} {h : List (TransitionSystem.Step PipelineState PipelineInput)}
  {k k' : Core} {s s' : PipelineState} {c : ℕ} {call : Call} {input : PipelineInput}

/-! ## Duplicates -/

namespace PipelineState

/-- An identical request waits, or an identical call is live; for a request with a confirm
token only those that wait without one count. -/
def collides (s : PipelineState) (i : Identity) (confirmed : Bool) : Bool :=
  if confirmed then decide (0 < LocalGovernor.waiting (Waiting.isLoose i) s.gov)
  else decide (0 < LocalGovernor.waiting (Waiting.isLike i) s.gov) || twin s.calls i

/-- The step lets a request pass to the governor that collides with one that is there. -/
def overlooks (env : Env) (s : PipelineState) : PipelineInput → Bool
  | .handle req _ =>
    match ToolKey.parse req.name, paramsHashOf req.params, confirmToken req with
    | some key, .ok hash, .ok confirm =>
      let hit := s.inflight.lookup req.who.agentId key hash
      -- the call goes to the governor
      decide (req.method = "tools/call" ∧
          RankPolicy.authorizeCall env.catalog req.who key = .allow ∧ s.stopping = false) &&
        (hit.isNone || tokenMatches confirm hit) &&
        s.collides (req.who.agentId, key, hash) (tokenMatches confirm hit)
    | _, _, _ => false
  | _ => false

/-- The promise that requests which reach the governor are unrivalled. -/
def seen : Promise := ⟨fun gov _ calls w => w.Unrivalled gov calls, fun _ => True⟩

theorem unrivalled_of_collides {w : Waiting} (apart : s.collides w.identity w.confirmed = false) :
    w.Unrivalled s.gov s.calls := by
  unfold collides at apart
  cases confirmed : w.confirmed with
  | true =>
    rw [confirmed, if_pos rfl] at apart
    refine ⟨fun ts w' member same => ⟨?_, confirmed⟩, by simp [confirmed]⟩
    by_contra loose
    refine of_decide_eq_false apart ((LocalGovernor.waiting_pos_iff _).mpr ⟨ts, w', member, ?_⟩)
    simpa [Waiting.isLoose, Waiting.isLike, same] using loose
  | false =>
    rw [confirmed, if_neg (by decide), Bool.or_eq_false_iff] at apart
    refine ⟨fun ts w' member same => ?_, fun _ => apart.2⟩
    refine absurd ((LocalGovernor.waiting_pos_iff _).mpr ⟨ts, w', member, ?_⟩)
      (of_decide_eq_false apart.1)
    simp [Waiting.isLike, same]

/-- A step that overlooks nothing keeps the promise. -/
theorem keeps_seen (sees : s.overlooks env input = false) : s.Keeps env seen input := by
  cases input with
  | handle req clk =>
    intro w reaches
    obtain ⟨confirm, token, matched⟩ := reaches.token
    have matched : w.confirmed =
        tokenMatches confirm (s.inflight.lookup req.who.agentId w.key w.hash) := matched
    have fresh : s.inflight.lookup req.who.agentId w.key w.hash = none ∨ w.confirmed = true :=
      reaches.fresh
    have identity : w.identity = (req.who.agentId, w.key, w.hash) := by
      rw [Waiting.identity, reaches.who]
    apply unrivalled_of_collides
    have free : s.stopping = false := reaches.running
    simpa [overlooks, reaches.parsed, reaches.hashed, token, reaches.method, reaches.allowed,
      free, fresh, ← matched, ← identity] using sees
  | upstream c r clk => exact fun _ _ _ => trivial
  | _ => trivial

end PipelineState

namespace Core

/-- No request without a confirm token has met, or can still meet, an identical call. -/
structure Distinct (k : Core) : Prop where
  unrivalled : k.Unrivalled
  untwinned : k.Untwinned

theorem Distinct.initial : (Core.initial env.cfg).Distinct where
  unrivalled := fun i some => by
    simp [Core.initial, awaiting, Hand.awaiting, LocalGovernor.waiting_initial] at some
  untwinned := fun c rid => by simp [Core.initial]

theorem Distinct.move (m : k.Move env PipelineState.seen k') (ok : k.Ok env)
    (h : k.Distinct) : k'.Distinct where
  unrivalled := h.unrivalled.move m (fun _ => id) ok.orderly.queued
  untwinned := h.untwinned.move m h.unrivalled

end Core

/-- If no step of a run overlooks an identical request, whoever starts without a confirm token
has no identical call beside it. -/
theorem no_unconfirmed_twin (run : (Pipeline.machine env).Run h s)
    (sees : ∀ t ∈ h, t.pre.overlooks env t.input = false) (c rid : ℕ) :
    .started c rid false true ∉ s.log := by
  have distinct := PipelineState.core_of_run run
    (fun t member => PipelineState.keeps_seen (sees t member)) Core.Distinct.initial
    fun _ _ ok m distinct => distinct.move m ok
  exact distinct.2.untwinned c rid

open PipelineExample in
/-- Two different calls are under way at the same time. -/
theorem no_unconfirmed_twin_two : ∃ h s, (Pipeline.machine (gateway {})).Run h s ∧
    s.nextCall = 2 ∧ .started 1 1 false true ∉ s.log := by
  obtain ⟨h, s, run, sees, reached⟩ := TransitionSystem.exists_run
    (M := Pipeline.machine (gateway {}))
    (forwarded (call "b__t" 1) ++ forwarded (call "b__t" 2))
    (fun s input => !s.overlooks (gateway {}) input) (fun s => decide (s.nextCall = 2))
    (start_init _) (by decide +kernel)
  exact ⟨h, s, run, of_decide_eq_true reached,
    no_unconfirmed_twin run (fun t member => by simpa using sees t member) 1 1⟩

/-- The event is the start of a call without a confirm token beside an identical one. -/
def PipelineEvent.isTwin : PipelineEvent → Bool
  | .started _ _ false true => true
  | _ => false

open PipelineExample in
/-- Both slots of a tool are taken, two identical requests queue, and both go upstream. -/
theorem unconfirmed_twin : ∃ h s c rid,
    (Pipeline.machine (gateway { perToolConcurrency := 2 })).Run h s ∧
      .started c rid false true ∈ s.log := by
  obtain ⟨h, s, run, -, reached⟩ := TransitionSystem.exists_run
    (M := Pipeline.machine (gateway { perToolConcurrency := 2 }))
    (forwarded (call "b__t" 1) ++ forwarded (call "b__t" 2) ++
      [.handle (call "b__t" 3) clk, .handle (call "b__t" 3) clk] ++
      finished 0 ++ [.run clk, .backendReturns, .run clk] ++ finished 1 ++ [.run clk])
    (fun _ _ => true) (fun s => s.log.any PipelineEvent.isTwin) (start_init _) (by decide +kernel)
  obtain ⟨e, member, twin⟩ := List.any_eq_true.mp reached
  unfold PipelineEvent.isTwin at twin
  split at twin
  · next c rid => exact ⟨h, s, c, rid, run, member⟩
  · cases twin

/-! ## The circuit -/

namespace PipelineState

/-- The step delivers a failure that opens the circuit, and the call tries again while it is
open. -/
def trips (env : Env) (s : PipelineState) : PipelineInput → Bool
  | .upstream c r clk =>
    match s.calls.lookup c with
    | some call =>
      let seen := s.circuit.isOpen call.key.backend (clk 0)
      -- it is tried again after a failure that opens the circuit
      retries env call r seen.2 (clk 2) && !decide (r.klass = .ok ∧ r.isError = false) &&
        decide (seen.1.Trips call.key.backend (clk 1)) &&
        decide (clk 4 < clk 1 + seen.1.cooldownMs)
    | none => false
  | _ => false

/-- The promise that no retry is made while the circuit is open. -/
def closed : Promise := ⟨fun _ _ _ _ => True, fun circuitOpen => circuitOpen = false⟩

/-- What the circuit says when a retry is made. -/
theorem isOpen_heard (s : PipelineState) (c : ℕ) {call : Call} {r : Response} {clk : Clock}
    (again : retries env call r (s.circuit.isOpen call.key.backend (clk 0)).2 (clk 2) = true) :
    ((s.heard c call.delivered r clk).circuit.isOpen call.key.backend (clk 4)).2 = true ↔
      ¬ (r.klass = .ok ∧ r.isError = false) ∧
        (s.circuit.isOpen call.key.backend (clk 0)).1.Trips call.key.backend (clk 1) ∧
        clk 4 < clk 1 + (s.circuit.isOpen call.key.backend (clk 0)).1.cooldownMs := by
  obtain ⟨-, -, -, shut, -⟩ := retries_spec again
  have heard := circuit_heard s c call.delivered r clk
  change _ = if _ then (s.circuit.isOpen call.key.backend (clk 0)).1.onSuccess call.key.backend
    else _ at heard
  rw [heard]
  split
  · next fine =>
    rw [CountCircuit.isOpen_of_ne (CountCircuit.st_onSuccess _ _)]
    simp [fine]
  · next failed =>
    exact (CountCircuit.isOpen_onFailure (CountCircuit.st_of_isOpen shut) _ _).trans
      (by simp only [failed, not_false_eq_true, true_and])

theorem keeps_closed (holds : s.trips env input = false) : s.Keeps env closed input := by
  cases input with
  | handle req clk => exact fun _ _ => trivial
  | upstream c r clk =>
    intro call stored again
    refine Bool.eq_false_iff.mpr fun circuitOpen => ?_
    obtain ⟨failed, trips, early⟩ := (isOpen_heard s c again).mp circuitOpen
    simp [PipelineState.trips, stored, again, trips, early] at holds
    exact failed holds
  | _ => trivial

/-- A step in which a retried failure opens the circuit calls the upstream all the same. -/
theorem called_of_trips (ok : (s.core .empty).Ok env) (step : s.step env input = some s')
    (trips : s.trips env input = true) :
    ∃ c n decided backend bc, .backendCall c n decided backend bc true ∈ s'.log := by
  obtain ⟨attempt, -⟩ := Option.filter_eq_some_iff.mp step
  cases input with
  | upstream c r clk =>
    cases stored : s.calls.lookup c with
    | none => simp [PipelineState.trips, stored] at trips
    | some call =>
      simp only [PipelineState.trips, stored, Bool.and_eq_true, Bool.not_eq_true',
        decide_eq_true_eq, decide_eq_false_iff_not] at trips
      obtain ⟨⟨⟨again, failed⟩, opens⟩, early⟩ := trips
      simp only [PipelineState.attempt, stored] at attempt
      split at attempt
      · next call' _ same =>
        cases same
        split at attempt
        · next waits =>
          have runs : call.delivered.cancelled = false := (retries_spec again).2.1
          have present := (ok.orderly.underway c call stored).present (.inl waits)
          obtain ⟨n, delay, upTrace, fired⟩ := core_fireAttempt (s.heard c call.delivered r clk) c
            { call.delivered with upSpanLive := false } present (some (clk 2)) (clk.after 3) .empty
          have retried := onUpstream_retry s c r clk runs again
          have same : s.onUpstream env c call.delivered r clk = s' := Option.some.inj attempt
          have logged : s'.log = .backendCall c (call.attempt + 1) (some (clk 2)) call.key.backend
              (makeBackendCall call)
              ((s.heard c call.delivered r clk).circuit.isOpen call.key.backend (clk 4)).2 ::
                ((s.heard c call.delivered r clk).core .empty).log := by
            rw [← same, retried]
            exact congrArg Core.log fired
          rw [(isOpen_heard s c again).mpr ⟨failed, opens, early⟩] at logged
          exact ⟨c, _, _, _, _, by rw [logged]; exact List.mem_cons_self⟩
        · cases attempt
      · cases attempt
  | _ => simp [PipelineState.trips] at trips

end PipelineState

namespace Core

/-- No backend was called while the circuit was open. -/
def Shielded (k : Core) : Prop :=
  ∀ c n decided backend bc, .backendCall c n decided backend bc true ∉ k.log

theorem Shielded.move (m : k.Move env P k') (shield : ∀ b, P.shielded b → b = false)
    (h : k.Shielded) : k'.Shielded := by
  intro c n decided backend bc member
  have old := h c n decided backend bc
  cases m with
  | act c' call call' events frames stored act =>
    cases act with
    | retry r circuitOpen shield' now delay upTrace free waits again present shielded =>
      rw [shield _ shielded] at member
      simp [old] at member
    | respond | cancelled | outcome => simp [old] at member
    | _ => exact old member
  | launch | launchAbsent => simp [launched, old] at member
  | receive | answer | throw | turnAway | reject | refuse | stop | absentOutcome | destroy =>
    simp [destroyed, old] at member
  | _ => exact old member

end Core

/-- No backend is ever called while its circuit is open, if and only if no step delivers a
failure that opens the circuit and is retried while the circuit stays open. -/
theorem circuit_shields_iff (run : (Pipeline.machine env).Run h s) :
    (∀ c n decided backend bc, .backendCall c n decided backend bc true ∉ s.log) ↔
      ∀ t ∈ h, t.pre.trips env t.input = false := by
  constructor
  · intro shielded t member
    obtain ⟨earlier, before, step, -⟩ := run.of_mem member
    -- an attempt at an open circuit is logged as one
    refine Bool.eq_false_iff.mpr fun trips => ?_
    obtain ⟨c, n, decided, backend, bc, called⟩ :=
      PipelineState.called_of_trips (PipelineState.ok_of_run before) step trips
    exact shielded c n decided backend bc ((PipelineState.log_of_mem run member).subset called)
  · intro holds
    have shielded := PipelineState.core_of_run (I := Core.Shielded) run
      (fun t member => PipelineState.keeps_closed (holds t member))
      (fun _ _ _ _ _ member => by cases member) fun _ _ _ m shielded => shielded.move m fun _ => id
    exact shielded.2

open PipelineExample in
/-- A failure that leaves the circuit closed is retried. -/
theorem circuit_shields_iff_closed : ∃ h s, (Pipeline.machine (gateway {})).Run h s ∧
    attemptsOf 0 s.log = 2 ∧
    ((∀ c n decided backend bc, .backendCall c n decided backend bc true ∉ s.log) ↔
      ∀ t ∈ h, t.pre.trips (gateway {}) t.input = false) := by
  obtain ⟨h, s, run, -, reached⟩ := TransitionSystem.exists_run
    (M := Pipeline.machine (gateway {})) (forwarded (call "b__t" 1) ++ [.upstream 0 failure clk])
    (fun _ _ => true) (fun s => decide (attemptsOf 0 s.log = 2)) (start_init _)
    (by decide +kernel)
  exact ⟨h, s, run, of_decide_eq_true reached, circuit_shields_iff run⟩

/-- The event is the call of a backend whose circuit is open. -/
def PipelineEvent.isExposed : PipelineEvent → Bool
  | .backendCall _ _ _ _ _ circuitOpen => circuitOpen
  | _ => false

open PipelineExample in
/-- The first failure opens the circuit, and the call tries again at once. -/
theorem open_circuit_called : ∃ h s c n decided backend bc,
    (Pipeline.machine (gateway { circuitOpenAfter := 1 })).Run h s ∧
      .backendCall c n decided backend bc true ∈ s.log := by
  obtain ⟨h, s, run, -, reached⟩ := TransitionSystem.exists_run
    (M := Pipeline.machine (gateway { circuitOpenAfter := 1 }))
    (forwarded (call "b__t" 1) ++ [.upstream 0 failure clk]) (fun _ _ => true)
    (fun s => s.log.any PipelineEvent.isExposed) (start_init _) (by decide +kernel)
  obtain ⟨e, member, exposed⟩ := List.any_eq_true.mp reached
  cases e with
  | backendCall c n decided backend bc circuitOpen =>
    obtain rfl : circuitOpen = true := exposed
    exact ⟨h, s, c, n, decided, backend, bc, run, member⟩
  | _ => cases exposed

end Perfacet
