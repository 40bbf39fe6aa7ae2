import Perfacet.Health.ProbeHealth
import Perfacet.Lib.Except
import Perfacet.Lib.MovingAverage

/-!
# Health as a function of the probes

A slot is written probe by probe, and a failure leaves the state alone until there are enough of
them. All the same the state is a function of the results: of how many failures they end with, and
of the moving average of the latencies.

## Main definitions

* `ProbeHealth.applied` — what `applyResult` leaves behind, also when it throws
* `ProbeHealth.state`, `ProbeHealth.latencyEwmaMs` — what is read of a server
* `ProbeHealth.stateOf` — the state that the results of a server amount to

## Main results

* `ProbeHealth.applyResults_state` — the two agree after every sequence of results
-/

namespace Perfacet.ProbeHealth

/-- What `applyResult` is told of one probe, and the time at which it is. -/
structure ProbeResult where
  ok : Bool
  latencyMs : UInt64
  tools : Option Json
  now : UInt64

/-! ## The code -/

variable (trunc : FloatText → ℤ) (h : ProbeHealth) (s : HealthSlot) (r : ProbeResult)

/-- The slot after a success, up to the tools. -/
def measured (latencyMs : UInt64) : HealthSlot :=
  let ewma := if s.ewmaInit then (s.ewma * 7 + latencyMs) / 8 else latencyMs
  { s with
    fails := 0
    ewma := ewma
    ewmaInit := true
    state := if ewma ≥ h.degradedMs then .degraded else .up }

/-- What is left of the slot: what `applyResult` throws comes before the time is noted. -/
def slotAfter : HealthSlot :=
  if r.ok then
    match h.succeeded trunc s r.latencyMs r.tools with
    | .ok s => { s with lastProbeMs := r.now }
    | .error _ => h.measured s r.latencyMs
  else { h.failed s with lastProbeMs := r.now }

/-- `applyResult`; it writes to the slot, and what it has written stays if it throws. -/
def applied (name : String) : ProbeHealth :=
  { h with slots := h.slots.insert name (h.slotAfter trunc (h.slots.getD name {}) r) }

/-- The results of the servers, in the order in which they come. -/
def applyResults (probes : List (String × ProbeResult)) : ProbeHealth :=
  probes.foldl (fun h p => h.applied trunc p.2 p.1) h

def state (server : String) : HealthState :=
  match h.slots.lookup server with
  | none => .down
  | some s => s.state

def latencyEwmaMs (server : String) : UInt64 :=
  match h.slots.lookup server with
  | none => 0
  | some s => s.ewma

variable {trunc h s r} {name : String}

/-- A result that does not throw. -/
theorem applied_of_applyResult {h' : ProbeHealth}
    (returned : h.applyResult trunc name r.ok r.latencyMs r.now r.tools = .ok h') :
    h.applied trunc r name = h' := by
  obtain ⟨ok, latencyMs, tools, now⟩ := r
  cases ok with
  | false => exact Except.ok.inj returned
  | true =>
    unfold applyResult at returned
    rw [applied, slotAfter]
    dsimp only at returned ⊢
    rw [if_pos rfl] at returned ⊢
    cases succeeded : h.succeeded trunc (h.slots.getD name {}) latencyMs tools with
    | ok s =>
      rw [succeeded] at returned
      exact Except.ok.inj returned
    | error e =>
      rw [succeeded] at returned
      cases returned

/-! ## The results of a server -/

/-- The results of one server. -/
def resultsOf (name : String) (probes : List (String × ProbeResult)) : List ProbeResult :=
  (probes.filter (·.1 = name)).map (·.2)

/-- How long its successes took. -/
def latencies (results : List ProbeResult) : List ℕ :=
  (results.filter (·.ok)).map (·.latencyMs.toNat)

/-- How many failures it ends with. -/
def trailingFailures (results : List ProbeResult) : ℕ :=
  (results.reverse.takeWhile (!·.ok)).length

/-- The state that the results amount to. -/
def stateOf (degradedMs : UInt64) (downAfter : ℤ) (results : List ProbeResult) : HealthState :=
  if latencies results = [] ∨ max 1 downAfter ≤ trailingFailures results then .down
  else if degradedMs.toNat ≤ MovingAverage.fold 7 (latencies results) then .degraded
  else .up

variable {results : List ProbeResult}

theorem latencies_append : latencies (results ++ [r]) =
    if r.ok then latencies results ++ [r.latencyMs.toNat] else latencies results := by
  rw [latencies, List.filter_append, List.map_append, ← latencies, List.filter_singleton]
  cases r.ok with
  | true => rfl
  | false => exact List.append_nil _

theorem trailingFailures_append : trailingFailures (results ++ [r]) =
    if r.ok then 0 else trailingFailures results + 1 := by
  rw [trailingFailures, List.reverse_append, List.reverse_singleton, List.singleton_append,
    List.takeWhile_cons]
  cases r.ok with
  | true => rfl
  | false => rfl

/-! ## One result -/

/-- The slot says what the results amount to. -/
structure Reflects (h : ProbeHealth) (results : List ProbeResult) (s : HealthSlot) : Prop where
  fails : s.fails = trailingFailures results
  started : s.ewmaInit = true ↔ latencies results ≠ []
  ewma : s.ewma.toNat = MovingAverage.fold 7 (latencies results)
  state : s.state = stateOf h.degradedMs h.downAfter results

theorem Reflects.initial : h.Reflects [] {} where
  fails := rfl
  started := by simp [latencies]
  ewma := rfl
  state := (if_pos (.inl rfl)).symm

/-- A failure; it changes the state if it is the last one that was needed. -/
theorem Reflects.failed (reflects : h.Reflects results s) (bad : r.ok = false) :
    h.Reflects (results ++ [r]) { h.failed s with lastProbeMs := r.now } := by
  have same : latencies (results ++ [r]) = latencies results := by
    rw [latencies_append, bad, if_neg Bool.false_ne_true]
  have more : trailingFailures (results ++ [r]) = trailingFailures results + 1 := by
    rw [trailingFailures_append, bad, if_neg Bool.false_ne_true]
  have fails := reflects.fails
  have state := reflects.state
  rw [stateOf] at state
  have now : (h.failed s).state = stateOf h.degradedMs h.downAfter (results ++ [r]) := by
    rw [ProbeHealth.failed, stateOf, same, more]
    dsimp only
    split
    · next enough =>
      have reached : max 1 h.downAfter ≤ (trailingFailures results + 1 : ℕ) := by omega
      rw [if_pos (.inr reached)]
    -- Before there are enough, the state stays what it was.
    · next few =>
      have before : ¬ max 1 h.downAfter ≤ trailingFailures results := by omega
      have after : ¬ max 1 h.downAfter ≤ (trailingFailures results + 1 : ℕ) := by omega
      simp only [before, after] at state ⊢
      exact state
  refine ⟨?_, ?_, ?_, now⟩
  · rw [ProbeHealth.failed, more, Int.natCast_add, ← fails]
    split <;> rfl
  · rw [same, ← reflects.started, ProbeHealth.failed]
    split <;> rfl
  · rw [same, ← reflects.ewma, ProbeHealth.failed]
    split <;> rfl

/-- A success; what it says of the tools does not matter. -/
theorem Reflects.measured (reflects : h.Reflects results s) (good : r.ok = true)
    (fits : MovingAverage.Fits 7 (2 ^ 64) (latencies (results ++ [r]))) :
    h.Reflects (results ++ [r]) (h.measured s r.latencyMs) := by
  have grown : latencies (results ++ [r]) = latencies results ++ [r.latencyMs.toNat] := by
    rw [latencies_append, good, if_pos rfl]
  have none : trailingFailures (results ++ [r]) = 0 := by
    rw [trailingFailures_append, good, if_pos rfl]
  have ewma : (h.measured s r.latencyMs).ewma.toNat =
      MovingAverage.fold 7 (latencies (results ++ [r])) := by
    rw [ProbeHealth.measured, grown]
    dsimp only
    split
    · next before =>
      have nonempty := reflects.started.mp before
      have room := fits _ _ nonempty (by rw [grown])
      rw [MovingAverage.fold_append_singleton nonempty, MovingAverage.next, ← reflects.ewma]
      rw [← reflects.ewma] at room
      simp only [UInt64.toNat_div, UInt64.toNat_add, UInt64.toNat_mul, UInt64.reduceToNat]
      omega
    · next first =>
      have empty : latencies results = [] := not_not.mp (mt reflects.started.mpr first)
      rw [empty, List.nil_append, MovingAverage.fold_singleton]
  refine ⟨?_, ?_, ewma, ?_⟩
  · rw [none]
    rfl
  · exact ⟨fun _ => by simp [grown], fun _ => rfl⟩
  · have up : ¬ (latencies (results ++ [r]) = [] ∨
        max 1 h.downAfter ≤ trailingFailures (results ++ [r])) := by
      rw [none, grown, not_or]
      exact ⟨by simp, by omega⟩
    rw [stateOf, if_neg up, ← ewma, ProbeHealth.measured]
    simp only [ge_iff_le, UInt64.le_iff_toNat_le]

/-- What a success says of its tools goes to a field of its own. -/
theorem succeeded_spec {s' : HealthSlot} {latencyMs : UInt64} {tools : Option Json}
    (succeeded : h.succeeded trunc s latencyMs tools = .ok s') :
    ∃ ttl, s' = { h.measured s latencyMs with listTtlMs := ttl } := by
  rw [ProbeHealth.succeeded] at succeeded
  dsimp only at succeeded
  split at succeeded
  · next ttl _ =>
    obtain ⟨n, -, made⟩ := Except.bind_eq_ok.mp succeeded
    exact ⟨n, (Except.ok.inj made).symm⟩
  · exact ⟨s.listTtlMs, (Except.ok.inj succeeded).symm⟩

theorem Reflects.slotAfter (trunc : FloatText → ℤ) (reflects : h.Reflects results s)
    (fits : MovingAverage.Fits 7 (2 ^ 64) (latencies (results ++ [r]))) :
    h.Reflects (results ++ [r]) (h.slotAfter trunc s r) := by
  rw [ProbeHealth.slotAfter]
  cases good : r.ok with
  | false => exact reflects.failed good
  | true =>
    have measured := reflects.measured good fits
    rw [if_pos rfl]
    split
    · next s' succeeded =>
      obtain ⟨ttl, rfl⟩ := succeeded_spec succeeded
      exact ⟨measured.fails, measured.started, measured.ewma, measured.state⟩
    · exact measured

/-! ## All results -/

theorem resultsOf_append (name : String) (probes : List (String × ProbeResult))
    (p : String × ProbeResult) : resultsOf name (probes ++ [p]) =
      if p.1 = name then resultsOf name probes ++ [p.2] else resultsOf name probes := by
  rw [resultsOf, List.filter_append, List.map_append, ← resultsOf, List.filter_singleton]
  by_cases same : p.1 = name
  · rw [if_pos same, decide_eq_true same]
    rfl
  · rw [if_neg same, decide_eq_false same]
    exact List.append_nil _

theorem applyResults_settings (trunc : FloatText → ℤ) (h : ProbeHealth)
    (probes : List (String × ProbeResult)) :
    (h.applyResults trunc probes).degradedMs = h.degradedMs ∧
      (h.applyResults trunc probes).downAfter = h.downAfter := by
  induction probes generalizing h with
  | nil => exact ⟨rfl, rfl⟩
  | cons p probes ih => exact ih (h.applied trunc p.2 p.1)

/-- A server that has not been probed has a slot like any other, for those who read. -/
theorem state_eq (h : ProbeHealth) (server : String) :
    h.state server = (h.slots.getD server {}).state := by
  rw [state, UnorderedMap.getD]
  cases h.slots.lookup server <;> rfl

theorem latencyEwmaMs_eq (h : ProbeHealth) (server : String) :
    h.latencyEwmaMs server = (h.slots.getD server {}).ewma := by
  rw [latencyEwmaMs, UnorderedMap.getD]
  cases h.slots.lookup server <;> rfl

/-- After every sequence of results, the slot of a server is what its own results amount to. -/
theorem Reflects.applyResults (trunc : FloatText → ℤ) (fresh : h.slots = ∅)
    (probes : List (String × ProbeResult))
    (fits : MovingAverage.Fits 7 (2 ^ 64) (latencies (resultsOf name probes))) :
    h.Reflects (resultsOf name probes)
      ((h.applyResults trunc probes).slots.getD name {}) := by
  induction probes using List.reverseRecOn with
  | nil =>
    rw [ProbeHealth.applyResults, List.foldl_nil, fresh, UnorderedMap.getD_empty]
    exact .initial
  | append_singleton probes p ih =>
    rw [ProbeHealth.applyResults, List.foldl_append, List.foldl_cons, List.foldl_nil,
      ← ProbeHealth.applyResults, applied, UnorderedMap.getD_insert]
    rw [resultsOf_append] at fits ⊢
    by_cases same : p.1 = name
    · rw [if_pos same] at fits ⊢
      rw [if_pos same.symm, same]
      have earlier : latencies (resultsOf name probes) <+:
          latencies (resultsOf name probes ++ [p.2]) := by
        rw [latencies_append]
        split
        · exact List.prefix_append _ _
        · exact List.prefix_rfl
      obtain ⟨degraded, down⟩ := applyResults_settings trunc h probes
      have before := ih (fits.of_prefix earlier)
      have kept : (h.applyResults trunc probes).Reflects (resultsOf name probes)
          ((h.applyResults trunc probes).slots.getD name {}) :=
        ⟨before.fails, before.started, before.ewma, by rw [degraded, down]; exact before.state⟩
      have after := kept.slotAfter trunc fits
      exact ⟨after.fails, after.started, after.ewma, by
        rw [← degraded, ← down]; exact after.state⟩
    · rw [if_neg same] at fits ⊢
      rw [if_neg (Ne.symm same)]
      exact ih fits

/-- The state of a server, after every sequence of results of all servers, is down if and only if
the server has had no success, or its results end with at least `max 1 downAfter` failures.
Otherwise it is degraded if the moving average of the latencies is at least `degradedMs`, and up if
not. The average lies between the least and the greatest latency. -/
theorem applyResults_state (trunc : FloatText → ℤ) (fresh : h.slots = ∅)
    (probes : List (String × ProbeResult))
    (fits : MovingAverage.Fits 7 (2 ^ 64) (latencies (resultsOf name probes))) :
    (h.applyResults trunc probes).state name =
        stateOf h.degradedMs h.downAfter (resultsOf name probes) ∧
      ((h.applyResults trunc probes).latencyEwmaMs name).toNat =
        MovingAverage.fold 7 (latencies (resultsOf name probes)) ∧
      (latencies (resultsOf name probes) ≠ [] →
        (∃ x ∈ latencies (resultsOf name probes),
            x ≤ ((h.applyResults trunc probes).latencyEwmaMs name).toNat) ∧
          ∃ x ∈ latencies (resultsOf name probes),
            ((h.applyResults trunc probes).latencyEwmaMs name).toNat ≤ x) := by
  have reflects := Reflects.applyResults trunc fresh probes fits
  rw [state_eq, latencyEwmaMs_eq, reflects.ewma]
  exact ⟨reflects.state, rfl, fun nonempty =>
    ⟨MovingAverage.exists_le_fold 7 nonempty, MovingAverage.exists_fold_le 7 nonempty⟩⟩

/-- A server is fast once, slow once and then fails once; another one fails all the time. -/
def flakyProbes : List (String × ProbeResult) :=
  [("a", ⟨true, 100, none, 1⟩), ("b", ⟨false, 0, none, 1⟩), ("a", ⟨true, 2000, none, 2⟩),
    ("b", ⟨false, 0, none, 2⟩), ("a", ⟨false, 0, none, 3⟩)]

/-- One failure is not enough, and the average has only begun to rise. -/
theorem applyResults_state_flaky :
    (applyResults (fun _ => 0) ⟨5000, 1000, 2, ∅⟩ flakyProbes).state "a" = .up ∧
      ((applyResults (fun _ => 0) ⟨5000, 1000, 2, ∅⟩ flakyProbes).latencyEwmaMs "a").toNat =
        337 := by
  have fits : MovingAverage.Fits 7 (2 ^ 64) (latencies (resultsOf "a" flakyProbes)) :=
    .of_forall (by decide)
  have fresh : (⟨5000, 1000, 2, ∅⟩ : ProbeHealth).slots = ∅ := rfl
  obtain ⟨state, average, -⟩ := applyResults_state (fun _ => 0) fresh flakyProbes fits
  exact ⟨state.trans (by decide), average.trans (by decide)⟩

end Perfacet.ProbeHealth
