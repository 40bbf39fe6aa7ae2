import Perfacet.Policy.Access

/-!
# Health by probes

Every server has a slot with a moving average of its latency and the number of failures in a
row. A probe that succeeds may say for how long its tool list may be kept.

## Main definitions

* `ProbeHealth.applyResult` — what a probe does to the slot of its server
* `ProbeHealth.due` — when a server is probed again
-/

namespace Perfacet

/-- The states of an upstream as probes see it. -/
inductive HealthState
  | up | degraded | down
  deriving DecidableEq, Repr

def healthStateName : HealthState → String
  | .up => "up"
  | .degraded => "degraded"
  | .down => "down"

structure HealthSlot where
  state : HealthState := .down
  ewma : UInt64 := 0
  fails : ℤ := 0
  ewmaInit : Bool := false
  listTtlMs : UInt64 := 0
  lastProbeMs : UInt64 := 0
  deriving DecidableEq, Repr

structure ProbeHealth where
  intervalMs : UInt64
  degradedMs : UInt64
  downAfter : ℤ
  slots : UnorderedMap String HealthSlot := ∅

namespace ProbeHealth

/-- Whether the timer probes a server now. -/
def due (h : ProbeHealth) (name : String) (now : UInt64) : Bool :=
  let s := h.slots.getD name {}
  let minInterval := if s.listTtlMs > h.intervalMs then s.listTtlMs else h.intervalMs
  !(decide (s.lastProbeMs ≠ 0) && decide (now < s.lastProbeMs + minInterval))

/-- The slot after a success. It throws on a `ttlMs` that is not a number. -/
def succeeded (trunc : FloatText → ℤ) (h : ProbeHealth) (s : HealthSlot) (latencyMs : UInt64)
    (tools : Option Json) : Except JsonError HealthSlot :=
  let ewma := if s.ewmaInit then (s.ewma * 7 + latencyMs) / 8 else latencyMs
  -- the average decides, not the last latency
  let s := { s with
    fails := 0
    ewma := ewma
    ewmaInit := true
    state := if ewma ≥ h.degradedMs then .degraded else .up }
  -- what the list says of its own time to live may be of a wrong type
  match tools.bind (·.field? "ttlMs") with
  | some ttl => do pure { s with listTtlMs := ← ttl.getUnsigned trunc }
  | none => .ok s

/-- The slot after a failure. -/
def failed (h : ProbeHealth) (s : HealthSlot) : HealthSlot :=
  let s := { s with fails := s.fails + 1 }
  if s.fails ≥ h.downAfter then { s with state := .down } else s

/-- `applyResult` up to its callback. -/
def applyResult (trunc : FloatText → ℤ) (h : ProbeHealth) (name : String) (ok : Bool)
    (latencyMs now : UInt64) (tools : Option Json) : Except JsonError ProbeHealth := do
  let s := h.slots.getD name {}
  let s ← if ok then h.succeeded trunc s latencyMs tools else .ok (h.failed s)
  pure { h with slots := h.slots.insert name { s with lastProbeMs := now } }

variable {trunc : FloatText → ℤ} {h : ProbeHealth} {name : String} {ok : Bool}
  {latencyMs now : UInt64} {tools : Option Json}

/-- Only a success with a `ttlMs` that is not a number makes it throw. -/
theorem applyResult_ok_iff : (∃ h', h.applyResult trunc name ok latencyMs now tools = .ok h') ↔
    (ok = true → ∀ ttl, tools.bind (·.field? "ttlMs") = some ttl → ttl.isNumber = true) := by
  unfold applyResult succeeded
  cases ok with
  | false => simp [pure, Except.pure, bind, Except.bind]
  | true =>
    cases tools.bind (·.field? "ttlMs") with
    | none => simp [pure, Except.pure, bind, Except.bind]
    | some ttl =>
      have number : (∃ n, ttl.getUnsigned trunc = .ok n) ↔ ttl.isNumber = true :=
        Json.getUnsigned_ok_iff
      simp only [Option.some.injEq, forall_eq', true_implies, if_true, ← number]
      cases ttl.getUnsigned trunc <;> simp [pure, Except.pure, bind, Except.bind]

end ProbeHealth

end Perfacet
