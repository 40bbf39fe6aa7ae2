import Perfacet.Policy.YamlConfig

/-!
# Retries

Whether a call may be tried again after an outcome. The class of the outcome decides, within
the attempts, the deadline and the circuit.

## Main results

* `RetryPolicy.shouldRetry_spec` — what holds when a retry is allowed
-/

namespace Perfacet

/-- What `RetryPolicy` copies out of the configuration. -/
structure RetryPolicy where
  maxAttempts : ℤ
  retryable : List FailureClass
  never : List FailureClass

namespace RetryPolicy

def ofConfig (cfg : YamlConfig) : RetryPolicy :=
  { maxAttempts := cfg.retryMaxAttempts, retryable := cfg.retryable, never := cfg.neverRetry }

/-- `shouldRetry`, with the clock reading it makes. -/
def shouldRetry (p : RetryPolicy) (klass : FailureClass) (key : ToolKey) (metaData : BackendMeta)
    (attempt : ℤ) (deadlineMs : UInt64) (circuitOpen inflightAttemptOutstanding : Bool)
    (now : UInt64) : Bool :=
  if p.maxAttempts ≤ attempt then false
  else if circuitOpen then false
  else if 0 < deadlineMs ∧ deadlineMs ≤ now then false
  else if p.never.contains klass then false
  else if !p.retryable.contains klass then false
  -- after a timeout the call may have taken effect
  else if klass = .timeout then
    if inflightAttemptOutstanding then false
    else metaData.idempotentTools.contains key.tool
  else true

variable {p : RetryPolicy} {klass : FailureClass} {key : ToolKey} {metaData : BackendMeta}
  {attempt : ℤ} {deadlineMs now : UInt64} {circuitOpen outstanding : Bool}

/-- A retry stays within the attempts, needs a circuit that was not open and a deadline still
to come, and follows only outcomes that are listed as retryable and not as never. -/
theorem shouldRetry_spec
    (allowed : p.shouldRetry klass key metaData attempt deadlineMs circuitOpen outstanding now) :
    attempt < p.maxAttempts ∧ circuitOpen = false ∧ (deadlineMs = 0 ∨ now < deadlineMs) ∧
      klass ∉ p.never ∧ klass ∈ p.retryable ∧
      (klass = .timeout → outstanding = false ∧ key.tool ∈ metaData.idempotentTools) := by
  unfold shouldRetry at allowed
  split at allowed
  · cases allowed
  split at allowed
  · cases allowed
  split at allowed
  · cases allowed
  split at allowed
  · cases allowed
  split at allowed
  · cases allowed
  next within shut early notNever listed =>
  refine ⟨by omega, by simpa using shut, ?_, by simpa using notNever, by simpa using listed, ?_⟩
  · by_cases unbounded : deadlineMs = 0
    · exact .inl unbounded
    · have positive : 0 < deadlineMs := UInt64.pos_iff_ne_zero.mpr unbounded
      exact .inr (UInt64.not_le.mp fun late => early ⟨positive, late⟩)
  · rintro rfl
    rw [if_pos rfl] at allowed
    split at allowed
    · cases allowed
    · next notOutstanding => exact ⟨by simpa using notOutstanding, by simpa using allowed⟩

end RetryPolicy

end Perfacet
