import Mathlib.Logic.Function.Basic
import Perfacet.Pipeline.Effects

/-!
# What the pipeline sends to its backends

A call sends an attempt upstream by entering `call` of its backend, and then waits for the callback
that it has passed. This module says of each step of the pipeline what it sends: nothing, or one
attempt, which is the last thing that it does.

## Main definitions

* `Postings` — what has been sent, the backends that are being called, and the callbacks that each
  call waits for
* `PipelineState.Posts` — a piece of code sends at most one attempt

## Main results

* `PipelineState.posts_step` — every step of the loop but those of the callbacks sends at most one
* `PipelineState.posts_upstream`, `PipelineState.postings_drop` — what the callbacks do
-/

namespace Perfacet

/-- The attempts that have been sent with the calls that have sent them, the calls that are in the
`call` of their backend, and how many callbacks each call waits for. -/
@[ext]
structure Postings where
  sent : List (ℕ × BackendCall)
  entered : List ℕ
  pending : ℕ → ℕ

namespace Postings

/-- A call waits for `n` callbacks. -/
def wait (b : Postings) (c n : ℕ) : Postings :=
  { b with pending := Function.update b.pending c n }

/-- A call sends an attempt. -/
def post (b : Postings) (c : ℕ) (bc : BackendCall) : Postings where
  sent := b.sent ++ [(c, bc)]
  entered := c :: b.entered
  pending := Function.update b.pending c (b.pending c + 1)

/-- A callback is called. -/
def hear (b : Postings) (c : ℕ) : Postings := b.wait c (b.pending c - 1)

theorem wait_self {b : Postings} {c n : ℕ} (same : b.pending c = n) : b.wait c n = b := by
  rw [wait, ← same, Function.update_eq_self]

@[simp] theorem wait_wait (b : Postings) (c n m : ℕ) : (b.wait c n).wait c m = b.wait c m := by
  rw [wait, wait, wait, Function.update_idem]

end Postings

/-- The attempt that an event sends. -/
def PipelineEvent.sent : PipelineEvent → Option (ℕ × BackendCall)
  | .backendCall c _ _ _ bc _ => some (c, bc)
  | _ => none

/-- The loop calls or destroys a callback of a backend, or a backend returns. -/
def PipelineInput.ofBackend : PipelineInput → Bool
  | .upstream _ _ _ | .drop _ | .abandon _ | .backendReturns => true
  | _ => false

/-- The call whose backend a frame is in. -/
def PipelineFrame.entered : PipelineFrame → Option ℕ
  | .inBackend c => some c
  | _ => none

namespace Core

def postings (k : Core) : Postings where
  sent := (k.log.filterMap PipelineEvent.sent).reverse
  entered := k.stack.filterMap PipelineFrame.entered
  pending c := ((k.calls.lookup c).map Call.pending).getD 0

theorem postings_emit (k : Core) {e : PipelineEvent} (silent : e.sent = none) :
    (k.emit e).postings = k.postings := by
  refine Postings.ext ?_ rfl rfl
  exact congrArg List.reverse (List.filterMap_cons_none silent)

theorem postings_push (k : Core) {f : PipelineFrame} (other : f.entered = none) :
    (k.push f).postings = k.postings :=
  Postings.ext rfl (List.filterMap_cons_none other) rfl

theorem postings_put (k : Core) (c : ℕ) (call : Call) :
    (k.put c call).postings = k.postings.wait c call.pending := by
  refine Postings.ext rfl rfl (funext fun c' => ?_)
  change _ = Function.update k.postings.pending c call.pending c'
  rw [Function.update_apply]
  simp only [postings, put, UnorderedMap.lookup_insert]
  split <;> rfl

/-- A frame goes that is in no backend. -/
theorem postings_pop (k : Core) {f : PipelineFrame} {below : List PipelineFrame}
    (top : k.stack = f :: below) (other : f.entered = none) :
    { k with stack := below }.postings = k.postings := by
  refine Postings.ext rfl ?_ rfl
  simp only [postings, top, List.filterMap_cons_none other]

end Core

variable {env : Env} {s s' s'' : PipelineState} {c : ℕ} {call : Call}

namespace PipelineState

def postings (s : PipelineState) : Postings := (s.core .empty).postings

/-- A piece of code sends nothing, or it sends an attempt of a call and is then in the backend. -/
def Posts (s s' : PipelineState) : Prop :=
  s'.postings = s.postings ∨ ∃ c call below, s'.calls.lookup c = some call ∧
    s'.stack = .inBackend c :: below ∧ s'.postings = s.postings.post c (makeBackendCall call)

theorem Posts.of_eq (same : s'.postings = s.postings) : Posts s s' := .inl same

theorem Posts.trans_eq (same : s'.postings = s.postings) (h : Posts s' s'') : Posts s s'' := by
  rw [Posts, ← same]
  exact h

theorem pending_of_lookup (stored : s.calls.lookup c = some call) :
    s.postings.pending c = call.pending := by
  change ((s.calls.lookup c).map Call.pending).getD 0 = call.pending
  rw [stored]
  rfl

theorem pending_of_absent (absent : s.calls.lookup c = none) : s.postings.pending c = 0 := by
  change ((s.calls.lookup c).map Call.pending).getD 0 = 0
  rw [absent]
  rfl

/-! ## Spans and answers -/

theorem postings_put (s : PipelineState) (c : ℕ) (call : Call) :
    (s.put c call).postings = s.postings.wait c call.pending :=
  Core.postings_put (s.core .empty) c call

/-- A call is written back that waits for as many callbacks as before. -/
theorem postings_put_self {call' : Call} (stored : s.calls.lookup c = some call)
    (same : call'.pending = call.pending) : (s.put c call').postings = s.postings := by
  rw [postings_put, Postings.wait_self]
  rw [pending_of_lookup stored, same]

/-- A reference is about to go. -/
theorem postings_unref (s : PipelineState) (c : ℕ) (call : Call) :
    { s.put c call with stack := .unref c :: s.stack }.postings = (s.put c call).postings :=
  Core.postings_push ((s.put c call).core .empty) rfl

theorem postings_emit (s : PipelineState) {e : PipelineEvent} (silent : e.sent = none) :
    (s.emit e).postings = s.postings :=
  Core.postings_emit (s.core .empty) silent

@[simp] theorem postings_endSpan (s : PipelineState) (ctx : TraceContext) (klass : FailureClass)
    (ms : UInt64) : (s.endSpan ctx klass ms).postings = s.postings :=
  congrArg Core.postings (core_endSpan s ctx klass ms .empty)

@[simp] theorem postings_finish (s : PipelineState) (fin : Finish) (r : Response) (now : UInt64) :
    (s.finish fin r now).postings = s.postings :=
  (congrArg Core.postings (core_finish s fin r now .empty)).trans (Core.postings_emit _ rfl)

theorem posts_finish (s : PipelineState) (fin : Finish) (r : Response) (now : UInt64) :
    Posts s (s.finish fin r now) :=
  .of_eq (postings_finish s fin r now)

/-! ## The life of a call -/

theorem postings_respond (s : PipelineState) (call : Call) (r : Response) (clk : Clock) :
    (s.respond call r clk).1.postings = s.postings ∧
      (s.respond call r clk).2.pending = call.pending := by
  unfold respond
  split
  · exact ⟨rfl, rfl⟩
  · exact ⟨postings_finish .., rfl⟩

/-- A call that responds is written back. -/
theorem postings_put_respond (s : PipelineState) (c : ℕ) (call : Call) (r : Response)
    (clk : Clock) :
    ((s.respond call r clk).1.put c (s.respond call r clk).2).postings =
      (s.put c call).postings := by
  obtain ⟨same, waits⟩ := postings_respond s call r clk
  rw [postings_put, postings_put, same, waits]

theorem postings_cancelWait (s : PipelineState) (c : ℕ) (call : Call) (clk : Clock) :
    (s.cancelWait c call clk).postings = (s.put c call).postings := by
  have told := postings_put_respond s c { call with cancelled := true } cancelledResponse clk
  have marked : (s.put c { call with cancelled := true }).postings = (s.put c call).postings := by
    rw [postings_put, postings_put]
  refine Eq.trans ?_ (told.trans marked)
  unfold cancelWait
  dsimp only
  rw [postings_emit _ rfl]
  split <;> rfl

theorem postings_answerTask (s : PipelineState) (taskId : String) (now : UInt64) :
    (s.answerTask taskId now).1.postings = s.postings :=
  congrArg Core.postings (answerTask_core s taskId now .empty)

theorem postings_promoteTask (env : Env) (s : PipelineState) (c : ℕ) (call : Call) (clk : Clock) :
    (s.promoteTask env c call clk).1.postings = s.postings ∧
      (s.promoteTask env c call clk).2.1.pending = call.pending := by
  unfold promoteTask
  split
  · dsimp only [draw]
    generalize MemTaskStore.insert _ _ _ = inserted
    obtain ⟨store, stored⟩ := inserted
    cases stored with
    | true => exact ⟨rfl, rfl⟩
    | false => exact ⟨rfl, rfl⟩
  · exact ⟨rfl, rfl⟩

theorem postings_onPromote (env : Env) (s : PipelineState) (c : ℕ) (call : Call) (clk : Clock) :
    (s.onPromote env c call clk).postings = (s.put c call).postings := by
  unfold onPromote
  split
  · rfl
  split
  · obtain ⟨same, waits⟩ := postings_promoteTask env s c call clk
    revert same waits
    generalize s.promoteTask env c call clk = promoted
    obtain ⟨s₁, call₁, stored⟩ := promoted
    intro same waits
    have here : (s₁.put c call₁).postings = (s.put c call).postings := by
      rw [postings_put, postings_put, same, waits]
    refine Eq.trans ?_ here
    cases stored with
    | true =>
      dsimp only
      have told := postings_answerTask s₁ call₁.taskId (clk 2)
      generalize s₁.answerTask call₁.taskId (clk 2) = answer at told ⊢
      obtain ⟨s₂, r⟩ := answer
      refine (postings_put_respond s₂ c call₁ r (clk.after 3)).trans ?_
      rw [postings_put, postings_put, told]
    | false => exact postings_put_respond s₁ c call₁ _ _
  · exact postings_put_respond s c call _ _

/-- An attempt is sent if the backend is there. -/
theorem posts_fireAttempt (env : Env) (s : PipelineState) (c : ℕ) (call : Call)
    (decided : Option UInt64) (clk : Clock) :
    Posts (s.put c call) (s.fireAttempt env c call decided clk) := by
  cases present : env.catalog.backend call.key.backend with
  | true =>
    obtain ⟨n, delay, upTrace, fired⟩ := core_fireAttempt s c call present decided clk .empty
    refine .inr ⟨c, call.fired delay upTrace, s.stack, ?_, congrArg Core.stack fired, ?_⟩
    · change (Core.calls ((s.fireAttempt env c call decided clk).core .empty)).lookup c = _
      rw [fired]
      exact AList.lookup_insert _
    · rw [postings, fired, postings_put]
      refine Postings.ext ?_ rfl ?_
      · exact List.reverse_cons
      · change (((s.core .empty).advance n).put c (call.fired delay upTrace)).postings.pending = _
        rw [Core.postings_put]
        change Function.update s.postings.pending c (call.pending + 1) = _
        simp only [Postings.post, Postings.wait, Function.update_idem, Function.update_self]
  | false =>
    obtain ⟨r, fired⟩ := core_fireAttempt_absent s c call present decided clk .empty
    exact .of_eq ((congrArg Core.postings fired).trans (Core.postings_push _ rfl))

theorem postings_settle (s : PipelineState) (c : ℕ) (call : Call) (r : Response) (clk : Clock) :
    (s.settle c call r clk).postings = (s.put c call).postings := by
  unfold settle
  dsimp only
  generalize disarmed : (if call.promoteTimer.isSome then _ else _ : Call) = call'
  have waits : call'.pending = call.pending := by
    rw [← disarmed]
    split <;> rfl
  generalize noted : (if call'.taskId.isEmpty then s else _ : PipelineState) = s'
  have same : s'.postings = s.postings := by
    rw [← noted]
    split <;> rfl
  refine (postings_put_respond s' c call' _ _).trans ?_
  rw [postings_put, postings_put, same, waits]

theorem postings_heard (s : PipelineState) (c : ℕ) (call : Call) (r : Response) (clk : Clock) :
    (s.heard c call r clk).postings = s.postings :=
  (congrArg Core.postings (core_heard s c call r clk .empty)).trans (Core.postings_emit _ rfl)

/-- An outcome is handled, perhaps by another attempt. -/
theorem posts_onUpstream (env : Env) (s : PipelineState) (c : ℕ) (call : Call) (r : Response)
    (clk : Clock) : Posts (s.put c call) (s.onUpstream env c call r clk) := by
  have closed : ((s.heard c call r clk).put c { call with upSpanLive := false }).postings =
      (s.put c call).postings := by
    rw [postings_put, postings_put, postings_heard]
  cases late : call.cancelled with
  | true =>
    unfold onUpstream
    dsimp only
    rw [if_pos late]
    refine .of_eq ?_
    rw [postings_put, postings_put]
    refine congrArg (fun b : Postings => b.wait c call.pending) ?_
    split
    · rw [postings_endSpan, postings_emit _ rfl]
    · exact postings_emit _ rfl
  | false =>
    cases again : retries env call r (s.circuit.isOpen call.key.backend (clk 0)).2 (clk 2) with
    | true =>
      rw [onUpstream_retry s c r clk late again]
      exact .trans_eq closed (posts_fireAttempt ..)
    | false =>
      rw [onUpstream_last s c r clk late again]
      exact .of_eq ((postings_settle ..).trans closed)

/-- A call that is destroyed has no callback left. -/
theorem postings_destroy (s : PipelineState) (stored : s.calls.lookup c = some call)
    (rests : call.pending = 0) (clk : Clock) :
    (s.destroy c call clk).postings = s.postings := by
  unfold destroy
  dsimp only
  generalize closed : (if call.upSpanLive then _ else s : PipelineState) = s₁
  have same : s₁.postings = s.postings := by
    rw [← closed]
    split
    · exact postings_endSpan ..
    · rfl
  obtain ⟨answered, -⟩ := postings_respond s₁ call cancelledResponse (clk.after 1)
  generalize s₁.respond call cancelledResponse (clk.after 1) = responded at answered ⊢
  obtain ⟨s₂, call₂⟩ := responded
  refine Eq.trans ?_ (answered.trans same)
  have gone : s₂.postings.pending c = 0 := by
    rw [answered, same, pending_of_lookup stored, rests]
  refine Postings.ext rfl rfl (funext fun c' => ?_)
  change (((s₂.calls.erase c).lookup c').map Call.pending).getD 0 = s₂.postings.pending c'
  rw [UnorderedMap.lookup_erase]
  split
  · next here =>
    rw [here, gone]
    rfl
  · rfl

/-! ## Admission -/

theorem postings_rejected (s : PipelineState) (w : Waiting) (now : UInt64) :
    (s.rejected w now).postings = s.postings :=
  (congrArg Core.postings (core_rejected s w now .empty)).trans (Core.postings_emit _ rfl)

theorem postings_refused (s : PipelineState) (w : Waiting) (circuitOpen : Bool) (now : UInt64) :
    (s.refused w circuitOpen now).postings = s.postings := by
  unfold refused
  dsimp only
  generalize counted : (if circuitOpen then _ else s : PipelineState) = s₁
  have same : s₁.postings = s.postings := by
    rw [← counted]
    split <;> rfl
  refine Eq.trans ?_ ((postings_finish s₁ w.onDone
    (.ofText .unavailable "upstream unavailable") now).trans same)
  rfl

/-- A call that starts sends its first attempt. -/
theorem posts_startCall (s : PipelineState) (w : Waiting)
    (new : s.calls.lookup s.nextCall = none) (summary : String) (now : UInt64) (clk : Clock) :
    Posts s (s.startCall env w summary now clk) := by
  unfold startCall
  dsimp only [draw]
  refine .trans_eq ?_ (posts_fireAttempt env _ s.nextCall _ none (clk.after 1))
  generalize entered : PipelineState.mk _ _ _ _ _ _ _ _ _ _ _ _ _ _ _ _ _ _ _ = s₁
  have same : s₁.postings = s.postings := by
    rw [← entered]
    rfl
  rw [postings_put, same]
  exact Postings.wait_self (pending_of_absent new)

theorem posts_admitted (s : PipelineState) (w : Waiting)
    (new : s.calls.lookup s.nextCall = none) (clk : Clock) : Posts s (s.admitted env w clk) := by
  unfold admitted
  dsimp only
  generalize s.circuit.isOpen w.key.backend (clk 0) = looked
  obtain ⟨circuit, circuitOpen⟩ := looked
  dsimp only
  split
  · exact .of_eq (postings_refused { s with circuit := circuit } w circuitOpen (clk 1))
  · split
    · exact .of_eq rfl
    · exact posts_startCall { s with circuit := circuit } w new _ _ _

theorem posts_acquire (s : PipelineState) (w : Waiting)
    (new : s.calls.lookup s.nextCall = none) (clk : Clock) : Posts s (s.acquire env w clk) := by
  unfold acquire
  split
  · next gov _ => exact posts_admitted { s with gov := gov } w new _
  · exact .of_eq rfl
  · next gov _ => exact .of_eq (postings_rejected { s with gov := gov } w _)

/-! ## Requests -/

theorem postings_duplicateTask (env : Env) (s : PipelineState) (req : Request) (key : ToolKey)
    (hit : InFlightEntry) (orig : Option (ℕ × Call))
    (stored : ∀ c call, orig = some (c, call) → s.calls.lookup c = some call) (clk : Clock) :
    (s.duplicateTask env req key hit orig clk).1.postings = s.postings := by
  unfold duplicateTask
  dsimp only [draw]
  generalize "tsk_" ++ env.randomHex 8 s.draws = id
  generalize MemTaskStore.insert _ _ _ = inserted
  obtain ⟨store, room⟩ := inserted
  cases room with
  | false => rfl
  | true =>
    simp only [Bool.not_true, Bool.false_eq_true, if_false]
    refine (congrArg Core.postings (core_tellTask _ id (clk 2) req.trace)).trans ?_
    cases orig with
    | none => rfl
    | some orig =>
      obtain ⟨c, call⟩ := orig
      exact postings_put_self (s := { s with draws := s.draws + 1, tasks := store })
        (stored c call rfl) rfl

theorem postings_answerDuplicate (env : Env) (s : PipelineState) (req : Request) (key : ToolKey)
    (hit : InFlightEntry) (clk : Clock) :
    (s.answerDuplicate env req key hit clk).1.postings = s.postings := by
  unfold answerDuplicate
  dsimp only
  generalize noted : PipelineState.setSpan _ req.trace "inflight_id" hit.inflightId = s₁
  have same : s₁.postings = s.postings := by
    rw [← noted]
    rfl
  split
  · split
    · exact (postings_duplicateTask env s₁ req key hit _
        (fun c call found => (liveCall_spec found).2) clk).trans same
    · exact (congrArg Core.postings (core_tellTask s₁ _ (clk 2) req.trace)).trans same
  · exact same

theorem posts_handOver (s : PipelineState) (w : Waiting)
    (new : s.calls.lookup s.nextCall = none) (clk : Clock) : Posts s (s.handOver env w clk) := by
  unfold handOver
  dsimp only
  generalize counted : (if w.confirmed then _ else s : PipelineState) = s₁
  have same : s₁.postings = s.postings ∧ s₁.calls = s.calls ∧ s₁.nextCall = s.nextCall := by
    rw [← counted]
    split <;> exact ⟨rfl, rfl, rfl⟩
  refine .trans_eq same.1 ?_
  split
  · exact posts_finish ..
  · exact posts_acquire s₁ w (by rw [same.2.1, same.2.2, new]) clk

theorem posts_handleUpstream (s : PipelineState) (req : Request) (key : ToolKey) (fin : Finish)
    (new : s.calls.lookup s.nextCall = none) (clk : Clock) :
    Posts s (s.handleUpstream env req key fin clk) := by
  have threw : Posts s (s.emit (.threw fin.rid)) := .of_eq (postings_emit s rfl)
  unfold handleUpstream
  split
  · exact threw
  · dsimp only
    split
    · exact threw
    · split
      · exact .of_eq ((postings_finish ..).trans (postings_answerDuplicate ..))
      · exact posts_handOver s _ new clk

theorem postings_handleBuiltin (env : Env) (s : PipelineState) (req : Request) (key : ToolKey)
    (clk : Clock) : (s.handleBuiltin env req key clk).1.postings = s.postings := by
  unfold handleBuiltin
  split
  · split
    · rfl
    · dsimp only
      split
      · rfl
      · split
        · rfl
        · split <;> rfl
  · split
    · split <;> rfl
    · rfl

theorem posts_handleCall (s : PipelineState) (req : Request) (fin : Finish)
    (new : s.calls.lookup s.nextCall = none) (clk : Clock) :
    Posts s (s.handleCall env req fin clk) := by
  unfold handleCall
  split
  · exact posts_finish ..
  · next key _ =>
    split
    · exact posts_finish ..
    · exact posts_finish ..
    · split
      · have built := postings_handleBuiltin env s req key clk
        generalize s.handleBuiltin env req key clk = out at built ⊢
        obtain ⟨s₁, outcome⟩ := out
        cases outcome with
        | ok r => exact .trans_eq built (posts_finish ..)
        | error e => exact .trans_eq built (.of_eq (postings_emit s₁ rfl))
      · exact posts_handleUpstream s req key fin new clk

theorem postings_cancelTask (s : PipelineState) (taskId : String) (who : Principal) (fin : Finish)
    (clk : Clock) : (s.cancelTask taskId who fin clk).postings = s.postings := by
  unfold cancelTask
  rcases s.getTask_cases taskId who (clk 0) with ⟨-, looked⟩ | ⟨t, -, -, looked⟩ <;>
    rw [looked] <;> dsimp only
  · exact postings_finish ..
  · rw [postings_finish]
    generalize (s.tasks.sweep (clk 0)).updateStatus taskId .cancelled .null (clk 1) = store
    split
    · next c _ =>
      split
      · next call stored =>
        exact (postings_cancelWait { s with tasks := store } c call _).trans
          (postings_put_self stored rfl)
      · rfl
    · rfl

theorem posts_dispatch (s : PipelineState) (req : Request) (fin : Finish)
    (new : s.calls.lookup s.nextCall = none) (clk : Clock) :
    Posts s (s.dispatch env req fin clk) := by
  unfold dispatch
  split
  · exact posts_finish ..
  split
  · exact posts_finish ..
  split
  · rcases s.getTask_cases req.name req.who (clk 0) with ⟨-, looked⟩ | ⟨t, -, -, looked⟩ <;>
      rw [looked] <;> exact .of_eq (postings_finish ..)
  split
  · exact .of_eq (postings_cancelTask ..)
  split
  · exact posts_handleCall s req fin new clk
  · exact posts_finish ..

/-- A request is received and handled. -/
theorem posts_handle (s : PipelineState) (req : Request)
    (new : s.calls.lookup s.nextCall = none) (clk : Clock) : Posts s (s.handle env req clk) := by
  obtain ⟨n, opened, -, -⟩ := received_spec env s req clk .empty
  unfold handle
  generalize s.received env req clk = out at opened ⊢
  obtain ⟨s₁, req₁, fin⟩ := out
  have same : s₁.postings = s.postings :=
    (congrArg Core.postings opened).trans (Core.postings_emit (s.core .empty) rfl)
  have calls : s₁.calls = s.calls := congrArg Core.calls opened
  have next : s₁.nextCall = s.nextCall := congrArg Core.nextCall opened
  exact .trans_eq same (posts_dispatch s₁ req₁ fin (by rw [calls, next, new]) (clk.after 3))

/-! ## Shutdown -/

theorem postings_cancelLive (clk : String → Clock) (s : PipelineState) (inflightId : String) :
    (s.cancelLive clk inflightId).postings = s.postings := by
  unfold cancelLive
  split
  · next c call found =>
    exact (postings_cancelWait s c call _).trans (postings_put_self (liveCall_spec found).2 rfl)
  · rfl

theorem postings_requestStop (s : PipelineState) (order : List String) (clk : String → Clock) :
    (s.requestStop order clk).postings = s.postings := by
  unfold requestStop
  generalize stopping : ({ s with stopping := true, log := _ } : PipelineState) = s₁
  have same : s₁.postings = s.postings := by
    rw [← stopping]
    exact postings_emit { s with stopping := true } rfl
  rw [← same]
  clear stopping same
  induction order generalizing s₁ with
  | nil => rfl
  | cons inflightId order ih => exact (ih _).trans (postings_cancelLive clk s₁ inflightId)

theorem postings_rejectQueue (s : PipelineState) (ts : String) (clk : Clock) :
    (s.rejectQueue ts clk).postings = s.postings := by
  unfold rejectQueue
  generalize s.gov.queue ts = turns
  induction turns generalizing s with
  | nil => rfl
  | cons waiter turns ih =>
    rw [List.foldl_cons, ih]
    split
    · next gov head _ => exact postings_rejected { s with gov := gov } head.cb _
    · rfl

theorem postings_rejectAllQueued (s : PipelineState) (order : List String)
    (clk : String → Clock) : (s.rejectAllQueued order clk).postings = s.postings := by
  unfold rejectAllQueued
  induction order generalizing s with
  | nil => rfl
  | cons ts order ih => exact (ih _).trans (postings_rejectQueue s ts (clk ts))

/-! ## Steps -/

/-- The frame on top is executed. -/
theorem posts_runTop (ok : (s.core .empty).Ok env) (clk : Clock)
    (ran : s.runTop env clk = some s') : Posts s s' := by
  have new : s.calls.lookup s.nextCall = none := ok.orderly.numbered.new
  unfold runTop at ran
  split at ran
  · next ts below top =>
    have popped : { s with stack := below }.postings = s.postings :=
      Core.postings_pop (s.core .empty) top rfl
    split at ran
    · obtain rfl := Option.some.inj ran
      exact .of_eq popped
    · next gov w _ =>
      obtain rfl := Option.some.inj ran
      exact .of_eq (postings_rejected { s with gov := gov } w.cb _)
    · next gov w _ =>
      obtain rfl := Option.some.inj ran
      exact .trans_eq popped (posts_admitted { s with gov := gov, stack := below } w.cb new _)
  · next c r below top =>
    have popped : { s with stack := below }.postings = s.postings :=
      Core.postings_pop (s.core .empty) top rfl
    split at ran
    · next call stored =>
      obtain rfl := Option.some.inj ran
      refine .trans_eq ?_ (posts_onUpstream env { s with stack := below } c call r clk)
      exact (postings_put_self (s := { s with stack := below }) stored rfl).trans popped
    · cases ran
  · next c below top =>
    have popped : { s with stack := below }.postings = s.postings :=
      Core.postings_pop (s.core .empty) top rfl
    dsimp only at ran
    split at ran
    · next call stored =>
      obtain rfl := Option.some.inj ran
      refine .of_eq (Eq.trans ?_ popped)
      split
      · next last =>
        have rests : call.pending = 0 := by
          rw [Call.refs] at last
          omega
        exact postings_destroy { s with stack := below } stored rests clk
      · rfl
    · cases ran
  · cases ran

/-- Whatever the loop does that is no callback of a backend, it is in no backend before, and sends
one attempt at most. -/
theorem posts_step (ok : (s.core .empty).Ok env) {input : PipelineInput}
    (own : input.ofBackend = false) (step : s.step env input = some s') :
    (∀ c below, s.stack ≠ .inBackend c :: below) ∧ Posts s s' := by
  have attempt := (Option.filter_eq_some_iff.mp step).1
  have free (idle : s.idle = true) : ∀ c below, s.stack ≠ .inBackend c :: below := by
    rintro c below top
    rw [PipelineState.idle, top] at idle
    cases idle
  have new : s.calls.lookup s.nextCall = none := ok.orderly.numbered.new
  cases input with
  | upstream | drop | abandon | backendReturns => cases own
  | run clk =>
    refine ⟨fun c below top => ?_, posts_runTop ok clk attempt⟩
    simp only [PipelineState.attempt, runTop, top] at attempt
    cases attempt
  | promote c clk =>
    simp only [PipelineState.attempt] at attempt
    split at attempt
    · next call idle stored =>
      split at attempt
      · obtain rfl := Option.some.inj attempt
        have fired : (s.put c { call with promoteArmed := false }).postings = s.postings :=
          postings_put_self stored rfl
        refine ⟨free idle, .of_eq ((postings_onPromote ..).trans (Eq.trans ?_ fired))⟩
        exact postings_unref s c { call with promoteArmed := false }
      · cases attempt
    · cases attempt
  | queueTimer id clk =>
    obtain ⟨idle, taken⟩ := Option.ite_none_right_eq_some.mp attempt
    refine ⟨free idle, .of_eq ?_⟩
    split at taken
    · next gov w _ =>
      obtain rfl := Option.some.inj taken
      exact postings_rejected { s with gov := gov } w.cb _
    · obtain rfl := Option.some.inj taken
      rfl
    · cases taken
  | handle req clk =>
    obtain ⟨idle, taken⟩ := Option.ite_none_right_eq_some.mp attempt
    obtain rfl := Option.some.inj taken
    exact ⟨free idle, posts_handle s req new clk⟩
  | requestStop calls tools clk rejects =>
    obtain ⟨orders, taken⟩ := Option.ite_none_right_eq_some.mp attempt
    simp only [Bool.and_eq_true] at orders
    obtain rfl := Option.some.inj taken
    refine ⟨free orders.1.1, .of_eq ?_⟩
    exact (postings_rejectAllQueued ..).trans (postings_requestStop ..)
  | toolsListed | probeSuccess | health | grants =>
    obtain ⟨idle, taken⟩ := Option.ite_none_right_eq_some.mp attempt
    obtain rfl := Option.some.inj taken
    exact ⟨free idle, .of_eq rfl⟩

/-- A callback that is called is waited for, and may send another attempt. -/
theorem posts_upstream {r : Response} {clk : Clock}
    (step : s.step env (.upstream c r clk) = some s') :
    0 < s.postings.pending c ∧ ∃ s₁ : PipelineState, s₁.postings = s.postings.hear c ∧
      s₁.stack = s.stack ∧ Posts s₁ s' := by
  have attempt := (Option.filter_eq_some_iff.mp step).1
  simp only [PipelineState.attempt] at attempt
  split at attempt
  · next call _ stored =>
    obtain ⟨waits, taken⟩ := Option.ite_none_right_eq_some.mp attempt
    obtain rfl := Option.some.inj taken
    refine ⟨by rwa [pending_of_lookup stored], s.put c call.delivered, ?_, rfl,
      posts_onUpstream env s c call.delivered r clk⟩
    rw [postings_put, Postings.hear, pending_of_lookup stored]
    rfl
  · cases attempt

/-- A callback that has been called is destroyed. -/
theorem postings_drop (step : s.step env (.drop c) = some s') : s'.postings = s.postings := by
  have attempt := (Option.filter_eq_some_iff.mp step).1
  simp only [PipelineState.attempt] at attempt
  split at attempt
  · next call _ stored =>
    obtain ⟨-, taken⟩ := Option.ite_none_right_eq_some.mp attempt
    obtain rfl := Option.some.inj taken
    have dropped : (s.put c { call with spent := call.spent - 1 }).postings = s.postings :=
      postings_put_self stored rfl
    exact (postings_unref s c { call with spent := call.spent - 1 }).trans dropped
  · cases attempt

/-- A backend returns. -/
theorem stack_of_returns (step : s.step env .backendReturns = some s') :
    ∃ c below, s.stack = .inBackend c :: below ∧ s' = { s with stack := below } := by
  have attempt := (Option.filter_eq_some_iff.mp step).1
  simp only [PipelineState.attempt] at attempt
  split at attempt
  · next c below top => exact ⟨c, below, top, (Option.some.inj attempt).symm⟩
  · cases attempt

end PipelineState

end Perfacet
