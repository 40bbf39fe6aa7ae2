import Perfacet.Pipeline.Admission
import Perfacet.Pipeline.Answers

/-!
# Attempts

Everything that is sent upstream was asked for by a request that was allowed to ask, and is
sent again only while the call that sends it has reason to. Both are laws about the log: what
must have happened, and what must not have happened, before a call goes to a backend.

## Main definitions

* `Mediated`, `Restrained` — where an attempt comes from, and why it may be made
* `PipelineEvent.Law` — the law of the log

## Main results

* `Orderly.move` — every move keeps the log lawful, with the invariant this needs
-/

namespace Perfacet

variable {env : Env} {P : Promise} {hand : Hand} {k k' : Core} {c c' rid : ℕ}
  {call call' : Call} {log events : List PipelineEvent} {frames : List PipelineFrame}

/-! ## The law -/

def PipelineEvent.isAttempt (c : ℕ) : PipelineEvent → Bool
  | .backendCall c' _ _ _ _ _ => decide (c' = c)
  | _ => false

def PipelineEvent.isOutcome (c : ℕ) : PipelineEvent → Bool
  | .outcome c' _ => decide (c' = c)
  | _ => false

/-- How many attempts a call has made. -/
def attemptsOf (c : ℕ) (log : List PipelineEvent) : ℕ := log.countP (PipelineEvent.isAttempt c)

/-- How many outcomes a call has got. -/
def outcomesOf (c : ℕ) (log : List PipelineEvent) : ℕ := log.countP (PipelineEvent.isOutcome c)

/-- Call `c` was started for request `rid`, a call of tool `key` that was allowed. -/
structure Mediated (env : Env) (log : List PipelineEvent) (c rid : ℕ) (req : Request)
    (key : ToolKey) : Prop where
  started : ∃ confirmed twin, .started c rid confirmed twin ∈ log
  received : .request rid req ∈ log
  method : req.method = "tools/call"
  parsed : ToolKey.parse req.name = some key
  allowed : RankPolicy.authorizeCall env.catalog req.who key = .allow

/-- Nothing that has happened forbids the `n`-th attempt of call `c`. The time of a retry is the
reading `decided` that `shouldRetry` compared with the deadline in the same callback;
`fireAttempt`, which follows, compares nothing. -/
structure Restrained (env : Env) (log : List PipelineEvent) (c rid : ℕ) (req : Request) (n : ℕ)
    (decided : Option UInt64) : Prop where
  bound : (n : ℤ) ≤ max 1 env.cfg.retryMaxAttempts
  number : attemptsOf c log + 1 = n
  settled : outcomesOf c log + 1 = n
  unanswered : answersTo rid log = 0
  uncancelled : .cancelled c ∉ log
  running : .stopped ∉ log
  benign : ∀ klass, .outcome c klass ∈ log → klass ≠ .timeout ∧ klass ∉ env.cfg.neverRetry
  early : n ≠ 1 → ∃ now, decided = some now ∧ (req.deadlineMs = 0 ∨ now < req.deadlineMs)

/-- What must be true of the past when something happens. -/
def PipelineEvent.Law (env : Env) : PipelineEvent → List PipelineEvent → Prop
  | .request rid _, log => ∀ req, .request rid req ∉ log
  | .started c _ _ _, log => ∀ rid confirmed twin, .started c rid confirmed twin ∉ log
  | .backendCall c n decided backend bc _, log => ∃ rid req key,
      Mediated env log c rid req key ∧ Restrained env log c rid req n decided ∧
        backend = key.backend ∧ env.catalog.backend backend = true ∧ bc.name = key.tool ∧
        bc.params.field? "name" = some (.str key.tool)
  | _, _ => True

/-- A call is started once. -/
theorem started_unique {rid' : ℕ} {confirmed confirmed' twin twin' : Bool}
    (lawful : Lawful (PipelineEvent.Law env) log) (h : .started c rid confirmed twin ∈ log)
    (h' : .started c rid' confirmed' twin' ∈ log) : rid = rid' := by
  have same := lawful.unique (p := fun e => ∃ rid confirmed twin, e = .started c rid confirmed twin)
    (by rintro _ old law ⟨_, _, _, rfl⟩ _ member ⟨_, _, _, rfl⟩; exact law _ _ _ member)
    h h' ⟨_, _, _, rfl⟩ ⟨_, _, _, rfl⟩
  cases same
  rfl

/-- A number is given to one request. -/
theorem request_unique {req req' : Request} (lawful : Lawful (PipelineEvent.Law env) log)
    (h : .request rid req ∈ log) (h' : .request rid req' ∈ log) : req = req' := by
  have same := lawful.unique (p := fun e => ∃ req, e = .request rid req)
    (by rintro _ old law ⟨_, rfl⟩ _ member ⟨_, rfl⟩; exact law _ member) h h' ⟨_, rfl⟩ ⟨_, rfl⟩
  cases same
  rfl

/-- The request that a call was started for is the only one. -/
theorem Mediated.unique {rid' : ℕ} {req req' : Request} {key key' : ToolKey}
    (lawful : Lawful (PipelineEvent.Law env) log) (h : Mediated env log c rid req key)
    (h' : Mediated env log c rid' req' key') : rid = rid' ∧ req = req' := by
  obtain ⟨confirmed, twin, started⟩ := h.started
  obtain ⟨confirmed', twin', started'⟩ := h'.started
  obtain rfl := started_unique lawful started started'
  exact ⟨rfl, request_unique lawful h.received h'.received⟩

/-! ## Events of one call -/

theorem attemptsOf_append (c : ℕ) (new old : List PipelineEvent) :
    attemptsOf c (new ++ old) = attemptsOf c new + attemptsOf c old := List.countP_append

theorem outcomesOf_append (c : ℕ) (new old : List PipelineEvent) :
    outcomesOf c (new ++ old) = outcomesOf c new + outcomesOf c old := List.countP_append

theorem attemptsOf_attempt (c n : ℕ) (decided : Option UInt64) (backend : String)
    (bc : BackendCall) (shield : Bool) (log : List PipelineEvent) :
    attemptsOf c (.backendCall c n decided backend bc shield :: log) = attemptsOf c log + 1 :=
  List.countP_cons_of_pos (decide_eq_true rfl)

theorem outcomesOf_outcome (c : ℕ) (klass : FailureClass) (log : List PipelineEvent) :
    outcomesOf c (.outcome c klass :: log) = outcomesOf c log + 1 :=
  List.countP_cons_of_pos (decide_eq_true rfl)

theorem attemptsOf_eq_zero (events : List PipelineEvent)
    (other : ∀ e ∈ events, e.subject ≠ some c) :
    attemptsOf c events = 0 := by
  refine List.countP_eq_zero.mpr fun e member => ?_
  have different := other e member
  cases e <;> simp_all [PipelineEvent.isAttempt, PipelineEvent.subject]

theorem outcomesOf_eq_zero (events : List PipelineEvent)
    (other : ∀ e ∈ events, e.subject ≠ some c) :
    outcomesOf c events = 0 := by
  refine List.countP_eq_zero.mpr fun e member => ?_
  have different := other e member
  cases e <;> simp_all [PipelineEvent.isOutcome, PipelineEvent.subject]

/-- An event about `c` is not among events about others. -/
theorem mem_of_subject {e : PipelineEvent} (other : ∀ e ∈ events, e.subject ≠ some c)
    (about : e.subject = some c) (member : e ∈ events ++ log) : e ∈ log :=
  (List.mem_append.mp member).elim (fun here => absurd about (other e here)) id

/-! ## A call and its log -/

/-- What the log says about a live call. An attempt is outstanding only if every earlier one
has its outcome and none of these forbids another. -/
structure Underway (env : Env) (log : List PipelineEvent) (c : ℕ) (call : Call) : Prop where
  started : ∃ confirmed twin, .started c call.onDone.rid confirmed twin ∈ log
  unique : ∀ {rid confirmed twin}, .started c rid confirmed twin ∈ log → rid = call.onDone.rid
  admitted : Admitted env log call.onDone.rid call.req call.key
  permit : call.permit = (call.key, call.req.who.agentId)
  attempts : attemptsOf c log = call.attempt
  bound : (call.attempt : ℤ) ≤ max 1 env.cfg.retryMaxAttempts
  pending : call.pending ≤ 1
  settled : call.pending = 1 → outcomesOf c log + 1 = call.attempt
  benign : call.pending = 1 → ∀ klass, .outcome c klass ∈ log →
    klass ≠ .timeout ∧ klass ∉ env.cfg.neverRetry
  cancelled : .cancelled c ∈ log → call.cancelled = true
  dormant : env.catalog.backend call.key.backend = false →
    call.promoteArmed = false ∧ call.pending = 0 ∧ call.spent = 0

/-- Nothing that a call and its log say forbids another attempt. -/
structure Ready (env : Env) (log : List PipelineEvent) (c : ℕ) (call : Call) : Prop where
  present : env.catalog.backend call.key.backend = true
  rests : call.pending = 0
  within : (call.attempt : ℤ) + 1 ≤ max 1 env.cfg.retryMaxAttempts
  settled : outcomesOf c log = call.attempt
  benign : ∀ klass, .outcome c klass ∈ log → klass ≠ .timeout ∧ klass ∉ env.cfg.neverRetry

/-- What a decision to retry says. -/
theorem retries_spec {r : Response} {circuitOpen : Bool} {now : UInt64}
    (again : PipelineState.retries env call r circuitOpen now = true) :
    call.responded = false ∧ call.cancelled = false ∧
      (call.attempt : ℤ) < env.cfg.retryMaxAttempts ∧ circuitOpen = false ∧
      (call.req.deadlineMs = 0 ∨ now < call.req.deadlineMs) ∧
      r.klass ≠ .timeout ∧ r.klass ∉ env.cfg.neverRetry := by
  unfold PipelineState.retries at again
  simp only [Bool.and_eq_true, Bool.not_eq_true'] at again
  obtain ⟨⟨silent, runs⟩, allowed⟩ := again
  obtain ⟨fewer, shut, early, listed, -, timeout⟩ := RetryPolicy.shouldRetry_spec allowed
  refine ⟨silent, runs, fewer, shut, early, ?_, listed⟩
  intro late
  simpa [late] using (timeout late).1

namespace Underway

/-- What happens to others does not matter. -/
theorem append (h : Underway env log c call) (events : List PipelineEvent)
    (others : ∀ e ∈ events, e.subject ≠ some c) :
    Underway env (events ++ log) c call where
  started := h.started.imp fun _ => Exists.imp fun _ => List.mem_append_right _
  unique := fun member => h.unique (mem_of_subject others rfl member)
  admitted := h.admitted.mono fun _ => List.mem_append_right _
  permit := h.permit
  attempts := by rw [attemptsOf_append, attemptsOf_eq_zero events others, Nat.zero_add, h.attempts]
  bound := h.bound
  pending := h.pending
  settled := by
    rw [outcomesOf_append, outcomesOf_eq_zero events others, Nat.zero_add]
    exact h.settled
  benign := fun waits klass member => h.benign waits klass (mem_of_subject others rfl member)
  cancelled := fun member => h.cancelled (mem_of_subject others rfl member)
  dormant := h.dormant

/-- While nothing is outstanding the outcomes do not matter. -/
theorem rest (h : Underway env log c call) (same : call.Same call')
    (attempts : call'.attempt = call.attempt)
    (cancelled : call'.cancelled = call.cancelled) (rests : call'.pending = 0)
    (dormant : env.catalog.backend call.key.backend = false →
      call'.promoteArmed = false ∧ call'.spent = 0) : Underway env log c call' where
  started := same.onDone ▸ h.started
  unique := same.onDone ▸ h.unique
  admitted := by rw [same.onDone, same.req, same.key]; exact h.admitted
  permit := by rw [same.permit, same.req, same.key]; exact h.permit
  attempts := attempts ▸ h.attempts
  bound := attempts ▸ h.bound
  pending := by omega
  settled := by omega
  benign := by omega
  cancelled := cancelled ▸ h.cancelled
  dormant := fun absent => by
    rw [same.key] at absent
    exact ⟨(dormant absent).1, rests, (dormant absent).2⟩

/-- A call whose backend is there may change its references. -/
theorem outcome (h : Underway env log c call) (klass : FailureClass) (rests : call.pending = 0) :
    Underway env (.outcome c klass :: log) c call :=
  { h with
    started := h.started.imp fun _ => Exists.imp fun _ => List.mem_cons_of_mem _
    unique := fun member => h.unique (by simpa using member)
    admitted := h.admitted.mono fun _ => List.mem_cons_of_mem _
    attempts := h.attempts
    settled := by omega
    benign := by omega
    cancelled := fun member => h.cancelled (by simpa using member) }

/-- Only calls whose backend is there have anything outstanding. -/
theorem present (h : Underway env log c call) (busy : 0 < call.pending ∨ 0 < call.spent) :
    env.catalog.backend call.key.backend = true := by
  cases there : env.catalog.backend call.key.backend with
  | true => rfl
  | false =>
    obtain ⟨-, rests, gone⟩ := h.dormant there
    omega

/-- A callback is delivered, and nothing is outstanding any more. -/
theorem deliver (h : Underway env log c call) (waits : 0 < call.pending) (klass : FailureClass) :
    Underway env (.outcome c klass :: log) c call.delivered := by
  have pending := h.pending
  have present := h.present (.inl waits)
  have rests : call.delivered.pending = 0 := by simp only [Call.delivered]; omega
  have delivered : Underway env log c call.delivered := by
    refine h.rest ⟨rfl, rfl, rfl, rfl, rfl, rfl, rfl, rfl⟩ rfl rfl rests fun absent => ?_
    rw [present] at absent
    cases absent
  exact delivered.outcome klass rests

/-- A call makes an attempt. -/
theorem fire (h : Underway env log c call) (ready : Ready env log c call) (delay : UInt64)
    (upTrace : TraceContext) (n : ℕ) (decided : Option UInt64) (backend : String)
    (bc : BackendCall) (shield : Bool) :
    Underway env (.backendCall c n decided backend bc shield :: log) c
      (call.fired delay upTrace) where
  started := h.started.imp fun _ => Exists.imp fun _ => List.mem_cons_of_mem _
  unique := fun member => h.unique (by simpa using member)
  admitted := h.admitted.mono fun _ => List.mem_cons_of_mem _
  permit := h.permit
  attempts := by
    rw [attemptsOf_attempt, h.attempts]
    rfl
  bound := ready.within
  pending := by simp only [Call.fired, ready.rests]; omega
  settled := fun _ => congrArg (· + 1) ready.settled
  benign := fun _ klass member => ready.benign klass (by simpa using member)
  cancelled := fun member => h.cancelled (by simpa using member)
  dormant := fun absent => by
    change env.catalog.backend call.key.backend = false at absent
    rw [ready.present] at absent
    cases absent

/-- An outcome that is retried makes a call ready. -/
theorem ready_of_retry (h : Underway env log c call) (waits : 0 < call.pending) {r : Response}
    {circuitOpen : Bool} {now : UInt64}
    (again : PipelineState.retries env call r circuitOpen now = true) :
    Ready env (.outcome c r.klass :: log) c { call.delivered with upSpanLive := false } where
  present := h.present (.inl waits)
  rests := by
    have pending := h.pending
    simp only [Call.delivered]
    omega
  within := by
    obtain ⟨-, -, fewer, -⟩ := retries_spec again
    simp only [Call.delivered]
    omega
  settled := by
    rw [outcomesOf_outcome]
    exact h.settled (Nat.le_antisymm h.pending waits)
  benign := fun klass member => by
    obtain ⟨-, -, -, -, -, notTimeout, notNever⟩ := retries_spec again
    rcases List.mem_cons.mp member with same | member
    · cases same
      exact ⟨notTimeout, notNever⟩
    · exact h.benign (Nat.le_antisymm h.pending waits) klass member

/-- A call is ready when it starts. -/
theorem ready_of_launch {w : Waiting} {iid : String} {t0 : UInt64}
    (fresh : ∀ e ∈ log, e.subject ≠ some c)
    (present : env.catalog.backend (PipelineState.newCall w iid t0).key.backend = true)
    (twin : Bool) :
    Ready env (.started c w.onDone.rid w.confirmed twin :: log) c
      (PipelineState.newCall w iid t0) where
  present := present
  rests := rfl
  within := by simp only [PipelineState.newCall]; omega
  settled := outcomesOf_eq_zero log fresh
  benign := fun klass member => absurd rfl (fresh _ (by simpa using member))

/-- An act keeps a call in agreement with the log. -/
theorem act (act : call.Act env P hand c call' events frames) (h : Underway env log c call) :
    Underway env (events ++ log) c call' := by
  cases act with
  | touch upTrace upSpanLive upstreamDone cancelled promoteTimer kept =>
    exact { h with cancelled := fun member => kept (h.cancelled member) }
  | respond r silent =>
    exact { h.append [_] (by simp [PipelineEvent.subject]) with }
  | cancelled flag =>
    exact { h with
      started := h.started.imp fun _ => Exists.imp fun _ => List.mem_cons_of_mem _
      unique := fun member => h.unique (by simpa using member)
      admitted := h.admitted.mono fun _ => List.mem_cons_of_mem _
      benign := fun waits klass member => h.benign waits klass (by simpa using member)
      cancelled := fun _ => flag }
  | promote armed | disarm running =>
    exact { h with dormant := fun absent => ⟨rfl, (h.dormant absent).2⟩ }
  | drop running =>
    have present := h.present (.inr running)
    exact { h with dormant := fun absent => by rw [present] at absent; cases absent }
  | abandon waits =>
    have present := h.present (.inl waits)
    have pending := h.pending
    refine h.rest ⟨rfl, rfl, rfl, rfl, rfl, rfl, rfl, rfl⟩ rfl rfl (by dsimp only; omega) ?_
    intro absent
    rw [present] at absent
    cases absent
  | outcome klass waits => exact h.deliver waits klass
  | retry r circuitOpen shield now delay upTrace free waits again present shielded =>
    have delivered : Underway env (.outcome c r.klass :: log) c
        { call.delivered with upSpanLive := false } := { h.deliver waits r.klass with }
    exact delivered.fire (h.ready_of_retry waits again) ..

/-- The log says nothing yet of a call that starts. -/
theorem launch {w : Waiting} {iid : String} {t0 : UInt64}
    (fresh : ∀ e ∈ log, e.subject ≠ some c) (admitted : Admitted env log w.onDone.rid w.req w.key)
    (twin : Bool) :
    Underway env (.started c w.onDone.rid w.confirmed twin :: log) c
      (PipelineState.newCall w iid t0) := by
  have key : (PipelineState.newCall w iid t0).key = w.key := by
    simp [PipelineState.newCall, admitted.parsed]
  constructor
  · exact ⟨_, _, List.mem_cons_self ..⟩
  · intro rid confirmed twin member
    rcases List.mem_cons.mp member with same | member
    · cases same
      rfl
    · exact absurd rfl (fresh _ member)
  · rw [key]
    exact admitted.mono fun _ => List.mem_cons_of_mem _
  · rw [key]
    rfl
  · exact attemptsOf_eq_zero log fresh
  · simp only [PipelineState.newCall]
    omega
  · simp [PipelineState.newCall]
  · simp [PipelineState.newCall]
  · simp [PipelineState.newCall]
  · intro member
    exact absurd rfl (fresh _ (by simpa using member))
  · intro _
    exact ⟨rfl, rfl, rfl⟩

/-- The call that goes to a backend names the tool that was asked for. -/
theorem makeBackendCall_name (call : Call) :
    (PipelineState.makeBackendCall call).params.field? "name" = some (.str call.key.tool) := by
  unfold PipelineState.makeBackendCall
  dsimp only
  rw [Json.field?_set, if_pos rfl]
  rw [Json.isObject_erase]
  split
  · assumption
  · rfl

/-- The attempt of a call that is ready is lawful, if nobody has stopped it. -/
theorem law (h : Underway env log c call) (ready : Ready env log c call)
    (unanswered : answersTo call.onDone.rid log = 0) (runs : call.cancelled = false)
    (running : .stopped ∉ log) (decided : Option UInt64)
    (early : call.attempt ≠ 0 → ∃ now, decided = some now ∧
      (call.req.deadlineMs = 0 ∨ now < call.req.deadlineMs)) (shield : Bool) :
    (PipelineEvent.backendCall c (call.attempt + 1) decided call.key.backend
      (PipelineState.makeBackendCall call) shield).Law env log := by
  obtain ⟨trace, received⟩ := h.admitted.received
  refine ⟨call.onDone.rid, _, call.key,
    ⟨h.started, received, h.admitted.method, h.admitted.parsed, h.admitted.allowed⟩, ?_, rfl,
    ready.present, rfl, makeBackendCall_name call⟩
  constructor
  · exact_mod_cast ready.within
  · rw [h.attempts]
  · rw [ready.settled]
  · exact unanswered
  · intro member
    rw [h.cancelled member] at runs
    cases runs
  · exact running
  · exact ready.benign
  · intro later
    exact early fun first => later (by rw [first])

end Underway

/-! ## Every call and the whole log -/

/-- Every live call agrees with the log. -/
def AllUnderway (env : Env) (calls : UnorderedMap ℕ Call) (log : List PipelineEvent) : Prop :=
  ∀ c call, calls.lookup c = some call → Underway env log c call

namespace AllUnderway

variable {calls : UnorderedMap ℕ Call}

theorem append (h : AllUnderway env calls log) (events : List PipelineEvent)
    (plain : ∀ e ∈ events, e.subject = none) :
    AllUnderway env calls (events ++ log) := fun c call stored =>
  (h c call stored).append events fun e member about => by rw [plain e member] at about; cases about

/-- Something happens to one call. -/
theorem update (h : AllUnderway env calls log) (events : List PipelineEvent)
    (about : ∀ e ∈ events, e.subject = some c ∨ e.subject = none)
    (this : Underway env (events ++ log) c call') :
    AllUnderway env (calls.insert c call') (events ++ log) := by
  intro c' call'' stored
  rw [UnorderedMap.lookup_insert] at stored
  split at stored
  · next same =>
    cases stored
    exact same ▸ this
  · next other =>
    refine (h _ _ stored).append events fun e member about' => ?_
    rcases about e member with here | none
    · exact other (Option.some.inj (about'.symm.trans here))
    · rw [none] at about'
      cases about'

theorem erase (h : AllUnderway env calls log) (events : List PipelineEvent) (c : ℕ)
    (about : ∀ e ∈ events, e.subject = some c) :
    AllUnderway env (calls.erase c) (events ++ log) := by
  intro c' call' stored
  rw [UnorderedMap.lookup_erase] at stored
  split at stored
  · cases stored
  · next other =>
    refine (h _ _ stored).append events fun e member about' => ?_
    exact other (Option.some.inj (about'.symm.trans (about e member)))

end AllUnderway

namespace Core

/-- Every live call agrees with the log, and the log is lawful. -/
structure Orderly (env : Env) (k : Core) : Prop where
  numbered : Numbered k.calls k.nextRequest k.nextCall k.log
  queued : Queued env k.gov.queue k.hand k.log
  stopping : Stopping k.calls k.gov.queue k.stopping k.hand k.log
  settled : k.Settled
  underway : AllUnderway env k.calls k.log
  lawful : Lawful (PipelineEvent.Law env) k.log

/-- Nobody has answered a request that the code has in hand or a call owes an answer. -/
theorem Settled.unanswered (h : k.Settled)
    (owed : 0 < k.hand.owes rid ∨ ∃ c call, k.calls.lookup c = some call ∧ 0 < call.owes rid) :
    answersTo rid k.log = 0 := by
  have once := h rid
  have bound := Bool.toNat_le (decide (rid < k.nextRequest))
  rw [places] at once
  rcases owed with holds | ⟨c, call, stored, owes⟩
  · omega
  · have := UnorderedMap.le_total (f := fun _ call => call.owes rid) stored
    omega

namespace Orderly

/-- No event is about a call that does not exist yet. -/
theorem fresh (h : k.Orderly env) : ∀ e ∈ k.log, e.subject ≠ some k.nextCall :=
  fun _ member about => Nat.lt_irrefl _ (h.numbered.subject member about)

theorem underway_launched (h : k.Orderly env) {w : Waiting} (holds : k.hand = .waiting w)
    (iid : String) (t0 : UInt64) :
    Underway env (.started k.nextCall w.onDone.rid w.confirmed (twin k.calls w.identity) :: k.log)
      k.nextCall (PipelineState.newCall w iid t0) :=
  .launch h.fresh (h.queued.hand holds) _

theorem underway_move (m : k.Move env P k') (h : k.Orderly env) :
    AllUnderway env k'.calls k'.log := by
  have underway := h.underway
  cases m with
  | receive | answer | throw | turnAway | reject | refuse | stop =>
    exact underway.append [_] (by simp [PipelineEvent.subject])
  | launch w summary now t0 delay upTrace call holds built present =>
    subst built
    refine underway.update [_, _] (by simp [PipelineEvent.subject]) ?_
    exact (h.underway_launched holds _ t0).fire (Underway.ready_of_launch h.fresh present _) ..
  | launchAbsent w summary now t0 r call holds built =>
    subst built
    refine underway.update [_] (by simp [PipelineEvent.subject]) ?_
    exact h.underway_launched holds _ t0
  | act c call call' events frames stored act =>
    exact underway.update events act.subject ((underway _ _ stored).act act)
  | attach c call taskId stored =>
    exact underway.update [] (by simp) { underway _ _ stored with }
  | absentOutcome c call r below again top stored absent =>
    intro c' call' stored'
    by_cases same : c' = c
    · subst same
      obtain rfl := Option.some.inj (stored.symm.trans stored')
      exact (underway _ _ stored).outcome _ ((underway _ _ stored).dormant absent).2.1
    · exact (underway _ _ stored').append [_]
        (by simpa [PipelineEvent.subject] using Ne.symm same)
  | destroy c call below top stored =>
    exact underway.erase [_] c (by simp [PipelineEvent.subject])
  | _ => exact underway

theorem lawful_move (m : k.Move env P k') (h : k.Orderly env) :
    Lawful (PipelineEvent.Law env) k'.log := by
  have started : ∀ rid confirmed twin, Lawful (PipelineEvent.Law env)
      (.started k.nextCall rid confirmed twin :: k.log) := fun _ _ _ =>
    h.lawful.cons fun _ _ _ member => h.fresh _ member rfl
  cases m with
  | receive req holds =>
    exact h.lawful.cons fun _ member => Nat.lt_irrefl _ (h.numbered.request member)
  | answer | throw | turnAway | reject | refuse | stop | absentOutcome | destroy =>
    exact h.lawful.cons trivial
  | launch w summary now t0 delay upTrace call holds built present =>
    subst built
    refine (started _ _ _).cons ?_
    have runs := h.stopping.carried holds
    refine (h.underway_launched holds _ t0).law
      (Underway.ready_of_launch h.fresh present _) ?_ rfl ?_
      none (fun later => absurd rfl later) false
    · exact h.settled.unanswered (.inl (by simp [holds, Hand.owes, PipelineState.newCall]))
    · intro member
      rw [h.stopping.logged (by simpa using member)] at runs
      cases runs
  | launchAbsent => exact started _ _ _
  | act c call call' events frames stored act =>
    cases act with
    | respond | cancelled | outcome => exact h.lawful.cons trivial
    | retry r circuitOpen shield now delay upTrace free waits again present shielded =>
      refine Lawful.cons (h.lawful.cons trivial) ?_
      obtain ⟨silent, uncancelled, -, -, early, -⟩ := retries_spec again
      have underway := h.underway _ _ stored
      have delivered : Underway env (.outcome c r.klass :: k.log) c
          { call.delivered with upSpanLive := false } := { underway.deliver waits r.klass with }
      refine delivered.law (underway.ready_of_retry waits again) ?_ uncancelled ?_ (some now)
        (fun _ => ⟨now, rfl, early⟩) shield
      · have owes : 0 < call.owes call.onDone.rid := by simp [Call.owes, silent]
        exact h.settled.unanswered (.inr ⟨c, call, stored, owes⟩)
      · intro member
        rcases h.stopping.told (h.stopping.logged (by simpa using member)) with busy | all
        · rw [free] at busy
          cases busy
        · rw [all.1 stored] at uncancelled
          cases uncancelled
    | _ => exact h.lawful
  | _ => exact h.lawful

theorem initial : (Core.initial env.cfg).Orderly env where
  numbered := ⟨by simp [Core.initial, AList.lookup_empty], by simp [Core.initial],
    by simp [Core.initial]⟩
  queued := ⟨by simp [Core.initial, LocalGovernor.queue], by simp [Core.initial]⟩
  stopping := ⟨by simp [Core.initial], by simp [Core.initial], by simp [Core.initial]⟩
  settled := fun rid => by
    simp [Core.initial, places, answersTo, throwsOf, Hand.owes, LocalGovernor.waiting_initial]
  underway := fun c call stored => by simp [Core.initial, AList.lookup_empty] at stored
  lawful := .nil

/-- Every move keeps the log lawful. -/
theorem move (m : k.Move env P k') (h : k.Orderly env) : k'.Orderly env where
  numbered := h.numbered.move m
  queued := h.queued.move m
  stopping := h.stopping.move m
  settled := h.settled.move m h.numbered.new
  underway := h.underway_move m
  lawful := h.lawful_move m

end Orderly

end Core

end Perfacet
