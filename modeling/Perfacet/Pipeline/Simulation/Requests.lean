import Perfacet.Pipeline.Simulation.Calls

/-!
# The pipeline does what its core can do: requests

The way of a request through `handle`, from its arrival to its answer or to the governor, and
from there into a call, is a row of moves of the core.

## Main results

* `PipelineState.handle_moves`, `admitted_moves` — receiving and admitting are rows of moves
-/

namespace Perfacet

variable {env : Env} {P : Promise} {hand : Hand} {s : PipelineState} {c : ℕ} {call : Call}

namespace PipelineState

/-! ## Admission -/

variable {g : LocalGovernor Waiting} {w : Waiting}

/-- A permit that is not used goes back. -/
theorem refused_moves (s : PipelineState) (taken : s.gov = g.take w.key.str w.req.who.agentId)
    (circuitOpen : Bool) (now : UInt64) :
    Core.Moves env P { s.core (.waiting w) with gov := g }
      ((s.refused w circuitOpen now).core .empty) := by
  have back : Core.Move env P { s.core (.waiting w) with gov := g } _ :=
    .refuse w (stamp w.onDone (.ofText .unavailable "upstream unavailable") now) rfl
  simp only [← taken] at back
  have released : ∀ s' : PipelineState,
      ((s'.finish w.onDone (.ofText .unavailable "upstream unavailable") now).releasePermit
        (w.key, w.req.who.agentId)).core .empty =
      (fun k : Core => { k with
        gov := k.gov.releaseSlot w.key w.req.who.agentId
        stack := .dequeue w.key.str :: k.stack })
      ((s'.finish w.onDone (.ofText .unavailable "upstream unavailable") now).core .empty) :=
    fun _ => rfl
  unfold refused
  cases circuitOpen with
  | false =>
    rw [if_neg (by decide), released, core_finish]
    exact .single back
  | true =>
    rw [if_pos rfl, released, core_finish]
    exact .single back

/-- A permit that is used goes into a call. -/
theorem startCall_moves (s : PipelineState) (taken : s.gov = g.take w.key.str w.req.who.agentId)
    (summary : String) (now : UInt64) (clk : Clock)
    (parsed : ToolKey.parse w.req.name = some w.key)
    (shut : s.circuit.st w.key.backend ≠ .opened) :
    Core.Moves env P { s.core (.waiting w) with gov := g }
      ((s.startCall env w summary now clk).core .empty) := by
  unfold startCall
  dsimp only [draw]
  have key : (newCall w (env.randomHex 16 s.draws) (clk 0)).key = w.key := by
    simp [newCall, parsed]
  cases present : env.catalog.backend w.key.backend with
  | true =>
    rw [← key] at present
    obtain ⟨n, delay, upTrace, fired⟩ := core_fireAttempt _ s.nextCall _ present none
      (clk.after 1) .empty
    have launched : Core.Move env P { s.core (.waiting w) with gov := g } _ :=
      .launch w summary now (clk 0) delay upTrace _ rfl rfl present
    simp only [Core.launched, ← taken] at launched
    rw [← key] at shut
    rw [fired, CountCircuit.isOpen_of_ne (by exact shut)]
    exact (Relation.ReflTransGen.single launched).trans (Core.ticks _ n)
  | false =>
    rw [← key] at present
    obtain ⟨r, fired⟩ := core_fireAttempt_absent _ s.nextCall _ present none
      (clk.after 1) .empty
    have launched : Core.Move env P { s.core (.waiting w) with gov := g } _ :=
      .launchAbsent w summary now (clk 0) r _ rfl rfl present
    simp only [Core.launched, ← taken] at launched
    rw [fired]
    exact .single launched

/-- A request that is admitted becomes a call, or is answered and its permit returned. -/
theorem admitted_moves (s : PipelineState) (taken : s.gov = g.take w.key.str w.req.who.agentId)
    (clk : Clock) (parsed : ToolKey.parse w.req.name = some w.key)
    (alive : (s.admitted env w clk).terminated = false) :
    Core.Moves env P { s.core (.waiting w) with gov := g }
      ((s.admitted env w clk).core .empty) := by
  have shut : (s.circuit.isOpen w.key.backend (clk 0)).2 = false →
      (s.circuit.isOpen w.key.backend (clk 0)).1.st w.key.backend ≠ .opened :=
    CountCircuit.st_of_isOpen
  revert alive shut
  unfold admitted
  dsimp only
  generalize s.circuit.isOpen w.key.backend (clk 0) = seen
  obtain ⟨circuit, circuitOpen⟩ := seen
  intro alive shut
  dsimp only at alive shut ⊢
  split at alive
  · next barred =>
    rw [if_pos barred]
    exact refused_moves { s with circuit := circuit } taken circuitOpen (clk 1)
  · next usable =>
    rw [if_neg usable]
    split at alive
    · cases alive
    · next summary _ =>
      simp only [Bool.or_eq_true, not_or, Bool.not_eq_true] at usable
      exact startCall_moves { s with circuit := circuit } taken summary (clk 0) (clk.after 1)
        parsed (shut usable.1)

@[simp] theorem core_rejected (s : PipelineState) (w : Waiting) (now : UInt64) (hand : Hand) :
    (s.rejected w now).core hand =
      (s.core hand).emit (.answered w.onDone.rid (stamp w.onDone (.ofText .throttled "throttled")
        now)) := by
  unfold rejected
  dsimp only
  rw [core_finish, core_counters]

/-- A request that is handed to the governor is admitted, waits, or is turned away. -/
theorem acquire_moves (s : PipelineState) (clk : Clock)
    (parsed : ToolKey.parse w.req.name = some w.key)
    (alive : (s.acquire env w clk).terminated = false) :
    Core.Moves env P (s.core (.waiting w)) ((s.acquire env w clk).core .empty) := by
  revert alive
  unfold acquire
  rcases s.gov.acquire_cases w.req.who w.key (clk 0 + queueWait env w.key) w (clk 1) with
    ⟨-, go⟩ | ⟨-, deadline, -, queued⟩ | ⟨-, reject⟩
  · rw [go]
    intro alive
    exact admitted_moves { s with gov := _ } rfl (clk.after 2) parsed alive
  · rw [queued]
    intro _
    exact .single (.enqueue w deadline rfl)
  · rw [reject]
    intro _
    dsimp only
    rw [core_rejected]
    exact .single (.turnAway w _ rfl)

/-! ## Requests -/

/-- Every live call has a backend that is there. -/
def AllPresent (env : Env) (s : PipelineState) : Prop :=
  ∀ c call, s.calls.lookup c = some call → env.catalog.backend call.key.backend = true

theorem liveCall_spec {id : String} (found : s.liveCall id = some (c, call)) :
    s.live.lookup id = some c ∧ s.calls.lookup c = some call := by
  unfold liveCall at found
  cases live : s.live.lookup id with
  | none => rw [live] at found; cases found
  | some c' =>
    rw [live] at found
    obtain ⟨call', stored, same⟩ := Option.map_eq_some_iff.mp found
    cases same
    exact ⟨rfl, stored⟩

/-- Telling the client about a task is no move. -/
theorem core_tellTask (s : PipelineState) (taskId : String) (now : UInt64) (ctx : TraceContext) :
    (if (s.answerTask taskId now).2.klass = .ok then
        (s.answerTask taskId now).1.setSpan ctx "task_id" taskId
      else (s.answerTask taskId now).1).core hand = s.core hand := by
  split
  · rw [core_setSpan, answerTask_core]
  · rw [answerTask_core]

theorem duplicateTask_moves (s : PipelineState) (req : Request) (key : ToolKey)
    (hit : InFlightEntry) (orig : Option (ℕ × Call)) (clk : Clock)
    (known : ∀ c call, orig = some (c, call) → s.calls.lookup c = some call ∧
      call.taskId = "" ∧ env.catalog.backend call.key.backend = true)
    (unknown : orig = none → ∀ c, s.live.lookup hit.inflightId = some c →
      s.calls.lookup c = none) :
    Core.Moves env P (s.core hand) ((s.duplicateTask env req key hit orig clk).1.core hand) := by
  unfold duplicateTask
  dsimp only [draw]
  generalize MemTaskStore.insert _ _ _ = inserted
  obtain ⟨tasks, stored⟩ := inserted
  cases stored with
  | false => exact Core.ticks _ 1
  | true =>
    simp only [Bool.not_true, Bool.false_eq_true, if_false]
    rw [core_tellTask]
    cases orig with
    | none => exact (Core.ticks _ 1).tail (.mark hit.inflightId _ (unknown rfl))
    | some found =>
      obtain ⟨c, call⟩ := found
      obtain ⟨live, without, present⟩ := known c call rfl
      exact (Core.put_self _ live).trans (attachTask_moves s _ rfl tasks without present)

theorem liveCall_eq_none {id : String} (absent : s.liveCall id = none) :
    s.live.lookup id = some c → s.calls.lookup c = none := by
  intro live
  rw [liveCall, live] at absent
  exact Option.map_eq_none_iff.mp absent

theorem taskId_of_knownTask {hit : InFlightEntry} {orig : Option (ℕ × Call)}
    (none : (knownTask hit orig).isEmpty) (found : orig = some (c, call)) : call.taskId = "" := by
  rw [found, knownTask] at none
  split at none
  · exact String.isEmpty_iff.mp none
  · contradiction

theorem answerDuplicate_moves (s : PipelineState) (req : Request) (key : ToolKey)
    (hit : InFlightEntry) (clk : Clock) (present : s.AllPresent env) :
    Core.Moves env P (s.core hand) ((s.answerDuplicate env req key hit clk).1.core hand) := by
  unfold answerDuplicate
  dsimp only
  split
  · split
    · next none =>
      generalize told : setSpan (setSpan _ _ _ _) _ _ _ = s' at none
      have same : ∀ hand, s'.core hand = s.core hand := by
        intro hand
        rw [← told]
        exact rfl
      have calls : s'.calls = s.calls := congrArg Core.calls (same .empty)
      rw [← same]
      refine duplicateTask_moves s' req key hit _ clk (fun c call found => ?_)
        fun absent c => liveCall_eq_none absent
      have stored := (liveCall_spec found).2
      exact ⟨stored, taskId_of_knownTask none found, present c call (calls ▸ stored)⟩
    · rw [core_tellTask]
      exact .refl
  · exact .refl

theorem handleBuiltin_moves (s : PipelineState) (req : Request) (key : ToolKey) (clk : Clock) :
    Core.Moves env P (s.core hand) ((s.handleBuiltin env req key clk).1.core hand) := by
  unfold handleBuiltin
  split
  · split
    · exact .refl
    · dsimp only
      split
      · exact .refl
      · split
        · exact .refl
        · split
          · exact .refl
          · exact Core.ticks _ 1
  · split
    · split
      · exact .refl
      · exact .refl
    · exact .refl

/-- A request that the code has in hand is answered. -/
theorem answer_moves (s : PipelineState) (fin : Finish) (r : Response) (now : UInt64) :
    Core.Moves env P (s.core (.request fin.rid)) ((s.finish fin r now).core .empty) := by
  rw [core_finish]
  exact .single (.answer fin.rid _ rfl)

theorem handOver_moves (s : PipelineState) (clk : Clock)
    (admitted : Admitted env s.log w.onDone.rid w.req w.key)
    (accepted : s.stopping = false → P.accept s.gov s.inflight s.calls w)
    (alive : (s.handOver env w clk).terminated = false) :
    Core.Moves env P (s.core (.request w.onDone.rid)) ((s.handOver env w clk).core .empty) := by
  revert alive
  unfold handOver
  dsimp only
  generalize counted : (if w.confirmed then _ else s : PipelineState) = s'
  have same : ∀ hand, s'.core hand = s.core hand := by
    intro hand
    rw [← counted]
    split <;> rfl
  have stopping : s'.stopping = s.stopping := congrArg Core.stopping (same .empty)
  rw [stopping, ← same]
  split
  · intro _
    exact answer_moves s' w.onDone _ _
  · next runs =>
    intro alive
    rw [Bool.not_eq_true] at runs
    have accept : Core.Move env P (s'.core (.request w.onDone.rid)) (s'.core (.waiting w)) := by
      rw [same, same]
      exact .accept w rfl runs admitted (accepted runs)
    exact (Relation.ReflTransGen.single accept).trans (acquire_moves s' clk admitted.parsed alive)

theorem handleUpstream_moves (s : PipelineState) (req : Request) (key : ToolKey) (fin : Finish)
    (clk : Clock) (present : s.AllPresent env) (admitted : Admitted env s.log fin.rid req key)
    (accepts : (s.core hand).Accepts env P fin.rid req)
    (alive : (s.handleUpstream env req key fin clk).terminated = false) :
    Core.Moves env P (s.core (.request fin.rid))
      ((s.handleUpstream env req key fin clk).core .empty) := by
  have threw : Core.Moves env P (s.core (.request fin.rid))
      ((s.emit (.threw fin.rid)).core .empty) :=
    .single (.throw fin.rid rfl)
  revert alive
  unfold handleUpstream
  cases hashed : paramsHashOf req.params with
  | error e => exact fun _ => threw
  | ok hash =>
    cases token : confirmToken req with
    | error e => exact fun _ => threw
    | ok confirm =>
      -- A request that presents the right token, or has no duplicate, reaches the governor.
      have reaches : ∀ w : Waiting, w = ⟨req, key, hash, fin,
            tokenMatches confirm (s.inflight.lookup req.who.agentId key hash)⟩ →
          (s.inflight.lookup req.who.agentId key hash = none ∨ w.confirmed = true) →
          s.stopping = false → (s.core hand).Reaches env fin.rid req w := by
        rintro w rfl fresh runs
        exact ⟨rfl, rfl, rfl, admitted.method, admitted.parsed, admitted.allowed, hashed, runs,
          ⟨confirm, token, rfl⟩, fresh⟩
      revert reaches
      dsimp only
      generalize s.inflight.lookup req.who.agentId key hash = hit
      intro reaches
      have handed : ∀ w : Waiting, w = ⟨req, key, hash, fin, tokenMatches confirm hit⟩ →
          (hit = none ∨ w.confirmed = true) → (s.handOver env w clk).terminated = false →
          Core.Moves env P (s.core (.request fin.rid)) ((s.handOver env w clk).core .empty) := by
        rintro w rfl fresh alive
        exact handOver_moves s clk admitted (fun runs => accepts _ (reaches _ rfl fresh runs)) alive
      cases hit with
      | none => exact handed _ rfl (.inl rfl)
      | some e =>
        cases matched : tokenMatches confirm (some e) with
        | true => exact handed _ (by rw [matched]) (.inr rfl)
        | false =>
          intro _
          exact (answerDuplicate_moves s req key e clk present).trans (answer_moves _ fin _ _)

theorem handleCall_moves (s : PipelineState) (req : Request) (fin : Finish) (clk : Clock)
    (present : s.AllPresent env)
    (received : ∃ trace, .request fin.rid { req with trace := trace } ∈ s.log)
    (method : req.method = "tools/call") (accepts : (s.core hand).Accepts env P fin.rid req)
    (alive : (s.handleCall env req fin clk).terminated = false) :
    Core.Moves env P (s.core (.request fin.rid))
      ((s.handleCall env req fin clk).core .empty) := by
  revert alive
  unfold handleCall
  cases parsed : ToolKey.parse req.name with
  | none => exact fun _ => answer_moves s fin _ _
  | some key =>
    dsimp only
    cases allowed : RankPolicy.authorizeCall env.catalog req.who key with
    | unknown => exact fun _ => answer_moves s fin _ _
    | deny => exact fun _ => answer_moves s fin _ _
    | allow =>
      dsimp only
      split
      · intro _
        have built : Core.Moves env P (s.core (.request fin.rid)) _ :=
          handleBuiltin_moves s req key clk
        revert built
        generalize s.handleBuiltin env req key clk = done
        obtain ⟨s', outcome⟩ := done
        intro built
        cases outcome with
        | ok r => exact built.trans (answer_moves s' fin r _)
        | error e => exact built.tail (.throw fin.rid rfl)
      · exact handleUpstream_moves s req key fin clk present
          ⟨received, method, parsed, allowed⟩ accepts

@[simp] theorem core_getTask (s : PipelineState) (taskId : String) (who : Principal)
    (now : UInt64) (hand : Hand) : (s.getTask taskId who now).1.core hand = s.core hand := rfl

/-- Stopping to wait for the call of a task. -/
theorem cancelByTask_moves (s : PipelineState) (taskId : String) (clk : Clock) :
    Core.Moves env P (s.core hand)
      ((match s.byTask.lookup taskId with
        | some c =>
          match s.calls.lookup c with
          | some call => s.cancelWait c call clk
          | none => s
        | none => s : PipelineState).core hand) := by
  cases s.byTask.lookup taskId with
  | none => exact .refl
  | some c =>
    dsimp only
    cases stored : s.calls.lookup c with
    | none => exact .refl
    | some call => exact (Core.put_self _ stored).trans (cancelWait_moves s clk)

theorem cancelTask_moves (s : PipelineState) (taskId : String) (who : Principal) (fin : Finish)
    (clk : Clock) :
    Core.Moves env P (s.core (.request fin.rid))
      ((s.cancelTask taskId who fin clk).core .empty) := by
  have read := core_getTask s taskId who (clk 0) (.request fin.rid)
  rw [← read]
  unfold cancelTask
  generalize s.getTask taskId who (clk 0) = found
  obtain ⟨s', task⟩ := found
  cases task with
  | none => exact answer_moves s' fin _ _
  | some t =>
    exact (cancelByTask_moves
      { s' with tasks := s'.tasks.updateStatus taskId .cancelled .null (clk 1) } taskId
      (clk.after 2)).trans (answer_moves _ fin _ _)

theorem dispatch_moves (s : PipelineState) (req : Request) (fin : Finish) (clk : Clock)
    (hand : Hand) (present : s.AllPresent env)
    (received : ∃ trace, .request fin.rid { req with trace := trace } ∈ s.log)
    (accepts : (s.core hand).Accepts env P fin.rid req)
    (alive : (s.dispatch env req fin clk).terminated = false) :
    Core.Moves env P (s.core (.request fin.rid))
      ((s.dispatch env req fin clk).core .empty) := by
  revert alive
  unfold dispatch
  split
  · exact fun _ => answer_moves s fin _ _
  split
  · exact fun _ => answer_moves s fin _ _
  split
  · have read := core_getTask s req.name req.who (clk 0) (.request fin.rid)
    rw [← read]
    generalize s.getTask req.name req.who (clk 0) = found
    obtain ⟨s', task⟩ := found
    cases task with
    | none => exact fun _ => answer_moves s' fin _ _
    | some t => exact fun _ => answer_moves s' fin _ _
  split
  · exact fun _ => cancelTask_moves s req.name req.who fin clk
  split
  · next method => exact handleCall_moves s req fin clk present received method accepts
  · exact fun _ => answer_moves s fin _ _

/-- Receiving a request logs it and draws ids. -/
theorem received_spec (env : Env) (s : PipelineState) (req : Request) (clk : Clock) (hand : Hand) :
    ∃ n, (s.received env req clk).1.core hand =
        ({ s.core hand with
          nextRequest := s.nextRequest + 1
          log := .request s.nextRequest req :: s.log } : Core).advance n ∧
      (∃ trace, (s.received env req clk).2.1 = { req with trace := trace }) ∧
      (s.received env req clk).2.2.rid = s.nextRequest := by
  unfold received
  dsimp only
  obtain ⟨n, total⟩ := core_startSpan env
    { s with nextRequest := s.nextRequest + 1, log := .request s.nextRequest req :: s.log } req
    "total" (clk 1) hand
  revert total
  generalize startSpan env _ req "total" (clk 1) = opened
  intro total
  obtain ⟨m, gateway⟩ := core_startSpan env opened.1
    { req with trace := opened.2 } "gateway" (clk 2) hand
  refine ⟨n + m, ?_, ⟨_, rfl⟩, rfl⟩
  rw [gateway, total]
  simp only [Core.advance, Nat.add_assoc]
  rfl

/-- A request comes in. -/
theorem handle_moves (s : PipelineState) (req : Request) (clk : Clock)
    (present : s.AllPresent env)
    (accepts : (s.core .empty).Accepts env P s.nextRequest req)
    (alive : (s.handle env req clk).terminated = false) :
    Core.Moves env P (s.core .empty) ((s.handle env req clk).core .empty) := by
  obtain ⟨n, opened, ⟨trace, traced⟩, rid⟩ := received_spec env s req clk (.request s.nextRequest)
  have received : Core.Moves env P (s.core .empty)
      ((s.received env req clk).1.core (.request s.nextRequest)) := by
    rw [opened]
    exact (Relation.ReflTransGen.single (.receive req rfl)).trans (Core.ticks _ n)
  refine received.trans ?_
  revert alive
  unfold handle
  revert opened traced rid
  generalize s.received env req clk = start
  obtain ⟨s', req', fin⟩ := start
  intro opened rid traced alive
  dsimp only at opened traced rid
  subst traced
  rw [← rid]
  have log : s'.log = .request fin.rid req :: s.log := by
    rw [rid]
    exact congrArg Core.log opened
  have calls : s'.calls = s.calls := congrArg Core.calls opened
  refine dispatch_moves s' _ fin (clk.after 3) (.request s.nextRequest)
    (fun c call stored => present c call (calls ▸ stored)) ⟨req.trace, ?_⟩ ?_ alive
  · rw [log]
    exact List.mem_cons_self
  · rw [opened, rid]
    exact fun w reaches => accepts w { reaches with }

end PipelineState

end Perfacet
