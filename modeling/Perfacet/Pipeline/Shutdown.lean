import Perfacet.Pipeline.Guarantees

/-!
# Shutdown

`Gateway::requestStop` tells the pipeline, which tells every live call to stop waiting, and
then empties the governor's queues. Whoever still waits is answered there, and what comes
later (outcomes, promote timers, permits, new requests) sends nothing upstream.

## Main definitions

* `PipelineState.OnItsWay` — a request waits for admission, or a call runs for it

## Main results

* `orderly_shutdown` — after the shutdown everyone is answered and no attempt is made
-/

namespace Perfacet

variable {env : Env} {P : Promise} {hand : Hand} {k k' : Core} {c rid : ℕ} {call call' : Call}
  {h : List (TransitionSystem.Step PipelineState PipelineInput)} {s s' : PipelineState}
  {req : Request} {events log old new : List PipelineEvent} {calls : UnorderedMap ℕ Call}

/-! ## Calls that have responded -/

/-- Every call that has responded has answered its request. -/
def Replied (calls : UnorderedMap ℕ Call) (log : List PipelineEvent) : Prop :=
  ∀ c call, calls.lookup c = some call → call.responded = true →
    0 < answersTo call.onDone.rid log

/-- An act that makes a call respond answers its request. -/
theorem Call.Act.replied {frames : List PipelineFrame}
    (act : call.Act env P hand c call' events frames)
    (before : call.responded = true → 0 < answersTo call.onDone.rid log)
    (responded : call'.responded = true) : 0 < answersTo call'.onDone.rid (events ++ log) := by
  rw [Core.answersTo_append]
  cases act with
  | respond r silent =>
    have answered : answersTo call.onDone.rid [.answered call.onDone.rid r] = 1 := by
      simp [answersTo, PipelineEvent.isAnswer]
    exact Nat.add_pos_left (answered ▸ Nat.one_pos) _
  | _ => exact Nat.add_pos_right _ (before responded)

namespace Replied

theorem append (replied : Replied calls log) (events : List PipelineEvent) :
    Replied calls (events ++ log) := by
  intro c call stored responded
  rw [Core.answersTo_append]
  exact Nat.add_pos_right _ (replied c call stored responded)

theorem update (replied : Replied calls log)
    (this : call.responded = true → 0 < answersTo call.onDone.rid log) :
    Replied (calls.insert c call) log := by
  intro c' call' stored
  rw [UnorderedMap.lookup_insert] at stored
  split at stored
  · rw [← Option.some.inj stored]
    exact this
  · exact replied c' call' stored

theorem erase (replied : Replied calls log) (c : ℕ) : Replied (calls.erase c) log := by
  intro c' call' stored
  rw [UnorderedMap.lookup_erase] at stored
  split at stored
  · cases stored
  · exact replied c' call' stored

theorem move (m : k.Move env P k') (replied : Replied k.calls k.log) :
    Replied k'.calls k'.log := by
  cases m with
  | receive | answer | throw | turnAway | reject | refuse | absentOutcome | stop =>
    exact replied.append [_]
  | launch w summary now t0 delay upTrace call holds built =>
    -- A new call has not responded.
    subst built
    exact (replied.append [_, _]).update fun responded => by cases responded
  | launchAbsent w summary now t0 r call holds built =>
    subst built
    exact (replied.append [_]).update fun responded => by cases responded
  | act c call call' events frames stored act =>
    exact (replied.append events).update (act.replied (replied c call stored))
  | attach c call taskId stored => exact replied.update (replied c call stored)
  | destroy c => exact (replied.append [_]).erase c
  | _ => exact replied

end Replied

namespace PipelineState

theorem replied_of_run (run : (Pipeline.machine env).Run h s) : Replied s.calls s.log :=
  core_of_any_run (I := fun k => Replied k.calls k.log) run
    (fun c call stored => by simp [Core.initial, AList.lookup_empty] at stored)
    fun _ _ _ m replied => replied.move m

end PipelineState

/-! ## What the shutdown logs -/

/-- An answer, a cancellation or the end. -/
def PipelineEvent.isFarewell : PipelineEvent → Bool
  | .answered _ _ => true
  | .cancelled _ => true
  | .stopped => true
  | _ => false

/-- Nothing but answers, cancellations and the end was logged. -/
abbrev Farewell : List PipelineEvent → List PipelineEvent → Prop :=
  Grows fun e => e.isFarewell = true

theorem Farewell.foldl {α : Type*} {f : PipelineState → α → PipelineState}
    (step : ∀ s a, Farewell s.log (f s a).log) (l : List α) (s : PipelineState) :
    Farewell s.log (l.foldl f s).log := by
  induction l generalizing s with
  | nil => exact .refl _
  | cons a l ih => exact (step s a).trans (ih (f s a))

theorem throwsOf_farewell (said : Farewell old new) (rid : ℕ) :
    throwsOf rid new = throwsOf rid old := by
  obtain ⟨events, rfl, all⟩ := said
  have none : throwsOf rid events = 0 := by
    refine List.countP_eq_zero.mpr fun e member => ?_
    have kind := all e member
    cases e <;> simp [PipelineEvent.isFarewell, PipelineEvent.isThrow] at kind ⊢
  rw [Core.throwsOf_append, none, Nat.zero_add]

namespace PipelineState

theorem farewell_finish (s : PipelineState) (fin : Finish) (r : Response) (now : UInt64) :
    Farewell s.log (s.finish fin r now).log := by
  have logged := congrArg Core.log (core_finish s fin r now .empty)
  change (s.finish fin r now).log = _ at logged
  rw [logged]
  exact (Grows.refl s.log).cons rfl

theorem farewell_respond (s : PipelineState) (call : Call) (r : Response) (clk : Clock) :
    Farewell s.log (s.respond call r clk).1.log := by
  unfold respond
  split
  · exact .refl _
  · exact farewell_finish ..

theorem farewell_cancelWait (s : PipelineState) (c : ℕ) (call : Call) (clk : Clock) :
    Farewell s.log (s.cancelWait c call clk).log := by
  have answered := farewell_respond s { call with cancelled := true } cancelledResponse clk
  unfold cancelWait
  dsimp only
  split
  · exact answered.cons rfl
  · exact answered.cons rfl

theorem farewell_cancelLive (clk : String → Clock) (s : PipelineState) (id : String) :
    Farewell s.log (cancelLive clk s id).log := by
  unfold cancelLive
  split
  · exact farewell_cancelWait ..
  · exact .refl _

theorem farewell_rejectQueue (s : PipelineState) (ts : String) (clk : Clock) :
    Farewell s.log (s.rejectQueue ts clk).log := by
  refine Farewell.foldl (fun s w => ?_) _ s
  split
  · unfold rejected
    dsimp only
    generalize counted : ({ s with gov := _, counters := _ } : PipelineState) = s₁
    have same : s₁.log = s.log := by rw [← counted]
    exact same ▸ farewell_finish ..
  · exact .refl _

/-- A shutdown says that it happens, answers and cancels. -/
theorem farewell_requestStop (s : PipelineState) (calls tools : List String)
    (clk rejects : String → Clock) :
    Farewell (.stopped :: s.log) ((s.requestStop calls clk).rejectAllQueued tools rejects).log := by
  have told := Farewell.foldl (farewell_cancelLive clk) calls
    { s with stopping := true, log := .stopped :: s.log }
  exact told.trans (Farewell.foldl (fun s ts => farewell_rejectQueue s ts (rejects ts)) tools _)

/-! ## The shutdown -/

/-- A request waits for admission, or a call runs for it. -/
def OnItsWay (s : PipelineState) (rid : ℕ) : Prop :=
  (∃ ts, ∃ w ∈ s.gov.queue ts, w.cb.onDone.rid = rid) ∨
    ∃ c call, s.calls.lookup c = some call ∧ call.onDone.rid = rid

/-- What is on its way was received, and its handling did not throw. -/
theorem OnItsWay.received (way : s.OnItsWay rid) (ok : (s.core .empty).Ok env)
    (replied : Replied s.calls s.log) :
    (∃ req, .request rid req ∈ s.log) ∧ throwsOf rid s.log = 0 := by
  have places := places_of_ok ok rid
  have bound := Bool.toNat_le (decide (rid < s.nextRequest))
  rcases way with ⟨ts, w, member, rfl⟩ | ⟨c, call, stored, rfl⟩
  · obtain ⟨-, -, admitted⟩ := ok.orderly.queued.waiter member
    obtain ⟨trace, received⟩ := admitted.received
    have waits :=
      (LocalGovernor.waiting_pos_iff fun w' => decide (w'.onDone.rid = w.cb.onDone.rid)).mpr
        ⟨ts, w, member, decide_eq_true rfl⟩
    exact ⟨⟨_, received⟩, by omega⟩
  · obtain ⟨trace, received⟩ := (ok.orderly.underway c call stored).admitted.received
    refine ⟨⟨_, received⟩, ?_⟩
    cases responded : call.responded with
    | true =>
      have answered := replied c call stored responded
      omega
    | false =>
      have owed : UnorderedMap.total (fun _ call' => call'.owes call.onDone.rid) s.calls ≠ 0 := by
        rw [Ne, UnorderedMap.total_eq_zero_iff]
        intro none
        have paid := none c call stored
        simp [Call.owes, responded] at paid
      omega

theorem stop_of_step {calls tools : List String} {clk rejects : String → Clock}
    (step : s.step env (.requestStop calls tools clk rejects) = some s') :
    calls.Perm s.live.keys ∧ tools.Perm s.gov.queues.keys ∧
      s' = (s.requestStop calls clk).rejectAllQueued tools rejects := by
  obtain ⟨attempt, -⟩ := Option.filter_eq_some_iff.mp step
  simp only [PipelineState.attempt] at attempt
  split at attempt
  · next orders =>
    simp only [Bool.and_eq_true, decide_eq_true_eq] at orders
    exact ⟨orders.1.2, orders.2, (Option.some.inj attempt).symm⟩
  · cases attempt

/-- A request that was received before the shutdown, and not thrown back, has its answer when
the shutdown is over: nobody waits, and every call has responded. -/
theorem answered_of_stop (ok : (s.core .empty).Ok env) {calls tools : List String}
    {clk rejects : String → Clock}
    (step : s.step env (.requestStop calls tools clk rejects) = some s')
    (received : .request rid req ∈ s.log) (returned : throwsOf rid s.log = 0) :
    answersTo rid s'.log = 1 := by
  have ok' : (s'.core .empty).Ok env := ok.moves (step_moves ok step (keeps_none s _))
  obtain ⟨all, queues, rfl⟩ := stop_of_step step
  obtain ⟨-, told, none⟩ := told_moves env .none ok all queues clk rejects
  have begun : Farewell s.log (.stopped :: s.log) := (Grows.refl s.log).cons rfl
  have said : Farewell s.log _ := begun.trans (farewell_requestStop s calls tools clk rejects)
  generalize (s.requestStop calls clk).rejectAllQueued tools rejects = s' at ok' told none said ⊢
  obtain ⟨events, logged, -⟩ := id said
  have known : rid < s'.nextRequest := ok'.orderly.numbered.request (by
    change .request rid req ∈ s'.log
    rw [logged]
    exact List.mem_append_right _ received)
  have places := places_of_ok ok' rid
  have unqueued : LocalGovernor.waiting (fun w => decide (w.onDone.rid = rid)) s'.gov = 0 := by
    refine Nat.eq_zero_of_not_pos fun some => ?_
    obtain ⟨ts, w, member, -⟩ := (LocalGovernor.waiting_pos_iff _).mp some
    rw [none ts] at member
    cases member
  have paid : UnorderedMap.total (fun _ call => call.owes rid) s'.calls = 0 := by
    refine UnorderedMap.total_eq_zero_iff.mpr fun c call stored => ?_
    simp [Call.owes, told (·.responded = true) (fun _ => rfl) c call stored]
  rw [decide_eq_true known, throwsOf_farewell said rid, returned, unqueued, paid] at places
  simpa using places

end PipelineState

/-- When `requestStop` returns, every request that was received before it and not thrown back,
in particular every one that was on its way, has exactly one answer and never gets another; and
from its beginning on no call of a backend is made. -/
theorem orderly_shutdown (run : (Pipeline.machine env).Run h s) :
    ∀ t ∈ h, ∀ calls tools clk rejects, t.input = .requestStop calls tools clk rejects →
      (∀ rid, (t.pre.OnItsWay rid ∨
          (∃ req, .request rid req ∈ t.pre.log) ∧ .threw rid ∉ t.pre.log) →
        answersTo rid t.post.log = 1 ∧ answersTo rid s.log = 1) ∧
      ∃ later, s.log = later ++ t.pre.log ∧ ∀ c n decided backend bc circuitOpen,
        .backendCall c n decided backend bc circuitOpen ∉ later := by
  intro t member calls tools clk rejects input
  obtain ⟨earlier, before, step, -⟩ := run.of_mem member
  rw [input] at step
  have ok := PipelineState.ok_of_run before
  have kept := PipelineState.log_of_mem run member
  constructor
  · intro rid accepted
    -- what is on its way was received and has thrown nothing
    have received : (∃ req, .request rid req ∈ t.pre.log) ∧ throwsOf rid t.pre.log = 0 := by
      rcases accepted with way | ⟨received, returned⟩
      · exact way.received ok (PipelineState.replied_of_run before)
      · exact ⟨received, throwsOf_eq_zero_iff.mpr returned⟩
    obtain ⟨⟨req, received⟩, returned⟩ := received
    have answered := PipelineState.answered_of_stop ok step received returned
    have most := PipelineState.answersTo_le_one (PipelineState.ok_of_run run) rid
    have least : answersTo rid t.post.log ≤ answersTo rid s.log := kept.sublist.countP_le
    exact ⟨answered, by omega⟩
  · obtain ⟨-, -, stopped⟩ := PipelineState.stop_of_step step
    have said := PipelineState.farewell_requestStop t.pre calls tools clk rejects
    rw [← stopped] at said
    obtain ⟨events, logged, farewell⟩ := said
    obtain ⟨later, rest⟩ := kept
    refine ⟨later ++ (events ++ [.stopped]), by simp [← rest, logged], ?_⟩
    intro c n decided backend bc circuitOpen sent
    rcases List.mem_append.mp sent with sent | sent
    · -- An attempt after the shutdown would have to precede it.
      obtain ⟨newer, older, rfl⟩ := List.append_of_mem sent
      have lawful := (PipelineState.ok_of_run run).orderly.lawful
      change Lawful _ s.log at lawful
      rw [← rest, List.append_assoc] at lawful
      obtain ⟨rid, req, key, -, restrained, -⟩ := lawful.of_append
      exact restrained.running (List.mem_append_right _ (by simp [logged]))
    · rcases List.mem_append.mp sent with sent | sent
      · have kind := farewell _ sent
        cases kind
      · simp at sent

namespace ShutdownExample

open PipelineExample

/-- One slot for each tool. -/
def single : Env := gateway { perToolConcurrency := 1 }

/-- One call runs and another waits when the gateway is told to stop; then the upstream fails,
and a new request comes. -/
def inputs : List PipelineInput :=
  forwarded (PipelineExample.call "b__t" 1) ++
    [.handle (PipelineExample.call "b__t" 2) clk,
    .requestStop ["ffff"] ["b__t"] (fun _ => clk) (fun _ => clk),
    .upstream 0 failure clk, .handle (PipelineExample.call "b__t" 3) clk]

end ShutdownExample

open ShutdownExample in
theorem orderly_shutdown_two : ∃ h s, (Pipeline.machine single).Run h s ∧
    (s.stopping = true ∧ answersTo 0 s.log = 1 ∧ answersTo 1 s.log = 1) ∧
    ∀ t ∈ h, ∀ calls tools clk rejects, t.input = .requestStop calls tools clk rejects →
      (∀ rid, (t.pre.OnItsWay rid ∨
          (∃ req, .request rid req ∈ t.pre.log) ∧ .threw rid ∉ t.pre.log) →
        answersTo rid t.post.log = 1 ∧ answersTo rid s.log = 1) ∧
      ∃ later, s.log = later ++ t.pre.log ∧ ∀ c n decided backend bc circuitOpen,
        .backendCall c n decided backend bc circuitOpen ∉ later := by
  obtain ⟨h, s, run, -, reached⟩ := TransitionSystem.exists_run
    (M := Pipeline.machine single) inputs (fun _ _ => true)
    (fun s => decide (s.stopping = true ∧ answersTo 0 s.log = 1 ∧ answersTo 1 s.log = 1))
    (PipelineExample.start_init _) (by decide +kernel)
  exact ⟨h, s, run, of_decide_eq_true reached, orderly_shutdown run⟩

end Perfacet
