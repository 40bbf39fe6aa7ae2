import Perfacet.Pipeline.SpanMoves

/-!
# Every span ends once

Every step of the pipeline makes moves in the book of open spans. So the spans that the tracer
has open are, in every state of every run, those of the requests that were not answered and of
the attempts that are underway, and what has ended is never open again.

## Main definitions

* `requestsOf` — the requests that a run has received
* `SpansEnd` — what holds of the spans of a run

## Main results

* `PipelineState.attempt_booked` — every step is a sequence of moves
* `PipelineState.bookOf_sound`, `PipelineState.bookOf_later` — the book over a run
* `spans_end_once` — every span ends once
-/

namespace Perfacet

variable {env : Env} {s s' : PipelineState} {fs : List Finish} {c : ℕ}

namespace PipelineState

/-! ## Steps -/

theorem knows_of_roll (roll : (s.book fs).Roll) : s.KnowsCalls fs :=
  fun _ _ stored => roll.calls (book_calls stored)

/-- A waiter leaves its queue, with a request that was received. -/
theorem unqueue_booked (env : Env) (roll : (s.book fs).Roll) {ts : String}
    {l₁ l₂ : List (Waiter Waiting)} {waiter : Waiter Waiting}
    (split : s.gov.queue ts = l₁ ++ waiter :: l₂) :
    s.Booked env fs { s with gov := s.gov.unqueue ts waiter (l₁ ++ l₂) } ∧
      waiter.cb.onDone ∈ fs := by
  refine ⟨gov_booked fun member => .inl (LocalGovernor.mem_queue_unqueue split member), ?_⟩
  exact roll.waiting ⟨ts, waiter, by simp [split], rfl⟩

theorem cancelLive_booked (env : Env) (calls : s.KnowsCalls fs) (clk : String → Clock)
    (inflightId : String) : s.Booked env fs (s.cancelLive clk inflightId) := by
  unfold cancelLive
  split
  · next c call found =>
    obtain ⟨-, stored⟩ := liveCall_spec found
    exact cancelWait_stored env (calls c call stored) stored _
  · exact .refl

theorem requestStop_booked (env : Env) (roll : (s.book fs).Roll) (order : List String)
    (clk : String → Clock) : s.Booked env fs (s.requestStop order clk) := by
  unfold requestStop
  generalize stopping : ({ s with stopping := true, log := _ } : PipelineState) = s₁
  have same : s₁.book fs = s.book fs := by
    rw [← stopping]
    exact book_emit { s with stopping := true } fun _ => rfl
  refine (booked_of_eq same).trans ?_
  have roll₁ : (s₁.book fs).Roll := same ▸ roll
  clear stopping same
  induction order generalizing s₁ with
  | nil => exact .refl
  | cons inflightId order ih =>
    have told := cancelLive_booked env (knows_of_roll roll₁) clk inflightId
    exact told.trans (ih _ (roll₁.moves told))

theorem rejectQueue_booked (env : Env) (roll : (s.book fs).Roll) (ts : String) (clk : Clock) :
    s.Booked env fs (s.rejectQueue ts clk) := by
  unfold rejectQueue
  generalize s.gov.queue ts = turns
  induction turns generalizing s with
  | nil => exact .refl
  | cons waiter turns ih =>
    rw [List.foldl_cons]
    rcases s.gov.rejectTurn_cases ts with ⟨head, -⟩ | ⟨w, rest, front, head⟩
    · rw [head]
      exact ih roll
    · rw [head]
      obtain ⟨out, known⟩ := unqueue_booked env roll (LocalGovernor.split_front front)
      have rejected := out.trans (rejected_booked known (clk waiter.id))
      exact rejected.trans (ih (roll.moves rejected))

theorem rejectAllQueued_booked (roll : (s.book fs).Roll) (order : List String)
    (clk : String → Clock) : s.Booked env fs (s.rejectAllQueued order clk) := by
  unfold rejectAllQueued
  induction order generalizing s with
  | nil => exact .refl
  | cons ts order ih =>
    have rejected := rejectQueue_booked env roll ts (clk ts)
    exact rejected.trans (ih (roll.moves rejected))

/-- The frame on top is executed. -/
theorem runTop_booked (new : s.calls.lookup s.nextCall = none) (roll : (s.book fs).Roll)
    (clk : Clock) (ran : s.runTop env clk = some s') : s.Booked env fs s' := by
  unfold runTop at ran
  split at ran
  · next ts below _ =>
    rcases s.gov.tryDequeueTurn_cases ts (clk 0) with
      ⟨turn, -⟩ | ⟨w, rest, front, -, ⟨-, turn⟩ | ⟨-, turn⟩⟩
    · rw [turn] at ran
      exact Option.some.inj ran ▸ booked_of_eq rfl
    · rw [turn] at ran
      obtain ⟨out, known⟩ := unqueue_booked env roll (LocalGovernor.split_front front)
      rw [← Option.some.inj ran]
      exact out.trans (rejected_booked known (clk 1))
    · rw [turn] at ran
      obtain ⟨out, known⟩ := unqueue_booked env roll (LocalGovernor.split_front front)
      rw [← Option.some.inj ran]
      generalize popped : ({ s with gov := _, stack := below } : PipelineState) = s₁
      have same : s₁.book fs = ({ s with gov := s.gov.unqueue ts w ([] ++ rest) }.book fs) := by
        rw [← popped]
        rfl
      have new₁ : s₁.calls.lookup s₁.nextCall = none := by
        rw [← popped]
        exact new
      exact out.trans ((booked_of_eq same).trans (admitted_booked known new₁ (clk.after 1)))
  · next c r below _ =>
    split at ran
    · next call stored =>
      rw [← Option.some.inj ran]
      have known := knows_of_roll roll c call stored
      have popped : s.Booked env fs (({ s with stack := below } : PipelineState).put c call) :=
        booked_of_eq (book_put_self stored rfl)
      exact popped.trans (onUpstream_booked known c r clk)
    · cases ran
  · next c below _ =>
    dsimp only at ran
    split at ran
    · next call stored =>
      rw [← Option.some.inj ran]
      split
      · have known := knows_of_roll roll c call stored
        have popped : s.Booked env fs (({ s with stack := below } : PipelineState).put c call) :=
          booked_of_eq (book_put_self stored rfl)
        exact popped.trans (destroy_booked known c clk)
      · exact booked_of_eq rfl
    · cases ran
  · cases ran

end PipelineState

/-- The request that a step receives, with the closure that answers it. -/
def receivedBy (env : Env) (t : TransitionSystem.Step PipelineState PipelineInput) :
    Option Finish :=
  match t.input with
  | .handle req clk => some (t.pre.received env req clk).2.2
  | _ => none

/-- The requests that a run has received, newest first. -/
def requestsOf (env : Env) (h : List (TransitionSystem.Step PipelineState PipelineInput)) :
    List Finish :=
  h.filterMap (receivedBy env)

namespace PipelineState

/-- The book of a state that a run has reached. -/
def bookOf (env : Env) (h : List (TransitionSystem.Step PipelineState PipelineInput))
    (s : PipelineState) : SpanBook :=
  s.book (requestsOf env h)

/-- A step makes moves in the book. -/
theorem attempt_booked (new : s.calls.lookup s.nextCall = none) (queues : s.gov.QueuesOk)
    (roll : (s.book fs).Roll) {input : PipelineInput} (attempted : s.attempt env input = some s') :
    SpanBook.Moves (env.randomHex 8) (s.book fs)
      (s'.book ((receivedBy env ⟨s, input, s'⟩).toList ++ fs)) := by
  cases input with
  | handle req clk =>
    simp only [attempt, Option.ite_none_right_eq_some, Option.some.injEq] at attempted
    rw [← attempted.2]
    exact handle_booked new (knows_of_roll roll) req clk
  | queueTimer id clk =>
    simp only [attempt, Option.ite_none_right_eq_some] at attempted
    obtain ⟨-, expired⟩ := attempted
    split at expired
    · next gov w fired =>
      obtain ⟨ts, l₁, w', l₂, split, -, same⟩ := LocalGovernor.expire_cases queues fired
      cases same
      obtain ⟨out, known⟩ := unqueue_booked env roll split
      rw [← Option.some.inj expired]
      exact out.trans (rejected_booked known (clk 0))
    · next gov fired =>
      obtain ⟨ts, l₁, w', l₂, -, -, same⟩ := LocalGovernor.expire_cases queues fired
      cases same
    · cases expired
  | promote c clk =>
    simp only [attempt] at attempted
    split at attempted
    · next call _ stored =>
      simp only [Option.ite_none_right_eq_some, Option.some.injEq] at attempted
      rw [← attempted.2]
      have known := knows_of_roll roll c call stored
      -- the book does not look at timers
      have disarmed : s.Booked env fs (({ s with stack := .unref c :: s.stack } : PipelineState).put
          c { call with promoteArmed := false }) := booked_of_eq (book_put_self stored rfl)
      have known' : Call.onDone { call with promoteArmed := false } ∈ fs := known
      exact disarmed.trans (onPromote_booked known' c clk)
    · cases attempted
  | upstream c r clk =>
    simp only [attempt] at attempted
    split at attempted
    · next call _ stored =>
      simp only [Option.ite_none_right_eq_some, Option.some.injEq] at attempted
      rw [← attempted.2]
      have known := knows_of_roll roll c call stored
      -- nor does it look at how many callbacks are out
      have delivered : s.Booked env fs (s.put c call.delivered) :=
        booked_of_eq (book_put_self stored rfl)
      have known' : call.delivered.onDone ∈ fs := known
      exact delivered.trans (onUpstream_booked known' c r clk)
    · cases attempted
  | drop c =>
    simp only [attempt] at attempted
    split at attempted
    · next call _ stored =>
      simp only [Option.ite_none_right_eq_some, Option.some.injEq] at attempted
      rw [← attempted.2]
      have kept : (s.put c { call with spent := call.spent - 1 }).book fs = s.book fs :=
        book_put_self stored rfl
      exact booked_of_eq kept
    · cases attempted
  | abandon c =>
    simp only [attempt] at attempted
    split at attempted
    · next call _ stored =>
      simp only [Option.ite_none_right_eq_some, Option.some.injEq] at attempted
      rw [← attempted.2]
      have kept : (s.put c { call with pending := call.pending - 1 }).book fs = s.book fs :=
        book_put_self stored rfl
      exact booked_of_eq kept
    · cases attempted
  | backendReturns =>
    simp only [attempt] at attempted
    split at attempted
    · exact Option.some.inj attempted ▸ booked_of_eq rfl
    · cases attempted
  | requestStop calls tools clk rejects =>
    simp only [attempt, Option.ite_none_right_eq_some, Option.some.injEq] at attempted
    rw [← attempted.2]
    -- first every call is told, and then the queues are emptied
    have told := requestStop_booked env roll calls clk
    exact told.trans (rejectAllQueued_booked (roll.moves told) tools rejects)
  | toolsListed backend tools =>
    simp only [attempt, Option.ite_none_right_eq_some, Option.some.injEq] at attempted
    exact attempted.2 ▸ booked_of_eq rfl
  | probeSuccess server =>
    simp only [attempt, Option.ite_none_right_eq_some, Option.some.injEq] at attempted
    exact attempted.2 ▸ booked_of_eq rfl
  | health server state latency =>
    simp only [attempt, Option.ite_none_right_eq_some, Option.some.injEq] at attempted
    exact attempted.2 ▸ booked_of_eq rfl
  | grants table =>
    simp only [attempt, Option.ite_none_right_eq_some, Option.some.injEq] at attempted
    exact attempted.2 ▸ booked_of_eq rfl
  | run clk => exact runTop_booked new roll clk attempted

/-! ## Runs -/

variable {h : List (TransitionSystem.Step PipelineState PipelineInput)}

theorem moves_of_step (run : (Pipeline.machine env).Run h s) {input : PipelineInput}
    (step : (Pipeline.machine env).step s input = some s') (roll : (s.bookOf env h).Roll) :
    SpanBook.Moves (env.randomHex 8) (s.bookOf env h) (s'.bookOf env (⟨s, input, s'⟩ :: h)) := by
  have regular := regular_of_run run
  obtain ⟨attempted, -⟩ := Option.filter_eq_some_iff.mp step
  have moves := attempt_booked regular.ok.orderly.numbered.new regular.ok.queues roll attempted
  have received : (receivedBy env ⟨s, input, s'⟩).toList ++ requestsOf env h =
      requestsOf env (⟨s, input, s'⟩ :: h) := by
    rw [requestsOf, requestsOf, List.filterMap_cons]
    cases receivedBy env ⟨s, input, s'⟩ <;> rfl
  rw [received] at moves
  exact moves

/-- At the start the book is empty. -/
theorem initial_sound (health : UnorderedMap String (HealthState × UInt64)) (index : ToolIndex)
    (grants : GrantTable) :
    ((PipelineState.initial env health index grants).bookOf env []).Sound (env.randomHex 8) := by
  have holds : ∀ o i, ¬ ((PipelineState.initial env health index grants).bookOf env []).holds
      o i := by
    rintro (f | ⟨c, n⟩) i held
    · cases held.1
    · obtain ⟨call, stored, -⟩ := held
      cases stored
  constructor
  · refine ⟨fun waits => ?_, fun stored => ?_, fun member => ?_, fun answered => ?_,
      fun member => ?_⟩
    · obtain ⟨ts, w, member, -⟩ := waits
      cases member
    · cases stored
    · cases member
    · cases answered
    · cases member
  · refine ⟨⟨fun out => ?_, fun owed => ?_⟩, fun held => ?_, fun held => ?_⟩
    · cases out
    · obtain ⟨o, held, -⟩ := owed
      exact absurd held (holds o _)
    · exact absurd held (holds _ _)
    · exact absurd held (holds _ _)

/-- In every state that a run reaches, the book can be trusted. -/
theorem bookOf_sound (run : (Pipeline.machine env).Run h s) :
    (s.bookOf env h).Sound (env.randomHex 8) := by
  induction run with
  | start first =>
    obtain ⟨health, index, grants, rfl⟩ := first
    exact initial_sound health index grants
  | next before step ih =>
    exact SpanBook.sound_of_moves (env.distinct 8) ih (moves_of_step before step ih.roll)

/-- What has become of the spans since a step. -/
theorem bookOf_later {later earlier : List (TransitionSystem.Step PipelineState PipelineInput)}
    {t : TransitionSystem.Step PipelineState PipelineInput}
    (run : (Pipeline.machine env).Run (later ++ t :: earlier) s) :
    Leases.Later ((t.post.bookOf env (t :: earlier)).leases (env.randomHex 8))
      ((s.bookOf env (later ++ t :: earlier)).leases (env.randomHex 8)) := by
  induction later generalizing s with
  | nil => cases run with
    | next before step => exact .refl _
  | cons u later ih => cases run with
    | next before step =>
      have roll := (bookOf_sound before).roll
      exact (ih before).trans
        (SpanBook.later_of_moves (env.distinct 8) roll (moves_of_step before step roll))

end PipelineState

variable {h : List (TransitionSystem.Step PipelineState PipelineInput)}

/-- Every span of a run `h` that has reached `s` ends once. -/
structure SpansEnd (env : Env) (h : List (TransitionSystem.Step PipelineState PipelineInput))
    (s : PipelineState) : Prop where
  /-- The spans of a request are open until it is answered, which happens once. -/
  requests : ∀ f ∈ requestsOf env h, ∀ id, f.HasSpan id →
    (answersTo f.rid s.log = 0 ∧ s.SpanOpen id) ∨ (answersTo f.rid s.log = 1 ∧ ¬ s.SpanOpen id)
  /-- The span of an attempt is open as long as the call lives and the attempt is underway; it
  has ended before the call makes another one. -/
  attempts : ∀ t ∈ h, ∀ c call, t.post.calls.lookup c = some call → call.upSpanLive = true →
    (s.SpanOpen call.upTrace.spanId ↔ ∃ call', s.calls.lookup c = some call' ∧
      call'.attempt = call.attempt ∧ call'.upSpanLive = true ∧
        call'.upTrace.spanId = call.upTrace.spanId)
  /-- There are no other spans. -/
  owned : ∀ id, s.SpanOpen id → (∃ f ∈ requestsOf env h, f.HasSpan id) ∨
    ∃ c call, s.calls.lookup c = some call ∧ call.upSpanLive = true ∧ call.upTrace.spanId = id
  /-- What has ended is not open again. -/
  ended : ∀ t ∈ h, ∀ id, t.pre.SpanOpen id → ¬ t.post.SpanOpen id → ¬ s.SpanOpen id
  /-- When all requests are answered and no call lives, the tracer holds nothing. -/
  empty : (∀ f ∈ requestsOf env h, answersTo f.rid s.log ≠ 0) → s.calls = ∅ → s.tracer.live = ∅

namespace PipelineState

/-- An attempt that is underway holds its span. -/
theorem holds_attempt_iff {id : String} (fs : List Finish) (s : PipelineState) (c n : ℕ) :
    (s.book fs).holds (.attempt c n) id ↔ ∃ call, s.calls.lookup c = some call ∧
      call.attempt = n ∧ call.upSpanLive = true ∧ call.upTrace.spanId = id := by
  constructor
  · rintro ⟨known, entered, made, opened⟩
    obtain ⟨call, stored, rfl⟩ := Option.map_eq_some_iff.mp entered
    refine ⟨call, stored, made, ?_⟩
    cases live : call.upSpanLive with
    | true =>
      rw [Call.spanCall, live] at opened
      exact ⟨rfl, Option.some.inj opened⟩
    | false =>
      rw [Call.spanCall, live] at opened
      cases opened
  · rintro ⟨call, stored, made, live, same⟩
    refine ⟨call.spanCall, book_calls stored, made, ?_⟩
    rw [Call.spanCall, live, ← same]
    rfl

end PipelineState

/-- Every span ends once: the spans of a request when it is answered, the span of an attempt
before the next one of the call, or when the call goes. -/
theorem spans_end_once (run : (Pipeline.machine env).Run h s) : SpansEnd env h s := by
  obtain ⟨roll, balanced⟩ := PipelineState.bookOf_sound run
  -- a request holds its two spans until it is answered
  have request : ∀ f ∈ requestsOf env h, ∀ id, f.HasSpan id →
      (s.SpanOpen id ↔ ¬ 0 < answersTo f.rid s.log) := fun f member id mine => by
    have held : ((s.bookOf env h).leases (env.randomHex 8)).holds (.request f) id :=
      ⟨member, mine⟩
    exact balanced.out_iff held
  -- whatever is out is held by a request or by an attempt
  have owned : ∀ id, s.SpanOpen id → (∃ f ∈ requestsOf env h, f.HasSpan id) ∨
      ∃ c call, s.calls.lookup c = some call ∧ call.upSpanLive = true ∧
        call.upTrace.spanId = id := fun id out => by
    obtain ⟨f | ⟨c, n⟩, held, -⟩ := balanced.out.mp out
    · exact .inl ⟨f, held⟩
    · obtain ⟨call, stored, -, live, same⟩ := (PipelineState.holds_attempt_iff _ s c n).mp held
      exact .inr ⟨c, call, stored, live, same⟩
  refine ⟨fun f member id mine => ?_, fun t member c call stored live => ?_, owned,
    fun t member id before after => ?_, fun answered none => ?_⟩
  · have once := PipelineState.answersTo_le_one (PipelineState.ok_of_run run) f.rid
    rw [request f member id mine]
    omega
  · obtain ⟨later, earlier, rfl⟩ := List.append_of_mem member
    obtain ⟨reached, -, -⟩ := run.of_append
    have sound := PipelineState.bookOf_sound reached
    have held : ((t.post.bookOf env (t :: earlier)).leases (env.randomHex 8)).holds
        (.attempt c call.attempt) call.upTrace.spanId :=
      (PipelineState.holds_attempt_iff ..).mpr ⟨call, stored, rfl, live, rfl⟩
    refine (sound.balanced.out_iff_later balanced (PipelineState.bookOf_later run) held).trans ?_
    exact (and_iff_left trivial).trans (PipelineState.holds_attempt_iff _ s c call.attempt)
  · obtain ⟨later, earlier, rfl⟩ := List.append_of_mem member
    obtain ⟨reached, begun, step⟩ := run.of_append
    have sound := PipelineState.bookOf_sound begun
    -- an id that was used is never drawn again, so the span stays ended
    have used := sound.balanced.used (sound.balanced.out.mp before).choose_spec.1
    have moved := SpanBook.later_of_moves (env.distinct 8) sound.roll
      (PipelineState.moves_of_step begun step sound.roll)
    exact (PipelineState.bookOf_later run).not_out (moved.used used) after
  · refine UnorderedMap.eq_empty_iff.mpr fun id => ?_
    by_contra there
    have out : s.SpanOpen id := Option.isSome_iff_ne_none.mpr there
    refine balanced.not_out ?_ out
    rintro (f | ⟨c, n⟩) i held owes
    · exact owes (Nat.pos_of_ne_zero (answered f held.1))
    · obtain ⟨call, stored, -⟩ := (PipelineState.holds_attempt_iff _ s c n).mp held
      rw [none] at stored
      cases stored

open PipelineExample in
/-- A call was tried twice, has its answer and is gone, and no span is left. -/
theorem spans_end_once_retried : ∃ h s, (Pipeline.machine (gateway {})).Run h s ∧
    s.nextRequest = 1 ∧ attemptsOf 0 s.log = 2 ∧ SpansEnd (gateway {}) h s ∧
      s.tracer.live = ∅ := by
  obtain ⟨h, s, run, -, reached⟩ := TransitionSystem.exists_run
    (M := Pipeline.machine (gateway {}))
    (forwarded (call "b__t" 1) ++ [.upstream 0 failure clk, .backendReturns, .drop 0, .run clk] ++
      finished 0) (fun _ _ => true)
    (fun s => decide (s.nextRequest = 1) && decide (attemptsOf 0 s.log = 2) &&
      decide (answersTo 0 s.log = 1) && s.calls.entries.isEmpty)
    (start_init _) (by decide +kernel)
  simp only [Bool.and_eq_true, decide_eq_true_eq, List.isEmpty_iff] at reached
  obtain ⟨⟨⟨one, twice⟩, answered⟩, none⟩ := reached
  have ended := spans_end_once run
  refine ⟨h, s, run, one, twice, ended, ended.empty (fun f member => ?_) ?_⟩
  · have known : f.rid < s.nextRequest := (PipelineState.bookOf_sound run).roll.rid_lt member
    have first : f.rid = 0 := by omega
    rw [first, answered]
    exact one_ne_zero
  · exact UnorderedMap.eq_empty_iff.mpr fun c => by
      by_contra there
      obtain ⟨call, stored⟩ := Option.ne_none_iff_exists'.mp there
      have member := UnorderedMap.mem_entries_iff.mpr stored
      rw [none] at member
      cases member

end Perfacet
