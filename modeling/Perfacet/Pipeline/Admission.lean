import Perfacet.Pipeline.Resources

/-!
# Admission and shutdown

What is known of the requests that wait, of the numbers that requests and calls get, and of
a gateway that stops.

## Main results

* `Numbered.move` — requests and calls are numbered in the order in which they come
* `Queued.move` — what waits for admission was allowed
* `Stopping.move` — after the shutdown nobody waits and every call is cancelled
-/

namespace Perfacet

variable {env : Env} {P : Promise} {hand : Hand} {k k' : Core} {c c' rid : ℕ}
  {call call' : Call} {log events : List PipelineEvent} {frames : List PipelineFrame}

/-- The call that an event is about. -/
def PipelineEvent.subject : PipelineEvent → Option ℕ
  | .started c _ _ _ => some c
  | .backendCall c _ _ _ _ _ => some c
  | .outcome c _ => some c
  | .cancelled c => some c
  | .destroyed c => some c
  | _ => none

theorem Call.Act.subject (act : call.Act env P hand c call' events frames) :
    ∀ e ∈ events, e.subject = some c ∨ e.subject = none := by
  cases act <;> simp [PipelineEvent.subject]

/-- Acts are not requests, starts or the end. -/
theorem Call.Act.plain (act : call.Act env P hand c call' events frames) :
    ∀ e ∈ events, (∀ rid req, e ≠ .request rid req) ∧ (∀ c rid f t, e ≠ .started c rid f t) ∧
      e ≠ .stopped := by
  cases act <;> simp

/-! ## Numbers -/

/-- Requests and calls are numbered in the order in which they come. -/
structure Numbered (calls : UnorderedMap ℕ Call) (nextRequest nextCall : ℕ)
    (log : List PipelineEvent) : Prop where
  call : ∀ {c call}, calls.lookup c = some call → c < nextCall
  subject : ∀ {e c}, e ∈ log → e.subject = some c → c < nextCall
  request : ∀ {rid req}, .request rid req ∈ log → rid < nextRequest

namespace Numbered

variable {calls : UnorderedMap ℕ Call} {nextRequest nextCall : ℕ}

theorem new (h : Numbered calls nextRequest nextCall log) : calls.lookup nextCall = none := by
  by_contra there
  obtain ⟨call, there⟩ := Option.ne_none_iff_exists'.mp there
  exact Nat.lt_irrefl _ (h.call there)

theorem append (h : Numbered calls nextRequest nextCall log) (events : List PipelineEvent)
    (subjects : ∀ e ∈ events, ∀ c, e.subject = some c → c < nextCall)
    (requests : ∀ rid req, .request rid req ∉ events) :
    Numbered calls nextRequest nextCall (events ++ log) where
  call := h.call
  subject := fun member about =>
    (List.mem_append.mp member).elim (fun here => subjects _ here _ about)
      fun there => h.subject there about
  request := fun member =>
    (List.mem_append.mp member).elim (fun here => absurd here (requests _ _)) h.request

theorem update (h : Numbered calls nextRequest nextCall log) (within : c < nextCall)
    (call : Call) : Numbered (calls.insert c call) nextRequest nextCall log :=
  { h with
    call := by
      intro c' call' stored
      rw [UnorderedMap.lookup_insert] at stored
      split at stored
      · next same => exact same ▸ within
      · exact h.call stored }

theorem more (h : Numbered calls nextRequest nextCall log) :
    Numbered calls nextRequest (nextCall + 1) log where
  call := fun stored => Nat.lt_succ_of_lt (h.call stored)
  subject := fun member about => Nat.lt_succ_of_lt (h.subject member about)
  request := h.request

theorem launch (h : Numbered calls nextRequest nextCall log) (events : List PipelineEvent)
    (call : Call)
    (subjects : ∀ e ∈ events, e.subject = some nextCall)
    (requests : ∀ rid req, .request rid req ∉ events) :
    Numbered (calls.insert nextCall call) nextRequest (nextCall + 1) (events ++ log) := by
  refine (h.more.update (Nat.lt_succ_self _) call).append events ?_ requests
  intro e member c about
  rw [subjects e member] at about
  cases about
  exact Nat.lt_succ_self _

end Numbered

theorem Numbered.move (m : k.Move env P k')
    (h : Numbered k.calls k.nextRequest k.nextCall k.log) :
    Numbered k'.calls k'.nextRequest k'.nextCall k'.log := by
  cases m with
  | receive req empty =>
    constructor
    · exact h.call
    · intro e c member about
      rcases List.mem_cons.mp member with rfl | member
      · cases about
      · exact h.subject member about
    · intro rid req' member
      rcases List.mem_cons.mp member with same | member
      · cases same
        exact Nat.lt_succ_self _
      · exact Nat.lt_succ_of_lt (h.request member)
  | answer | throw | turnAway | reject | refuse =>
    exact h.append [_] (by simp [PipelineEvent.subject]) (by simp)
  | stop => exact h.append [_] (by simp [PipelineEvent.subject]) (by simp)
  | launch w summary now t0 delay upTrace call =>
    exact h.launch [_, _] _ (by simp [PipelineEvent.subject]) (by simp)
  | launchAbsent w summary now t0 r call =>
    exact h.launch [_] _ (by simp [PipelineEvent.subject]) (by simp)
  | act c call call' events frames stored act =>
    refine (h.update (h.call stored) call').append events ?_ fun rid req member =>
      (act.plain _ member).1 rid req rfl
    intro e member c' about
    rcases act.subject e member with same | none
    · rw [same] at about
      cases about
      exact h.call stored
    · rw [none] at about
      cases about
  | attach c call taskId stored => exact h.update (h.call stored) _
  | absentOutcome c call r below again top stored =>
    exact h.append [_] (by simpa [PipelineEvent.subject] using h.call stored) (by simp)
  | destroy c call below top stored =>
    -- a call that is gone leaves the bound as it is
    have fewer : Numbered (k.calls.erase c) k.nextRequest k.nextCall k.log :=
      { h with
        call := by
          intro c' call' stored'
          rw [UnorderedMap.lookup_erase] at stored'
          split at stored'
          · cases stored'
          · exact h.call stored' }
    exact fewer.append [_] (by simpa [PipelineEvent.subject] using h.call stored)
      (by simp)
  | _ => exact h

/-! ## Waiting requests -/

/-- What waits for admission, in a queue or in hand, was allowed, and the governor was told
who asks for which tool. -/
structure Queued (env : Env) (queue : String → List (Waiter Waiting)) (hand : Hand)
    (log : List PipelineEvent) : Prop where
  waiter : ∀ {ts w}, w ∈ queue ts → w.who = w.cb.req.who ∧ w.key = w.cb.key ∧
    Admitted env log w.cb.onDone.rid w.cb.req w.cb.key
  hand : ∀ {w}, hand = .waiting w → Admitted env log w.onDone.rid w.req w.key

namespace Queued

variable {gov : LocalGovernor Waiting} {queue : String → List (Waiter Waiting)}

theorem append (h : Queued env queue hand log) (events : List PipelineEvent) :
    Queued env queue hand (events ++ log) where
  waiter := fun member => (h.waiter member).imp_right <| And.imp_right fun admitted =>
    admitted.mono fun _ => List.mem_append_right _
  hand := fun holds => (h.hand holds).mono fun _ => List.mem_append_right _

theorem drop (h : Queued env queue hand log) {hand' : Hand} (plain : ∀ w, hand' ≠ .waiting w) :
    Queued env queue hand' log where
  waiter := h.waiter
  hand := fun holds => absurd holds (plain _)

theorem unqueue (h : Queued env gov.queue hand log) {ts : String} {l₁ l₂ : List (Waiter Waiting)}
    {w : Waiter Waiting} (split : gov.queue ts = l₁ ++ w :: l₂) :
    Queued env (gov.unqueue ts w (l₁ ++ l₂)).queue hand log where
  waiter := fun member => h.waiter (LocalGovernor.mem_queue_unqueue split member)
  hand := h.hand

end Queued

theorem Queued.move (m : k.Move env P k') (h : Queued env k.gov.queue k.hand k.log) :
    Queued env k'.gov.queue k'.hand k'.log := by
  cases m with
  | receive | answer | throw | turnAway | stop | refuse => exact (h.drop (by simp)).append [_]
  | accept w holds running admitted =>
    exact ⟨h.waiter, fun same => by cases same; exact admitted⟩
  | enqueue w deadline holds =>
    refine ⟨fun {ts w'} member => ?_, by simp⟩
    rw [LocalGovernor.queue_enqueue] at member
    split at member
    · rcases List.mem_append.mp member with member | member
      · exact h.waiter member
      · obtain rfl := List.mem_singleton.mp member
        exact ⟨rfl, rfl, h.hand holds⟩
    · exact h.waiter member
  | dequeue ts l₁ w l₂ empty split =>
    refine ⟨(h.unqueue split).waiter, fun same => ?_⟩
    cases same
    exact (h.waiter (by rw [split]; simp)).2.2
  | reject ts l₁ w l₂ r split => exact (h.unqueue split).append [_]
  | launch => exact (h.drop (by simp [Core.launched])).append [_, _]
  | launchAbsent => exact (h.drop (by simp [Core.launched])).append [_]
  | act c call call' events frames => exact h.append events
  | absentOutcome | destroy => exact h.append [_]
  | stopped => exact h.drop (by simp)
  | _ => exact h

/-! ## Shutdown -/

/-- Once the gateway is stopping nothing is on its way to the governor, and when everyone was
told, no queue has a waiter and every call is cancelled. -/
structure Stopping (calls : UnorderedMap ℕ Call) (queue : String → List (Waiter Waiting))
    (stopping : Bool) (hand : Hand) (log : List PipelineEvent) : Prop where
  logged : .stopped ∈ log → stopping = true
  carried : ∀ {w}, hand = .waiting w → stopping = false
  told : stopping = true → hand = .stopping ∨
    ((∀ {c call}, calls.lookup c = some call → call.cancelled = true) ∧ ∀ ts, queue ts = [])

theorem Call.Act.cancelled_mono (act : call.Act env P hand c call' events frames)
    (before : call.cancelled = true) : call'.cancelled = true := by
  cases act with
  | touch upTrace upSpanLive upstreamDone cancelled promoteTimer kept => exact kept before
  | _ => exact before

namespace Stopping

variable {calls : UnorderedMap ℕ Call} {queue queue' : String → List (Waiter Waiting)}
  {stopping : Bool}

theorem append (h : Stopping calls queue stopping hand log) (events : List PipelineEvent)
    (running : .stopped ∉ events) :
    Stopping calls queue stopping hand (events ++ log) :=
  { h with
    logged := fun member =>
      (List.mem_append.mp member).elim (fun here => absurd here running) h.logged }

/-- What is in hand changes, but the shutdown is neither begun nor ended. -/
theorem turn (h : Stopping calls queue stopping hand log) {hand' : Hand}
    (busy : hand ≠ .stopping) (plain : ∀ w, hand' = .waiting w → stopping = false) :
    Stopping calls queue stopping hand' log where
  logged := h.logged
  carried := plain _
  told := fun stopped => .inr ((h.told stopped).resolve_left busy)

/-- While nothing stops, calls and queues may change. -/
theorem running (h : Stopping calls queue stopping hand log) (runs : stopping = false)
    (calls' : UnorderedMap ℕ Call) (queue' : String → List (Waiter Waiting)) (hand' : Hand) :
    Stopping calls' queue' stopping hand' log where
  logged := h.logged
  carried := fun _ => runs
  told := fun stopped => by rw [runs] at stopped; cases stopped

theorem update (h : Stopping calls queue stopping hand log) (stored : calls.lookup c = some call)
    (kept : call.cancelled = true → call'.cancelled = true) :
    Stopping (calls.insert c call') queue stopping hand log :=
  { h with
    told := fun stopped => (h.told stopped).imp_right <| And.imp_left fun all c' call'' there => by
      rw [UnorderedMap.lookup_insert] at there
      split at there
      · cases there
        exact kept (all stored)
      · exact all there }

theorem erase (h : Stopping calls queue stopping hand log) (c : ℕ) :
    Stopping (calls.erase c) queue stopping hand log :=
  { h with
    told := fun stopped => (h.told stopped).imp_right <| And.imp_left fun all c' call' there => by
      rw [UnorderedMap.lookup_erase] at there
      split at there
      · cases there
      · exact all there }

/-- A waiter leaves its queue; if someone waits, the shutdown is not over. -/
theorem unqueue {gov : LocalGovernor Waiting} (h : Stopping calls gov.queue stopping hand log)
    {ts : String} {l₁ l₂ : List (Waiter Waiting)} {w : Waiter Waiting}
    (split : gov.queue ts = l₁ ++ w :: l₂) :
    (hand = .stopping ∨ stopping = false) ∧
      Stopping calls (gov.unqueue ts w (l₁ ++ l₂)).queue stopping hand log := by
  have waits : hand = .stopping ∨ stopping = false := by
    cases runs : stopping with
    | false => exact .inr rfl
    | true =>
      refine .inl ((h.told runs).resolve_right fun all => ?_)
      have none := all.2 ts
      rw [split] at none
      simp at none
  refine ⟨waits, h.logged, h.carried, fun stopped => .inl (waits.resolve_right ?_)⟩
  rw [stopped]
  simp

end Stopping

theorem Stopping.move (m : k.Move env P k')
    (h : Stopping k.calls k.gov.queue k.stopping k.hand k.log) :
    Stopping k'.calls k'.gov.queue k'.stopping k'.hand k'.log := by
  cases m with
  | receive req holds | answer rid r holds | throw rid holds =>
    exact (h.turn (by rw [holds]; simp) (by simp)).append [_] (by simp)
  | turnAway w r holds | refuse w r holds =>
    exact (h.turn (by rw [holds]; simp) (by simp)).append [_] (by simp)
  | accept w holds runs => exact h.turn (by rw [holds]; simp) fun _ _ => runs
  | enqueue w deadline holds => exact h.running (h.carried holds) _ _ _
  | dequeue ts l₁ w l₂ holds split =>
    obtain ⟨waits, rest⟩ := h.unqueue split
    have runs : k.stopping = false := waits.resolve_left (by rw [holds]; simp)
    exact rest.running runs _ _ _
  | reject ts l₁ w l₂ r split => exact (h.unqueue split).2.append [_] (by simp)
  | launch w summary now t0 delay upTrace call holds =>
    exact (h.running (h.carried holds) _ _ _).append [_, _] (by simp)
  | launchAbsent w summary now t0 r call holds =>
    exact (h.running (h.carried holds) _ _ _).append [_] (by simp)
  | act c call call' events frames stored act =>
    exact (h.update stored act.cancelled_mono).append events
      fun member => (act.plain _ member).2.2 rfl
  | attach c call taskId stored => exact h.update stored id
  | absentOutcome => exact h.append [_] (by simp)
  | destroy c => exact (h.erase c).append [_] (by simp)
  | stop => exact ⟨fun _ => rfl, by simp, fun _ => .inl rfl⟩
  | stopped holds told none => exact ⟨h.logged, by simp, fun _ => .inr ⟨told _ _, none⟩⟩
  | _ => exact h

end Perfacet
