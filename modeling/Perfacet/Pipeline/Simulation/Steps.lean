import Perfacet.Pipeline.Simulation.Requests

/-!
# The pipeline does what its core can do: steps

Every step of the process is a row of moves of the core, so what the moves preserve holds in
every state of every run.

## Main definitions

* `Core.Ok` — the invariant of the core
* `PipelineState.Keeps` — a step keeps a promise

## Main results

* `PipelineState.step_moves` — a step is a row of moves
* `PipelineState.ok_of_run` — the invariant holds in every state of every run
-/

namespace Perfacet

variable {env : Env} {P : Promise} {hand : Hand} {k k' : Core} {s s' : PipelineState} {c : ℕ}
  {call : Call}

/-! ## The invariant -/

namespace Core

/-- The invariant of the core. -/
structure Ok (env : Env) (k : Core) : Prop where
  orderly : k.Orderly env
  tables : Tables env k.inflight k.calls k.live k.byTask k.draws
  accounts : Accounts k.gov k.calls
  references : References env k.calls k.stack
  queues : k.gov.QueuesOk

namespace Ok

theorem queues_move (m : k.Move env P k') (h : k.gov.QueuesOk) : k'.gov.QueuesOk := by
  cases m with
  | tools backend names => exact h.onToolsListed backend names
  | enqueue => exact h.enqueue
  | dequeue ts l₁ w l₂ holds split => exact h.unqueue split
  | reject ts l₁ w l₂ r split => exact h.unqueue split
  | refuse => exact h.take.releaseSlot
  | launch => exact h.take
  | launchAbsent => exact h.take
  | destroy => exact h.releaseSlot
  | _ => exact h

theorem move (m : k.Move env P k') (h : k.Ok env) : k'.Ok env where
  orderly := h.orderly.move m
  tables := h.tables.move m h.orderly.numbered.new
  accounts := h.accounts.move m h.orderly.numbered.new
  references := h.references.move m h.orderly.numbered.new
  queues := queues_move m h.queues

theorem initial : (Core.initial env.cfg).Ok env where
  orderly := .initial
  tables := .initial
  accounts := .initial env.cfg
  references := .initial
  queues := .initial env.cfg

theorem moves (m : Moves env P k k') (h : k.Ok env) : k'.Ok env := by
  induction m with
  | refl => exact h
  | tail _ m ih => exact ih.move m

end Ok

end Core

namespace PipelineState

/-! ## Shutdown -/

/-- Responding changes nothing but the log and the call. -/
theorem respond_frame (s : PipelineState) (call : Call) (r : Response) (clk : Clock) (hand : Hand) :
    (s.respond call r clk).1.core hand = { s.core hand with log := (s.respond call r clk).1.log } ∧
      (s.respond call r clk).2 = { call with responded := true } := by
  unfold respond
  split
  · next responded => exact ⟨rfl, by rw [← responded]⟩
  · refine ⟨?_, rfl⟩
    dsimp only
    have same := core_finish s call.onDone { r with gatewayMs := clk 0 - call.t0 } (clk 1) hand
    have logged := congrArg Core.log same
    change (s.finish _ _ _).log = _ at logged
    rw [same, logged]
    rfl

/-- A call that is told to stop waiting is cancelled, and nothing else changes. -/
theorem cancelWait_frame (s : PipelineState) (c : ℕ) (call : Call) (clk : Clock) (hand : Hand) :
    (s.cancelWait c call clk).core hand =
      { s.core hand with
        calls := s.calls.insert c { call with cancelled := true, responded := true }
        log := (s.cancelWait c call clk).log } := by
  obtain ⟨same, answered⟩ :=
    respond_frame s { call with cancelled := true } cancelledResponse clk hand
  unfold cancelWait
  dsimp only
  rw [answered]
  split
  · rw [core_emit, core_put, same]
    rfl
  · rw [core_emit, core_put, core_tasks, same]
    rfl

theorem cancelLive_moves (clk : String → Clock) (s : PipelineState) (id : String) :
    Core.Moves env P (s.core hand) ((cancelLive clk s id).core hand) := by
  unfold cancelLive
  split
  · next c call found =>
    exact (Core.put_self _ (liveCall_spec found).2).trans (cancelWait_moves s _)
  · exact .refl

theorem cancelLive_frame (clk : String → Clock) (s : PipelineState) (id : String) :
    (cancelLive clk s id).live = s.live ∧ (cancelLive clk s id).gov = s.gov := by
  unfold cancelLive
  split
  · next c call found =>
    have same := cancelWait_frame s c call (clk id) .empty
    exact ⟨congrArg Core.live same, congrArg Core.gov same⟩
  · exact ⟨rfl, rfl⟩

theorem cancelAll_moves (env : Env) (P : Promise) (hand : Hand) (clk : String → Clock)
    (order : List String) (s : PipelineState) :
    Core.Moves env P (s.core hand) ((order.foldl (cancelLive clk) s).core hand) ∧
      (order.foldl (cancelLive clk) s).live = s.live ∧
      (order.foldl (cancelLive clk) s).gov = s.gov := by
  induction order generalizing s with
  | nil => exact ⟨.refl, rfl, rfl⟩
  | cons id order ih =>
    obtain ⟨rest, live, gov⟩ := ih (cancelLive clk s id)
    obtain ⟨live', gov'⟩ := cancelLive_frame clk s id
    exact ⟨(cancelLive_moves clk s id).trans rest, live.trans live', gov.trans gov'⟩

/-- Every call that is found by an id of a list has a property. -/
def Everywhere (p : Call → Prop) (s : PipelineState) (ids : List String) : Prop :=
  ∀ id ∈ ids, ∀ c, s.live.lookup id = some c → ∀ call, s.calls.lookup c = some call → p call

theorem everywhere_cancelLive {p : Call → Prop}
    (told : ∀ call : Call, p { call with cancelled := true, responded := true })
    (clk : String → Clock) {ids : List String} (id : String) (h : s.Everywhere p ids) :
    (cancelLive clk s id).Everywhere p (ids ++ [id]) := by
  unfold cancelLive
  split
  · next c call found =>
    have same := cancelWait_frame s c call (clk id) .empty
    have calls := congrArg Core.calls same
    have live := congrArg Core.live same
    change (s.cancelWait c call (clk id)).calls = _ at calls
    change (s.cancelWait c call (clk id)).live = s.live at live
    intro id' member c' found' call' stored
    rw [calls, UnorderedMap.lookup_insert] at stored
    rw [live] at found'
    split at stored
    · rw [← Option.some.inj stored]
      exact told call
    · next other =>
      rcases List.mem_append.mp member with earlier | last
      · exact h id' earlier c' found' call' stored
      · rw [List.mem_singleton.mp last, (liveCall_spec found).1] at found'
        exact absurd (Option.some.inj found').symm other
  · next absent =>
    intro id' member c' found' call' stored
    rcases List.mem_append.mp member with earlier | last
    · exact h id' earlier c' found' call' stored
    · rw [List.mem_singleton.mp last] at found'
      simp [liveCall, found', stored] at absent

/-- What `cancelWait` makes true of a call is true of every call that was told. -/
theorem everywhere_cancelAll {p : Call → Prop}
    (told : ∀ call : Call, p { call with cancelled := true, responded := true })
    (clk : String → Clock) (order : List String) (s : PipelineState) :
    (order.foldl (cancelLive clk) s).Everywhere p order := by
  induction order using List.reverseRecOn with
  | nil => exact fun _ member => by cases member
  | append_singleton ids id ih =>
    rw [List.foldl_append]
    exact everywhere_cancelLive told clk id ih

/-- One queue is rejected: afterwards it is empty, and the others are as they were. -/
theorem rejectQueue_moves (env : Env) (P : Promise) (hand : Hand) (s : PipelineState) (ts : String)
    (clk : Clock) :
    Core.Moves env P (s.core hand) ((s.rejectQueue ts clk).core hand) ∧
      (s.rejectQueue ts clk).calls = s.calls ∧
      ∀ ts', (s.rejectQueue ts clk).gov.queue ts' = if ts' = ts then [] else s.gov.queue ts' := by
  unfold rejectQueue
  generalize waiters : s.gov.queue ts = queue
  induction queue generalizing s with
  | nil =>
    refine ⟨.refl, rfl, fun ts' => ?_⟩
    split
    · next same => rw [same]; exact waiters
    · rfl
  | cons w rest ih =>
    have head : s.gov.rejectTurn ts = (s.gov.unqueue ts w rest, some w) := by
      rcases s.gov.rejectTurn_cases ts with ⟨-, none⟩ | ⟨w', rest', front, head⟩
      · rw [waiters] at none
        cases none
      · cases waiters.symm.trans front
        exact head
    rw [List.foldl_cons, head]
    dsimp only
    generalize told : { s with gov := s.gov.unqueue ts w rest }.rejected w.cb (clk w.id) = s'
    have same : ∀ hand, s'.core hand =
        ({ s with gov := s.gov.unqueue ts w rest }.core hand).emit (.answered w.cb.onDone.rid
          (stamp w.cb.onDone (.ofText .throttled "throttled") (clk w.id))) := by
      intro hand
      rw [← told, core_rejected]
    have gov : s'.gov = s.gov.unqueue ts w rest := congrArg Core.gov (same .empty)
    obtain ⟨moves, calls, queues⟩ := ih s' (by rw [gov, LocalGovernor.queue_unqueue, if_pos rfl])
    refine ⟨?_, calls.trans (congrArg Core.calls (same .empty)), fun ts' => ?_⟩
    · have rejected : Core.Move env P (s.core hand) (s'.core hand) := by
        rw [same]
        exact .reject ts [] w rest _ waiters
      exact .head rejected moves
    · rw [queues, gov, LocalGovernor.queue_unqueue]
      split <;> rfl

theorem rejectAllQueued_moves (env : Env) (P : Promise) (hand : Hand) (order : List String)
    (clk : String → Clock) (s : PipelineState) :
    Core.Moves env P (s.core hand) ((s.rejectAllQueued order clk).core hand) ∧
      (s.rejectAllQueued order clk).calls = s.calls ∧
      ∀ ts, (s.rejectAllQueued order clk).gov.queue ts =
        if ts ∈ order then [] else s.gov.queue ts := by
  unfold rejectAllQueued
  induction order generalizing s with
  | nil => exact ⟨.refl, rfl, fun ts => rfl⟩
  | cons ts order ih =>
    obtain ⟨first, same, emptied⟩ := rejectQueue_moves env P hand s ts (clk ts)
    obtain ⟨rest, calls, others⟩ := ih (s.rejectQueue ts (clk ts))
    refine ⟨first.trans rest, calls.trans same, fun ts' => ?_⟩
    rw [List.foldl_cons, others, emptied]
    by_cases here : ts' = ts
    · simp [here]
    · simp [here]

/-- What the shutdown makes of the tables: it passes through a state in which everyone was told,
and then empties the queues. -/
theorem told_moves (env : Env) (P : Promise) (ok : (s.core .empty).Ok env)
    {calls tools : List String}
    (all : calls.Perm s.live.keys) (queues : tools.Perm s.gov.queues.keys)
    (clk rejects : String → Clock) :
    Core.Moves env P (s.core .empty)
        (((s.requestStop calls clk).rejectAllQueued tools rejects).core .stopping) ∧
      (∀ p : Call → Prop, (∀ call : Call, p { call with cancelled := true, responded := true }) →
        ∀ c call,
          ((s.requestStop calls clk).rejectAllQueued tools rejects).calls.lookup c = some call →
          p call) ∧
      ∀ ts, ((s.requestStop calls clk).rejectAllQueued tools rejects).gov.queue ts = [] := by
  have begun : Core.Move env P (s.core .empty) _ := .stop rfl
  obtain ⟨cancelled, live, gov⟩ := cancelAll_moves env P .stopping clk
    calls { s with stopping := true, log := .stopped :: s.log }
  have everywhere := fun (p : Call → Prop) (told : ∀ call : Call, p _) =>
    everywhere_cancelAll told clk calls { s with stopping := true, log := .stopped :: s.log }
  unfold requestStop
  generalize calls.foldl (cancelLive clk) _ = s₁ at cancelled live gov everywhere ⊢
  obtain ⟨rejected, same, emptied⟩ := rejectAllQueued_moves env P .stopping tools
    rejects s₁
  have before : Core.Moves env P (s.core .empty) (s₁.core .stopping) := .head begun cancelled
  refine ⟨before.trans rejected, fun p told c call stored => ?_, fun ts => ?_⟩
  · rw [same] at stored
    have found : s₁.live.lookup call.inflightId = some c :=
      (ok.moves before).tables.alive.mpr ⟨call, stored, rfl⟩
    refine everywhere p told call.inflightId ?_ c found call stored
    rw [live] at found
    exact all.mem_iff.mpr (UnorderedMap.mem_keys_of_lookup found)
  · rw [emptied, gov]
    split
    · rfl
    · next unknown =>
      rw [queues.mem_iff] at unknown
      exact UnorderedMap.getD_of_lookup_none (AList.lookup_eq_none.mpr unknown)

/-- The gateway is told to stop: every call is cancelled and every queue emptied. -/
theorem stop_moves (ok : (s.core .empty).Ok env) {calls tools : List String}
    (all : calls.Perm s.live.keys) (queues : tools.Perm s.gov.queues.keys)
    (clk rejects : String → Clock) :
    Core.Moves env P (s.core .empty)
      (((s.requestStop calls clk).rejectAllQueued tools rejects).core .empty) := by
  obtain ⟨moves, told, none⟩ := told_moves env P ok all queues clk rejects
  exact moves.tail (.stopped rfl (told (·.cancelled = true) fun _ => rfl) none)

/-! ## The stack -/

/-- A frame that waits for nothing is popped. -/
theorem pop_moves (s : PipelineState) {f : PipelineFrame} {below : List PipelineFrame}
    (top : s.stack = f :: below) (plain : ∀ c r, f ≠ .onUpstream c r)
    (referred : ∀ c, f = .unref c → ∃ call, s.calls.lookup c = some call ∧
      0 < call.refs below c) :
    Core.Moves env P (s.core hand) ({ s with stack := below }.core hand) :=
  .single (.pop f below top plain referred)

/-- The loop of `tryDequeue` takes a turn. -/
theorem dequeue_moves (ok : (s.core .empty).Ok env) {ts : String} {below : List PipelineFrame}
    (top : s.stack = .dequeue ts :: below) (clk : Clock)
    (ran : s.runTop env clk = some s') (alive : s'.terminated = false) :
    Core.Moves env P (s.core .empty) (s'.core .empty) := by
  have popped : Core.Moves env P (s.core .empty) ({ s with stack := below }.core .empty) :=
    pop_moves s top (by simp) (by simp)
  unfold runTop at ran
  rw [top] at ran
  rcases s.gov.tryDequeueTurn_cases ts (clk 0) with
    ⟨stop, -⟩ | ⟨w, rest, front, -, ⟨-, reject⟩ | ⟨-, go⟩⟩
  · simp only [stop] at ran
    cases ran
    exact popped
  · simp only [reject] at ran
    cases ran
    rw [core_rejected, ← top]
    exact .single (.reject ts [] w rest _ front)
  · simp only [go] at ran
    cases ran
    have member : w ∈ s.gov.queue ts := by
      rw [front]
      exact List.mem_cons_self
    obtain ⟨who, key, admitted⟩ := ok.orderly.queued.waiter member
    have taken : Core.Moves env P (s.core .empty)
        { s.core (.waiting w.cb) with gov := s.gov.unqueue ts w rest, stack := below } :=
      popped.tail (.dequeue ts [] w rest rfl front)
    refine taken.trans (admitted_moves _ ?_ (clk.after 1) admitted.parsed alive)
    rw [who, key]

/-- The frame on top is executed. -/
theorem runTop_moves (ok : (s.core .empty).Ok env) (clk : Clock)
    (ran : s.runTop env clk = some s') (alive : s'.terminated = false) :
    Core.Moves env P (s.core .empty) (s'.core .empty) := by
  cases top : s.stack with
  | nil => rw [runTop, top] at ran; cases ran
  | cons f below =>
    cases f with
    | dequeue ts => exact dequeue_moves ok top clk ran alive
    | inBackend c => rw [runTop, top] at ran; cases ran
    | onUpstream c r =>
      rw [runTop, top] at ran
      dsimp only at ran
      split at ran
      · next call stored =>
        cases ran
        have member : .onUpstream c r ∈ s.stack := by
          rw [top]
          exact List.mem_cons_self
        have absent := ok.references.absent member stored
        exact absent_moves s top stored absent
          ((ok.orderly.underway _ _ stored).dormant absent).1 clk
      · cases ran
    | unref c =>
      rw [runTop, top] at ran
      dsimp only at ran
      split at ran
      · next call stored =>
        cases ran
        split
        · next last => exact destroy_moves s top stored last clk
        · next held =>
          refine pop_moves s top (by simp) fun c' same => ?_
          cases same
          exact ⟨call, stored, Nat.pos_of_ne_zero held⟩
      · cases ran

/-! ## Steps -/

/-- A step keeps a promise: a request that reaches the governor is acceptable, and the circuit
is as promised when a retry is made. -/
def Keeps (env : Env) (P : Promise) (s : PipelineState) : PipelineInput → Prop
  | .handle req _ => (s.core .empty).Accepts env P s.nextRequest req
  | .upstream c r clk => ∀ call, s.calls.lookup c = some call →
      retries env call r (s.circuit.isOpen call.key.backend (clk 0)).2 (clk 2) = true →
      P.shielded ((s.heard c call.delivered r clk).circuit.isOpen call.key.backend (clk 4)).2
  | _ => True

/-- Nothing is promised, so every step keeps it. -/
theorem keeps_none (s : PipelineState) (input : PipelineInput) : s.Keeps env .none input := by
  cases input with
  | handle req clk => exact fun _ _ => trivial
  | upstream c r clk => exact fun _ _ _ => trivial
  | _ => trivial

/-- While nothing runs, every live call has a timer or a callback, so its backend is there. -/
theorem present_of_idle (ok : (s.core .empty).Ok env) (idle : s.idle = true) :
    s.AllPresent env := by
  intro c call stored
  have held : 0 < call.refs s.stack c := ok.references.held stored
  by_contra absent
  obtain ⟨unarmed, rests, dropped⟩ :=
    (ok.orderly.underway c call stored).dormant (Bool.not_eq_true _ ▸ absent)
  rw [Call.refs, unarmed, rests, dropped, List.isEmpty_iff.mp idle] at held
  cases held

/-- Every step is a row of moves. -/
theorem step_moves (ok : (s.core .empty).Ok env) {input : PipelineInput}
    (step : s.step env input = some s') (keeps : s.Keeps env P input) :
    Core.Moves env P (s.core .empty) (s'.core .empty) := by
  obtain ⟨attempt, alive⟩ := Option.filter_eq_some_iff.mp step
  have alive : s'.terminated = false := by simpa using alive
  cases input with
  | handle req clk =>
    simp only [PipelineState.attempt] at attempt
    split at attempt
    · next idle =>
      cases attempt
      exact handle_moves s req clk (present_of_idle ok idle) keeps alive
    · cases attempt
  | queueTimer id clk =>
    simp only [PipelineState.attempt] at attempt
    split at attempt
    · cases expired : s.gov.expire id with
      | none => rw [expired] at attempt; cases attempt
      | some r =>
        -- the timer is that of a waiter, who is taken out and turned away
        obtain ⟨ts, l₁, w, l₂, split, -, rfl⟩ := LocalGovernor.expire_cases ok.queues expired
        rw [expired] at attempt
        cases attempt
        rw [core_rejected]
        exact .single (.reject ts l₁ w l₂ _ split)
    · cases attempt
  | promote c clk =>
    simp only [PipelineState.attempt] at attempt
    split at attempt
    · next call idle stored =>
      split at attempt
      · next armed =>
        cases attempt
        -- first the timer fires, and then the call is promoted
        have fired : Core.Move env P (s.core .empty)
            (({ s with stack := .unref c :: s.stack }.core .empty).put c
              { call with promoteArmed := false }) :=
          .act c call _ _ _ stored (.promote armed)
        exact .head fired (onPromote_moves _ clk (present_of_idle ok idle c call stored))
      · cases attempt
    · cases attempt
  | upstream c r clk =>
    simp only [PipelineState.attempt] at attempt
    split at attempt
    · next call listening stored =>
      split at attempt
      · next waits =>
        cases attempt
        exact upstream_moves s stored waits
          ((ok.orderly.underway _ _ stored).present (.inl waits)) r clk
          (keeps call stored)
      · cases attempt
    · cases attempt
  | drop c =>
    simp only [PipelineState.attempt] at attempt
    split at attempt
    · next call listening stored =>
      split at attempt
      · next spent =>
        cases attempt
        exact .single (.act c call _ _ _ stored (.drop spent))
      · cases attempt
    · cases attempt
  | abandon c =>
    simp only [PipelineState.attempt] at attempt
    split at attempt
    · next call listening stored =>
      split at attempt
      · next waits =>
        cases attempt
        exact .single (.act c call _ _ _ stored (.abandon waits))
      · cases attempt
    · cases attempt
  | backendReturns =>
    simp only [PipelineState.attempt] at attempt
    split at attempt
    · next c below top =>
      cases attempt
      exact pop_moves s top (by simp) (by simp)
    · cases attempt
  | requestStop calls tools clk rejects =>
    simp only [PipelineState.attempt] at attempt
    split at attempt
    · next orders =>
      cases attempt
      simp only [Bool.and_eq_true, decide_eq_true_eq] at orders
      exact stop_moves ok orders.1.2 orders.2 clk rejects
    · cases attempt
  | toolsListed backend tools =>
    simp only [PipelineState.attempt] at attempt
    split at attempt
    · cases attempt
      exact .single (.tools backend (tools.map (·.name)))
    · cases attempt
  -- the circuits, the health and the grants are no part of the core
  | probeSuccess server =>
    simp only [PipelineState.attempt] at attempt
    split at attempt
    · cases attempt
      exact .refl
    · cases attempt
  | health server state latency =>
    simp only [PipelineState.attempt] at attempt
    split at attempt
    · cases attempt
      exact .refl
    · cases attempt
  | grants table =>
    simp only [PipelineState.attempt] at attempt
    split at attempt
    · cases attempt
      exact .refl
    · cases attempt
  | run clk => exact runTop_moves ok clk attempt alive

/-! ## Runs -/

/-- Moves only add to the log. -/
theorem log_moves (m : Core.Moves env P k k') : k.log <:+ k'.log := by
  induction m with
  | refl => exact List.suffix_rfl
  | tail _ m ih =>
    refine ih.trans ?_
    cases m with
    | receive | answer | throw | turnAway | reject | refuse | absentOutcome | destroy | stop
    | launchAbsent =>
      exact List.suffix_cons ..
    | launch => exact (List.suffix_cons ..).trans (List.suffix_cons ..)
    | act c call call' events => exact List.suffix_append events _
    | _ => exact List.suffix_rfl


/-- The invariant rule for the core: what holds at first and is kept by every move holds in every
state of a run whose steps keep the promise. -/
theorem core_of_run {h : List (TransitionSystem.Step PipelineState PipelineInput)} {I : Core → Prop}
    (run : (Pipeline.machine env).Run h s) (keeps : ∀ t ∈ h, t.pre.Keeps env P t.input)
    (first : I (Core.initial env.cfg))
    (preserved : ∀ k k', k.Ok env → k.Move env P k' → I k → I k') :
    (s.core .empty).Ok env ∧ I (s.core .empty) := by
  refine run.invariant_where (C := fun t => t.pre.Keeps env P t.input)
    (I := fun s => (s.core .empty).Ok env ∧ I (s.core .empty)) ?_ ?_ keeps
  · rintro _ ⟨health, index, grants, rfl⟩
    exact ⟨.initial, first⟩
  · rintro t step keeps ⟨ok, holds⟩
    have moves := step_moves ok step keeps
    generalize t.pre.core .empty = k, t.post.core .empty = k' at moves ok holds ⊢
    induction moves with
    | refl => exact ⟨ok, holds⟩
    | tail _ m ih => exact ⟨ih.1.move m, preserved _ _ ih.1 m ih.2⟩

/-- The same for what every move keeps, whatever is promised. -/
theorem core_of_any_run {h : List (TransitionSystem.Step PipelineState PipelineInput)}
    {I : Core → Prop} (run : (Pipeline.machine env).Run h s) (first : I (Core.initial env.cfg))
    (preserved : ∀ k k', k.Ok env → k.Move env .none k' → I k → I k') : I (s.core .empty) :=
  (core_of_run run (fun t _ => keeps_none t.pre t.input) first preserved).2

/-- The invariant holds in every state of every run. -/
theorem ok_of_run {h : List (TransitionSystem.Step PipelineState PipelineInput)}
    (run : (Pipeline.machine env).Run h s) : (s.core .empty).Ok env :=
  (core_of_run (I := fun _ => True) run (fun t _ => keeps_none t.pre t.input) trivial
    fun _ _ _ _ => id).1

/-- What was logged in a step of a run stays in the log. -/
theorem log_of_mem {h : List (TransitionSystem.Step PipelineState PipelineInput)}
    (run : (Pipeline.machine env).Run h s) {t : TransitionSystem.Step PipelineState PipelineInput}
    (member : t ∈ h) : t.post.log <:+ s.log := by
  induction run with
  | start _ => cases member
  | next before step ih =>
    rcases List.mem_cons.mp member with rfl | older
    · exact List.suffix_rfl
    · exact (ih older).trans (log_moves (step_moves (ok_of_run before) step (keeps_none _ _)))

end PipelineState

end Perfacet
