import Perfacet.Pipeline.Lifecycle

/-!
# Who holds what

The tables that name a call, the slots it holds and the references that keep it alive all
belong to the calls that are live: every move keeps them in step.

## Main results

* `Tables.move` — the in-flight table, `live_` and `byTask_` list exactly the live calls
* `Accounts.move` — the governor's counters count their permits
* `References.move` — a live call has a reference, and frames refer to live calls
-/

namespace Perfacet

variable {env : Env} {P : Promise} {hand : Hand} {k k' : Core} {c c' : ℕ} {call call' : Call}

/-! ## What a call keeps -/

/-- Two states of one call: the parts that its constructor sets are the same. -/
structure Call.Same (call call' : Call) : Prop where
  permit : call'.permit = call.permit
  req : call'.req = call.req
  onDone : call'.onDone = call.onDone
  inflightId : call'.inflightId = call.inflightId
  paramsHash : call'.paramsHash = call.paramsHash
  taskId : call'.taskId = call.taskId
  key : call'.key = call.key
  confirmed : call'.confirmed = call.confirmed

theorem Call.Act.same {events : List PipelineEvent} {frames : List PipelineFrame}
    (act : call.Act env P hand c call' events frames) : call.Same call' := by
  cases act <;> exact ⟨rfl, rfl, rfl, rfl, rfl, rfl, rfl, rfl⟩

/-! ## Tables -/

/-- The tables of ids list the live calls, and ids were drawn. -/
structure Tables (env : Env) (inflight : InFlight) (calls : UnorderedMap ℕ Call)
    (live byTask : UnorderedMap String ℕ) (draws : ℕ) : Prop where
  alive : ∀ {id c}, live.lookup id = some c ↔
    ∃ call, calls.lookup c = some call ∧ call.inflightId = id
  held : ∀ {id}, inflight.Holds id ↔ ∃ c, live.lookup id = some c
  task : ∀ {t c}, byTask.lookup t = some c ↔
    t ≠ "" ∧ ∃ call, calls.lookup c = some call ∧ call.taskId = t
  indexed : inflight.Indexed
  drawn : ∀ {c call}, calls.lookup c = some call →
    ∃ n, n < draws ∧ call.inflightId = env.randomHex 16 n
  taskDrawn : ∀ {c call}, calls.lookup c = some call → call.taskId ≠ "" →
    ∃ n, n < draws ∧ call.taskId = "tsk_" ++ env.randomHex 8 n

theorem taskId_ne (hex : String) : "tsk_" ++ hex ≠ "" := by
  intro h
  have := congrArg String.length h
  simp at this

namespace Tables

variable {inflight : InFlight} {calls : UnorderedMap ℕ Call}
  {live byTask : UnorderedMap String ℕ} {draws : ℕ}

theorem initial : Tables env {} ∅ ∅ ∅ 0 where
  alive := by simp [AList.lookup_empty]
  held := by simp [InFlight.Holds, AList.lookup_empty]
  task := by simp [AList.lookup_empty]
  indexed := .empty
  drawn := by simp [AList.lookup_empty]
  taskDrawn := by simp [AList.lookup_empty]

theorem draw (h : Tables env inflight calls live byTask draws) :
    Tables env inflight calls live byTask (draws + 1) :=
  { h with
    drawn := fun stored => (h.drawn stored).imp fun _ => And.imp_left Nat.lt_succ_of_lt
    taskDrawn := fun stored named =>
      (h.taskDrawn stored named).imp fun _ => And.imp_left Nat.lt_succ_of_lt }

theorem later (h : Tables env inflight calls live byTask draws) (n : ℕ) :
    Tables env inflight calls live byTask (draws + n) := by
  induction n with
  | zero => exact h
  | succ n ih => exact ih.draw

/-- Two live calls do not have one in-flight id. -/
theorem eq_of_inflightId (h : Tables env inflight calls live byTask draws)
    (stored : calls.lookup c = some call) (stored' : calls.lookup c' = some call')
    (same : call.inflightId = call'.inflightId) : c = c' := by
  have first := h.alive.mpr ⟨call, stored, rfl⟩
  have second := h.alive.mpr ⟨call', stored', rfl⟩
  rw [same, second] at first
  exact (Option.some.inj first).symm

/-- Two live calls do not have one task. -/
theorem eq_of_taskId (h : Tables env inflight calls live byTask draws)
    (stored : calls.lookup c = some call) (stored' : calls.lookup c' = some call')
    (same : call.taskId = call'.taskId) (named : call.taskId ≠ "") : c = c' := by
  have first := h.task.mpr ⟨named, call, stored, rfl⟩
  have second := h.task.mpr ⟨same ▸ named, call', stored', rfl⟩
  rw [same, second] at first
  exact (Option.some.inj first).symm

theorem mark (h : Tables env inflight calls live byTask draws) (id taskId : String) :
    Tables env (inflight.setTaskId id taskId) calls live byTask draws :=
  { h with
    held := InFlight.holds_setTaskId.trans h.held
    indexed := h.indexed.setTaskId }

/-- A call may change anything but its ids. -/
theorem update (h : Tables env inflight calls live byTask draws)
    (stored : calls.lookup c = some call) (id : call'.inflightId = call.inflightId)
    (task : call'.taskId = call.taskId) :
    Tables env inflight (calls.insert c call') live byTask draws := by
  -- what is asked of calls is asked of their two ids only
  have forward : ∀ {p : String → String → Prop} {c'},
      (∃ call, (calls.insert c call').lookup c' = some call ∧ p call.inflightId call.taskId) ↔
        ∃ call, calls.lookup c' = some call ∧ p call.inflightId call.taskId := by
    intro p c'
    rw [UnorderedMap.lookup_insert]
    split
    · next same => rw [same, stored]; simp [id, task]
    · rfl
  constructor
  · intro id c'
    rw [h.alive]
    exact (forward (p := fun i _ => i = id)).symm
  · exact h.held
  · intro t c'
    rw [h.task]
    exact and_congr_right fun _ => (forward (p := fun _ s => s = t)).symm
  · exact h.indexed
  · intro c' call'' stored'
    obtain ⟨old, there, same⟩ := (forward (p := fun i _ => call''.inflightId = i)).mp
      ⟨call'', stored', rfl⟩
    rw [same]
    exact h.drawn there
  · intro c' call'' stored' named
    obtain ⟨old, there, same⟩ := (forward (p := fun _ s => call''.taskId = s)).mp
      ⟨call'', stored', rfl⟩
    rw [same] at named ⊢
    exact h.taskDrawn there named

theorem launch (h : Tables env inflight calls live byTask draws) (new : calls.lookup c = none)
    (id : call.inflightId = env.randomHex 16 draws) (task : call.taskId = "") (agent : String)
    (key : ToolKey) (hash summary : String) (now : UInt64) :
    Tables env (inflight.insert (env.randomHex 16 draws) agent key hash summary now)
      (calls.insert c call) (live.insert (env.randomHex 16 draws) c) byTask (draws + 1) := by
  have unused : ∀ {c' call'}, calls.lookup c' = some call' →
      call'.inflightId ≠ env.randomHex 16 draws := by
    intro c' call' stored same
    obtain ⟨n, before, drawn⟩ := h.drawn stored
    exact Nat.ne_of_lt before (env.distinct 16 (drawn.symm.trans same))
  have absent : live.lookup (env.randomHex 16 draws) = none := by
    by_contra there
    obtain ⟨c', there⟩ := Option.ne_none_iff_exists'.mp there
    obtain ⟨call', stored, same⟩ := h.alive.mp there
    exact unused stored same
  constructor
  · intro id' c'
    simp only [UnorderedMap.lookup_insert]
    by_cases here : c' = c
    · subst here
      simp only [if_pos, Option.some.injEq, exists_eq_left', id]
      constructor
      · intro stored
        split at stored
        · next same => exact same.symm
        · obtain ⟨call', there, -⟩ := h.alive.mp stored
          rw [new] at there
          cases there
      · rintro rfl
        exact if_pos rfl
    · simp only [if_neg here]
      rw [← h.alive]
      split
      · next same =>
        rw [same, absent]
        simp [Ne.symm here]
      · rfl
  · intro id'
    rw [InFlight.holds_insert, h.held, UnorderedMap.lookup_insert]
    split
    · next same => simp [same]
    · next other => simp [other]
  · intro t c'
    rw [h.task, UnorderedMap.lookup_insert]
    refine and_congr_right fun named => ?_
    split
    · next same => rw [same, new]; simp [task, Ne.symm named]
    · rfl
  · refine h.indexed.insert ?_
    rw [h.held, absent]
    simp
  · intro c' call' stored
    rw [UnorderedMap.lookup_insert] at stored
    split at stored
    · cases stored
      exact ⟨draws, Nat.lt_succ_self _, id⟩
    · exact h.draw.drawn stored
  · intro c' call' stored named
    rw [UnorderedMap.lookup_insert] at stored
    split at stored
    · cases stored
      exact absurd task named
    · exact h.draw.taskDrawn stored named

theorem attach (h : Tables env inflight calls live byTask draws)
    (stored : calls.lookup c = some call) (without : call.taskId = "") {taskId : String}
    (fresh : taskId = "tsk_" ++ env.randomHex 8 draws) :
    Tables env (inflight.setTaskId call.inflightId taskId)
      (calls.insert c { call with taskId := taskId }) live (byTask.insert taskId c)
      (draws + 1) := by
  have named : taskId ≠ "" := fresh ▸ taskId_ne _
  -- the id is drawn only now, so no call has it
  have unused : ∀ {c' call'}, calls.lookup c' = some call' → call'.taskId ≠ taskId := by
    intro c' call' stored' same
    obtain ⟨n, before, drawn⟩ := h.taskDrawn stored' (same ▸ named)
    have texts := (drawn.symm.trans same).trans fresh
    exact Nat.ne_of_lt before (env.distinct 8 (String.append_right_inj _ |>.mp texts))
  constructor
  · intro id c'
    rw [h.alive, UnorderedMap.lookup_insert]
    split
    · next same => rw [same, stored]; simp
    · rfl
  · exact InFlight.holds_setTaskId.trans h.held
  · intro t c'
    simp only [UnorderedMap.lookup_insert]
    by_cases here : c' = c
    · subst here
      simp only [if_pos, Option.some.injEq, exists_eq_left']
      constructor
      · intro there
        split at there
        · next same => exact ⟨same ▸ named, same.symm⟩
        · obtain ⟨named', call', stored', same⟩ := h.task.mp there
          rw [stored] at stored'
          cases stored'
          exact absurd (same.symm.trans without) named'
      · rintro ⟨-, rfl⟩
        exact if_pos rfl
    · simp only [if_neg here]
      split
      · next same =>
        constructor
        · intro there
          exact absurd (Option.some.inj there).symm here
        · rintro ⟨-, call', stored', same'⟩
          exact absurd (same'.trans same) (unused stored')
      · exact h.task
  · exact h.indexed.setTaskId
  · intro c' call' stored'
    rw [UnorderedMap.lookup_insert] at stored'
    split at stored'
    · cases stored'
      have drawn := h.draw.drawn stored
      exact drawn
    · exact h.draw.drawn stored'
  · intro c' call' stored' named'
    rw [UnorderedMap.lookup_insert] at stored'
    split at stored'
    · cases stored'
      exact ⟨draws, Nat.lt_succ_self _, fresh⟩
    · exact h.draw.taskDrawn stored' named'

theorem destroy (h : Tables env inflight calls live byTask draws)
    (stored : calls.lookup c = some call) :
    Tables env (inflight.erase call.inflightId) (calls.erase c) (live.erase call.inflightId)
      (if call.taskId.isEmpty then byTask else byTask.erase call.taskId) draws := by
  -- the other calls keep their places
  have survivor : ∀ {c' call'}, (calls.erase c).lookup c' = some call' →
      c' ≠ c ∧ calls.lookup c' = some call' := by
    intro c' call' stored'
    rw [UnorderedMap.lookup_erase] at stored'
    split at stored'
    · cases stored'
    · next other => exact ⟨other, stored'⟩
  have survives : ∀ {c'}, c' ≠ c → (calls.erase c).lookup c' = calls.lookup c' := by
    intro c' other
    rw [UnorderedMap.lookup_erase, if_neg other]
  -- no other call has the id that is erased
  have alive' : ∀ {id c'}, (live.erase call.inflightId).lookup id = some c' ↔
      ∃ call', (calls.erase c).lookup c' = some call' ∧ call'.inflightId = id := by
    intro id c'
    rw [UnorderedMap.lookup_erase]
    constructor
    · intro there
      split at there
      · cases there
      · next other =>
        obtain ⟨call', stored', same⟩ := h.alive.mp there
        refine ⟨call', ?_, same⟩
        rw [survives, stored']
        rintro rfl
        rw [stored] at stored'
        cases stored'
        exact other same.symm
    · rintro ⟨call', there, same⟩
      obtain ⟨other, stored'⟩ := survivor there
      rw [if_neg]
      · exact h.alive.mpr ⟨call', stored', same⟩
      · intro clash
        exact other (h.eq_of_inflightId stored' stored (same.trans clash))
  constructor
  · exact alive'
  · intro id
    rw [InFlight.holds_erase, h.held, UnorderedMap.lookup_erase]
    split
    · next same => simp [same]
    · next other => simp [other]
  · intro t c'
    -- a call without a task leaves the tasks as they are
    have there : (if call.taskId.isEmpty then byTask else byTask.erase call.taskId).lookup t =
        if t ≠ "" ∧ t = call.taskId then none else byTask.lookup t := by
      split
      · next without =>
        rw [if_neg]
        rintro ⟨named, same⟩
        exact named (same.trans (String.isEmpty_iff.mp without))
      · next named =>
        rw [UnorderedMap.lookup_erase]
        refine if_congr ⟨fun same => ⟨?_, same⟩, And.right⟩ rfl rfl
        rintro rfl
        exact named (String.isEmpty_iff.mpr same.symm)
    rw [there]
    constructor
    · intro found
      split at found
      · cases found
      · next other =>
        obtain ⟨named, call', stored', same⟩ := h.task.mp found
        refine ⟨named, call', ?_, same⟩
        rw [survives, stored']
        rintro rfl
        rw [stored] at stored'
        cases stored'
        exact other ⟨named, same.symm⟩
    · rintro ⟨named, call', there, same⟩
      obtain ⟨other, stored'⟩ := survivor there
      rw [if_neg]
      · exact h.task.mpr ⟨named, call', stored', same⟩
      · rintro ⟨-, clash⟩
        exact other (h.eq_of_taskId stored' stored (same.trans clash) (same ▸ named))
  · exact h.indexed.erase
  · intro c' call' there
    exact h.drawn (survivor there).2
  · intro c' call' there named
    exact h.taskDrawn (survivor there).2 named

end Tables

theorem Tables.move (m : k.Move env P k')
    (new : k.calls.lookup k.nextCall = none)
    (h : Tables env k.inflight k.calls k.live k.byTask k.draws) :
    Tables env k'.inflight k'.calls k'.live k'.byTask k'.draws := by
  cases m with
  | tick => exact h.draw
  | launch w summary now t0 delay upTrace call _ built _ =>
    exact h.launch new (by rw [built]; rfl) (by rw [built]; rfl) _ _ _ _ _
  | launchAbsent w summary now t0 r call _ built _ =>
    exact h.launch new (by rw [built]; rfl) (by rw [built]; rfl) _ _ _ _ _
  | act c call call' events frames stored act =>
    exact h.update stored act.same.inflightId act.same.taskId
  | attach c call taskId stored without fresh => exact h.attach stored without fresh
  | mark id taskId => exact h.mark id taskId
  | destroy c call below _ stored _ _ => exact h.destroy stored
  | _ => exact h

/-! ## Permits -/

/-- The governor counts one slot for the permit of each live call. -/
def Accounts (gov : LocalGovernor Waiting) (calls : UnorderedMap ℕ Call) : Prop :=
  gov.Balanced
    (fun ts => UnorderedMap.total (fun _ call => (decide (call.permit.1.str = ts)).toNat) calls)
    (fun a => UnorderedMap.total (fun _ call => (decide (call.permit.2 = a)).toNat) calls)
    (UnorderedMap.total (fun _ _ => 1) calls)

namespace Accounts

variable {gov gov' : LocalGovernor Waiting} {calls : UnorderedMap ℕ Call}

theorem initial (cfg : YamlConfig) : Accounts { cfg := cfg } ∅ :=
  LocalGovernor.Balanced.initial cfg

/-- Only the three counters matter. -/
theorem congr (h : Accounts gov calls) (tool : gov'.toolInUse = gov.toolInUse)
    (agent : gov'.principalInUse = gov.principalInUse) (held : gov'.permitHeld = gov.permitHeld) :
    Accounts gov' calls :=
  ⟨tool ▸ h.tool, agent ▸ h.agent, held ▸ h.held⟩

/-- A slot that is taken and released at once leaves no trace. -/
theorem refuse (h : Accounts gov calls) (key : ToolKey) (agent : String) :
    Accounts ((gov.take key.str agent).releaseSlot key agent) calls :=
  LocalGovernor.Balanced.take_releaseSlot h

theorem launch (h : Accounts gov calls) (new : calls.lookup c = none) {key : ToolKey}
    {agent : String} (permit : call.permit = (key, agent)) :
    Accounts (gov.take key.str agent) (calls.insert c call) := by
  have more := fun f => UnorderedMap.total_insert_new (f := f) (v := call) new
  rw [Accounts, more, Nat.add_comm 1]
  refine LocalGovernor.Balanced.take h ?_ ?_ ?_ ?_
  · rw [more]
    simp [permit, Nat.add_comm]
  · intro t other
    rw [more]
    simp [permit, Ne.symm other]
  · rw [more]
    simp [permit, Nat.add_comm]
  · intro a other
    rw [more]
    simp [permit, Ne.symm other]

/-- A call keeps its permit. -/
theorem update (h : Accounts gov calls) (stored : calls.lookup c = some call)
    (permit : call'.permit = call.permit) : Accounts gov (calls.insert c call') := by
  have same : ∀ f : ToolKey × String → ℕ,
      UnorderedMap.total (fun _ call => f call.permit) (calls.insert c call') =
        UnorderedMap.total (fun _ call => f call.permit) calls := by
    intro f
    have written := UnorderedMap.total_insert_of_lookup
      (f := fun _ call => f call.permit) (v := call') stored
    rw [permit] at written
    omega
  refine ⟨fun ts => ?_, fun a => ?_, ?_⟩
  · rw [h.tool ts, same fun p => (decide (p.1.str = ts)).toNat]
  · rw [h.agent a, same fun p => (decide (p.2 = a)).toNat]
  · rw [h.held, same fun _ => 1]

theorem destroy (h : Accounts gov calls) (stored : calls.lookup c = some call) :
    Accounts (gov.releaseSlot call.permit.1 call.permit.2) (calls.erase c) := by
  have fewer := fun f => UnorderedMap.total_erase (f := f) stored
  have held := fewer fun _ _ => 1
  rw [Accounts, ← held] at h
  refine LocalGovernor.Balanced.releaseSlot h ?_ ?_ ?_ ?_
  · have := fewer fun _ call' => (decide (call'.permit.1.str = call.permit.1.str)).toNat
    simpa using this
  · intro t other
    have := fewer fun _ call' => (decide (call'.permit.1.str = t)).toNat
    simpa [Ne.symm other] using this
  · have := fewer fun _ call' => (decide (call'.permit.2 = call.permit.2)).toNat
    simpa using this
  · intro a other
    have := fewer fun _ call' => (decide (call'.permit.2 = a)).toNat
    simpa [Ne.symm other] using this

end Accounts

theorem Accounts.move (m : k.Move env P k')
    (new : k.calls.lookup k.nextCall = none)
    (h : Accounts k.gov k.calls) : Accounts k'.gov k'.calls := by
  cases m with
  | tools backend names => exact h.congr rfl rfl rfl
  | enqueue w deadline => exact h.congr rfl rfl rfl
  | dequeue ts l₁ w l₂ => exact h.congr rfl rfl rfl
  | reject ts l₁ w l₂ r => exact h.congr rfl rfl rfl
  | refuse w r => exact h.refuse w.key w.req.who.agentId
  | launch w summary now t0 delay upTrace call _ built _ =>
    exact h.launch new (by rw [built]; rfl)
  | launchAbsent w summary now t0 r call _ built _ => exact h.launch new (by rw [built]; rfl)
  | act c call call' events frames stored act => exact h.update stored act.same.permit
  | attach c call taskId stored => exact h.update stored rfl
  | destroy c call below _ stored _ _ => exact h.destroy stored
  | _ => exact h

/-! ## References -/

theorem unrefs_cons (f : PipelineFrame) (stack : List PipelineFrame) (c : ℕ) :
    unrefs (f :: stack) c = unrefs [f] c + unrefs stack c := by
  rw [unrefs, unrefs, unrefs, List.countP_cons, List.countP_singleton, Nat.add_comm]

theorem unrefs_append (frames stack : List PipelineFrame) (c : ℕ) :
    unrefs (frames ++ stack) c = unrefs frames c + unrefs stack c :=
  List.countP_append

@[simp] theorem unrefs_nil (c : ℕ) : unrefs [] c = 0 := rfl

@[simp] theorem unrefs_unref (c' : ℕ) : unrefs [.unref c'] c = if c' = c then 1 else 0 := by
  simp [unrefs]

theorem unrefs_pos_iff {stack : List PipelineFrame} : 0 < unrefs stack c ↔ .unref c ∈ stack := by
  rw [unrefs, List.countP_pos_iff]
  constructor
  · rintro ⟨f, member, hit⟩
    cases f with
    | unref c' => rwa [of_decide_eq_true hit] at member
    | _ => cases hit
  · intro member
    exact ⟨_, member, decide_eq_true rfl⟩

/-- The outcome of a failed attempt is handled while the code that made the attempt still
holds the call. -/
def Anchored : List PipelineFrame → Prop
  | [] => True
  | .onUpstream c _ :: below => .unref c ∈ below ∧ Anchored below
  | _ :: below => Anchored below

/-- Frames refer to live calls, and live calls have references. -/
structure References (env : Env) (calls : UnorderedMap ℕ Call) (stack : List PipelineFrame) :
    Prop where
  unref : ∀ {c}, .unref c ∈ stack → ∃ call, calls.lookup c = some call
  anchored : Anchored stack
  absent : ∀ {c r call}, .onUpstream c r ∈ stack → calls.lookup c = some call →
    env.catalog.backend call.key.backend = false
  held : ∀ {c call}, calls.lookup c = some call → 0 < call.refs stack c

theorem Anchored.tail {f : PipelineFrame} {below : List PipelineFrame}
    (h : Anchored (f :: below)) : Anchored below := by
  cases f with
  | onUpstream c r => exact h.2
  | _ => exact h

theorem Anchored.unref_mem {stack : List PipelineFrame} {r : Response} (h : Anchored stack)
    (member : .onUpstream c r ∈ stack) : .unref c ∈ stack := by
  induction stack with
  | nil => cases member
  | cons f below ih =>
    rcases List.mem_cons.mp member with rfl | member
    · exact List.mem_cons_of_mem _ h.1
    · exact List.mem_cons_of_mem _ (ih h.tail member)

theorem Anchored.append {frames stack : List PipelineFrame} (h : Anchored stack)
    (plain : ∀ c r, .onUpstream c r ∉ frames) : Anchored (frames ++ stack) := by
  induction frames with
  | nil => exact h
  | cons f frames ih =>
    have rest := ih fun c r member => plain c r (List.mem_cons_of_mem _ member)
    cases f with
    | onUpstream c r => exact absurd (List.mem_cons_self ..) (plain c r)
    | _ => exact rest

namespace References

variable {calls : UnorderedMap ℕ Call} {stack below frames : List PipelineFrame} {r : Response}
  {f : PipelineFrame}

theorem initial : References env ∅ [] where
  unref := by simp
  anchored := trivial
  absent := by simp
  held := by simp [AList.lookup_empty]

theorem grow (h : References env calls stack) (frames : List PipelineFrame)
    (plain : ∀ c r, .onUpstream c r ∉ frames)
    (known : ∀ c, .unref c ∈ frames → ∃ call, calls.lookup c = some call) :
    References env calls (frames ++ stack) where
  unref := fun member => (List.mem_append.mp member).elim (known _) h.unref
  anchored := h.anchored.append plain
  absent := fun member stored =>
    (List.mem_append.mp member).elim (fun here => absurd here (plain _ _))
      fun there => h.absent there stored
  held := by
    intro c call stored
    have := h.held stored
    rw [Call.refs, unrefs_append]
    rw [Call.refs] at this
    omega

theorem update (h : References env calls stack) (stored : calls.lookup c = some call)
    (key : call'.key = call.key) (held : 0 < call'.refs stack c) :
    References env (calls.insert c call') stack := by
  constructor
  · intro c' member
    rw [UnorderedMap.lookup_insert]
    split
    · exact ⟨call', rfl⟩
    · exact h.unref member
  · exact h.anchored
  · intro c' r call'' member stored'
    rw [UnorderedMap.lookup_insert] at stored'
    split at stored'
    · next same =>
      cases stored'
      rw [key]
      exact h.absent (same ▸ member) stored
    · exact h.absent member stored'
  · intro c' call'' stored'
    rw [UnorderedMap.lookup_insert] at stored'
    split at stored'
    · next same =>
      cases stored'
      exact same ▸ held
    · exact h.held stored'

theorem launch (h : References env calls stack) (new : calls.lookup c = none) (call : Call) :
    References env (calls.insert c call) (.unref c :: stack) := by
  have unknown : .unref c ∉ stack := by
    intro member
    obtain ⟨call', stored⟩ := h.unref member
    rw [new] at stored
    cases stored
  constructor
  · intro c' member
    rw [UnorderedMap.lookup_insert]
    split
    · exact ⟨call, rfl⟩
    · next other =>
      rcases List.mem_cons.mp member with same | member
      · cases same
        exact absurd rfl other
      · exact h.unref member
  · exact h.anchored
  · intro c' r call' member stored
    replace member : .onUpstream c' r ∈ stack := by
      rcases List.mem_cons.mp member with same | member
      · cases same
      · exact member
    rw [UnorderedMap.lookup_insert] at stored
    split at stored
    · next same => exact absurd (h.anchored.unref_mem (same ▸ member)) unknown
    · exact h.absent member stored
  · intro c' call' stored
    rw [UnorderedMap.lookup_insert] at stored
    rw [Call.refs, unrefs_cons, unrefs_unref]
    split at stored
    · next same =>
      rw [if_pos same.symm]
      omega
    · have := h.held stored
      rw [Call.refs] at this
      omega

/-- An outcome at an absent backend is about to be handled. -/
theorem outcome (h : References env calls stack) (anchor : .unref c ∈ stack)
    (absent : ∀ call, calls.lookup c = some call → env.catalog.backend call.key.backend = false)
    (r : Response) : References env calls (.onUpstream c r :: stack) where
  unref := by
    intro c' member
    rcases List.mem_cons.mp member with same | member
    · cases same
    · exact h.unref member
  anchored := ⟨anchor, h.anchored⟩
  absent := by
    intro c' r' call member stored
    rcases List.mem_cons.mp member with same | member
    · cases same
      exact absent call stored
    · exact h.absent member stored
  held := by
    intro c' call stored
    have := h.held stored
    rw [Call.refs, unrefs_cons]
    rw [Call.refs] at this
    omega

theorem pop (h : References env calls (f :: below))
    (kept : ∀ c call, f = .unref c → calls.lookup c = some call → 0 < call.refs below c) :
    References env calls below where
  unref := fun member => h.unref (List.mem_cons_of_mem _ member)
  anchored := h.anchored.tail
  absent := fun member => h.absent (List.mem_cons_of_mem _ member)
  held := by
    intro c call stored
    have before := h.held stored
    by_cases here : f = .unref c
    · exact kept c call here stored
    · have none : unrefs [f] c = 0 := by
        refine Nat.eq_zero_of_not_pos fun positive => here ?_
        exact (List.mem_singleton.mp (unrefs_pos_iff.mp positive)).symm
      rw [Call.refs, unrefs_cons, none, Nat.zero_add] at before
      exact before

theorem destroy (h : References env calls (.unref c :: below))
    (last : call.refs below c = 0) : References env (calls.erase c) below := by
  have gone : .unref c ∉ below := by
    intro member
    have := unrefs_pos_iff.mpr member
    rw [Call.refs] at last
    omega
  constructor
  · intro c' member
    rw [UnorderedMap.lookup_erase, if_neg]
    · exact h.unref (List.mem_cons_of_mem _ member)
    · rintro rfl
      exact gone member
  · exact h.anchored
  · intro c' r call' member stored
    rw [UnorderedMap.lookup_erase] at stored
    split at stored
    · cases stored
    · exact h.absent (List.mem_cons_of_mem _ member) stored
  · intro c' call' stored
    rw [UnorderedMap.lookup_erase] at stored
    split at stored
    · cases stored
    · next other =>
      have := h.held stored
      rw [Call.refs, unrefs_cons, unrefs_unref, if_neg (Ne.symm other), Nat.zero_add] at this
      exact this

end References

/-- No act loses the last reference without leaving a frame that holds one. -/
theorem Call.Act.held {events : List PipelineEvent} {frames stack : List PipelineFrame}
    (act : call.Act env P hand c call' events frames) (before : 0 < call.refs stack c) :
    0 < call'.refs (frames ++ stack) c := by
  rw [Call.refs] at before
  rw [Call.refs, unrefs_append]
  cases act with
  | touch | respond | cancelled => simpa using before
  | promote | drop | abandon => rw [unrefs_unref, if_pos rfl]; omega
  | disarm running => dsimp only; omega
  | outcome klass | retry r circuitOpen shield now delay upTrace =>
    simp only [delivered, fired]
    omega

theorem Call.Act.frames {events : List PipelineEvent} {frames : List PipelineFrame}
    (act : call.Act env P hand c call' events frames) :
    (∀ c r, .onUpstream c r ∉ frames) ∧ ∀ c', .unref c' ∈ frames → c' = c := by
  cases act <;> simp

theorem References.move (m : k.Move env P k')
    (new : k.calls.lookup k.nextCall = none)
    (h : References env k.calls k.stack) : References env k'.calls k'.stack := by
  cases m with
  | refuse w r => exact h.grow [_] (by simp) (by simp)
  | launch w summary now t0 delay upTrace call =>
    exact (h.launch new _).grow [_] (by simp) (by simp)
  | launchAbsent w summary now t0 r call _ _ absent =>
    refine (h.launch new call).outcome (List.mem_cons_self ..) ?_ r
    intro call' stored
    rw [AList.lookup_insert] at stored
    cases stored
    exact absent
  | act c call call' events frames stored act =>
    have grown := h.grow frames act.frames.1 fun c' member =>
      ⟨call, act.frames.2 c' member ▸ stored⟩
    exact grown.update stored act.same.key (act.held (h.held stored))
  | attach c call taskId stored =>
    have held := h.held stored
    exact h.update stored rfl held
  | absentOutcome c call r below again top =>
    rw [top] at h
    have popped := h.pop fun c' call same => by cases same
    cases again with
    | none => exact popped
    | some r' =>
      exact popped.outcome h.anchored.1
        (fun call stored => h.absent (List.mem_cons_self ..) stored) r'
  | pop f below top _ kept =>
    rw [top] at h
    refine h.pop fun c call same stored => ?_
    obtain ⟨call', stored', positive⟩ := kept c same
    rw [stored] at stored'
    cases stored'
    exact positive
  | destroy c call below top stored _ last =>
    rw [top] at h
    exact (h.destroy last).grow [_] (by simp) (by simp)
  | _ => exact h

end Perfacet
