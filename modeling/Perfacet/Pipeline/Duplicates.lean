import Perfacet.Pipeline.Admission

/-!
# Duplicates

When a call starts for a request without a confirm token, no call with the same agent, tool
and parameters is live, if requests are only accepted while no identical one is waiting and
an unconfirmed one only while no identical call is live. The code checks the latter through
an index and the former not at all, so this is what is asked of a run.

## Main results

* `Core.awaiting_move` — only an accepted request begins to wait
* `Unrivalled.move` — an unconfirmed request on its way stays the only one of its kind
* `Untwinned.move` — then it has no twin when it starts
-/

namespace Perfacet

/-- By what duplicates are recognised. -/
abbrev Identity := String × ToolKey × String

/-- A request with this identity may be handed to the governor: all that wait with it are
confirmed like it is, and an unconfirmed one has no live call beside it. -/
def Waiting.Unrivalled (gov : LocalGovernor Waiting) (calls : UnorderedMap ℕ Call) (w : Waiting) :
    Prop :=
  (∀ ts, ∀ w' ∈ gov.queue ts, w'.cb.identity = w.identity →
      w'.cb.confirmed = true ∧ w.confirmed = true) ∧
    (w.confirmed = false → twin calls w.identity = false)

variable {env : Env} {P : Promise} {hand : Hand} {k k' : Core} {c c' : ℕ} {call call' : Call}
  {i : Identity}

/-- What the running code has in hand for the governor. -/
def Hand.awaiting (p : Waiting → Bool) : Hand → ℕ
  | .waiting w => (p w).toNat
  | _ => 0

/-- How many requests with a property wait, in queues and in hand. -/
def Core.awaiting (k : Core) (p : Waiting → Bool) : ℕ :=
  LocalGovernor.waiting p k.gov + k.hand.awaiting p

/-- A request has a given identity. -/
def Waiting.isLike (i : Identity) (w : Waiting) : Bool := decide (w.identity = i)

/-- A request has a given identity and did not present a confirm token. -/
def Waiting.isLoose (i : Identity) (w : Waiting) : Bool := w.isLike i && !w.confirmed

/-- An unconfirmed request that waits is the only one with its identity, and no call with its
identity is live. -/
def Core.Unrivalled (k : Core) : Prop :=
  ∀ i, 0 < k.awaiting (Waiting.isLoose i) →
    k.awaiting (Waiting.isLike i) = 1 ∧ twin k.calls i = false

theorem twin_eq_false {calls : UnorderedMap ℕ Call} :
    twin calls i = false ↔ ∀ c call, calls.lookup c = some call → call.identity ≠ i := by
  rw [twin, List.any_eq_false]
  constructor
  · intro h c call stored same
    exact h ⟨c, call⟩ (UnorderedMap.mem_entries_iff.mpr stored) (decide_eq_true same)
  · rintro h ⟨c, call⟩ member same
    exact h c call (UnorderedMap.mem_entries_iff.mp member) (of_decide_eq_true same)

theorem twin_insert {calls : UnorderedMap ℕ Call} (none : twin calls i = false)
    (different : call.identity ≠ i) (c : ℕ) : twin (calls.insert c call) i = false := by
  rw [twin_eq_false] at none ⊢
  intro c' call' stored
  rw [UnorderedMap.lookup_insert] at stored
  split at stored
  · cases stored
    exact different
  · exact none c' call' stored

theorem twin_erase {calls : UnorderedMap ℕ Call} (none : twin calls i = false) (c : ℕ) :
    twin (calls.erase c) i = false := by
  rw [twin_eq_false] at none ⊢
  intro c' call' stored
  rw [UnorderedMap.lookup_erase] at stored
  split at stored
  · cases stored
  · exact none c' call' stored

theorem Call.Act.identity {events : List PipelineEvent} {frames : List PipelineFrame}
    (act : call.Act env P hand c call' events frames) : call'.identity = call.identity := by
  rw [Call.identity, Call.identity, act.same.req, act.same.key, act.same.paramsHash]

namespace Core

theorem awaiting_mono {p q : Waiting → Bool} (h : ∀ w, p w = true → q w = true) (k : Core) :
    k.awaiting p ≤ k.awaiting q := by
  have queued := LocalGovernor.waiting_mono h k.gov
  rw [awaiting, awaiting]
  cases k.hand with
  | waiting w =>
    have held : (p w).toNat ≤ (q w).toNat := Bool.toNat_le_toNat (h w)
    exact Nat.add_le_add queued held
  | _ => exact queued

theorem loose_le_like (k : Core) (i : Identity) :
    k.awaiting (Waiting.isLoose i) ≤ k.awaiting (Waiting.isLike i) :=
  awaiting_mono (fun _ loose => (Bool.and_eq_true _ _ |>.mp loose).1) k

/-- If nothing new waits and no call becomes live, nothing can go wrong. -/
theorem Unrivalled.mono (h : k.Unrivalled) (fewer : ∀ p, k'.awaiting p ≤ k.awaiting p)
    (calls : ∀ i, twin k.calls i = false → twin k'.calls i = false) : k'.Unrivalled := by
  intro i positive
  obtain ⟨one, none⟩ := h i (Nat.lt_of_lt_of_le positive (fewer _))
  refine ⟨Nat.le_antisymm (one ▸ fewer _) ?_, calls i none⟩
  exact Nat.lt_of_lt_of_le positive (k'.loose_le_like i)

/-- A request that is accepted waits from then on. -/
theorem awaiting_accept {rid : ℕ} (holds : k.hand = .request rid) (w : Waiting)
    (p : Waiting → Bool) :
    Core.awaiting { k with hand := .waiting w } p = k.awaiting p + (p w).toNat := by
  rw [awaiting, awaiting, holds]
  rfl

/-- An accepted request has no rival. -/
theorem Unrivalled.accept (h : k.Unrivalled) {w : Waiting}
    {rid : ℕ} (holds : k.hand = .request rid)
    (alone : w.Unrivalled k.gov k.calls) : Core.Unrivalled { k with hand := .waiting w } := by
  have more := awaiting_accept holds w
  have empty : ∀ p, k.awaiting p = LocalGovernor.waiting p k.gov := fun p => by
    rw [awaiting, holds]
    rfl
  intro i positive
  simp only [more] at positive ⊢
  by_cases like : w.identity = i
  · -- all that wait with this identity are confirmed, so the new one is the loose one
    have queued : k.awaiting (Waiting.isLoose i) = 0 := by
      rw [empty]
      refine Nat.eq_zero_of_not_pos fun some => ?_
      obtain ⟨ts, w', member, loose⟩ := (LocalGovernor.waiting_pos_iff _).mp some
      simp only [Waiting.isLoose, Waiting.isLike, Bool.and_eq_true, decide_eq_true_eq,
        Bool.not_eq_true'] at loose
      have confirmed := (alone.1 ts w' member (loose.1.trans like.symm)).1
      rw [loose.2] at confirmed
      cases confirmed
    have loose : w.confirmed = false := by
      cases flag : w.confirmed with
      | false => rfl
      | true => simp [queued, Waiting.isLoose, flag] at positive
    have first : k.awaiting (Waiting.isLike i) = 0 := by
      rw [empty]
      refine Nat.eq_zero_of_not_pos fun some => ?_
      obtain ⟨ts, w', member, same⟩ := (LocalGovernor.waiting_pos_iff _).mp some
      have confirmed := (alone.1 ts w' member ((of_decide_eq_true same).trans like.symm)).2
      rw [loose] at confirmed
      cases confirmed
    refine ⟨?_, like ▸ alone.2 loose⟩
    rw [first]
    simp [Waiting.isLike, like]
  · have other : (Waiting.isLike i w).toNat = 0 := by simp [Waiting.isLike, like]
    have neither : (Waiting.isLoose i w).toNat = 0 := by
      simp [Waiting.isLoose, Waiting.isLike, like]
    rw [neither] at positive
    rw [other]
    exact h i positive

/-- A request that becomes a call waits no longer. -/
theorem awaiting_launch {w : Waiting} (holds : k.hand = .waiting w)
    (same : k'.gov.queues = k.gov.queues) (empty : k'.hand = .empty) (p : Waiting → Bool) :
    k'.awaiting p + (p w).toNat = k.awaiting p := by
  rw [awaiting, awaiting, LocalGovernor.waiting_congr p same, holds, empty]
  rfl

/-- A request that becomes a call was the only one with its identity that was loose. -/
theorem Unrivalled.launch (h : k.Unrivalled) {w : Waiting} (holds : k.hand = .waiting w)
    (same : k'.gov.queues = k.gov.queues) (empty : k'.hand = .empty) {call : Call}
    (started : k'.calls = k.calls.insert c call) (identity : call.identity = w.identity) :
    k'.Unrivalled := by
  have fewer := awaiting_launch holds same empty
  intro i positive
  have like := fewer (Waiting.isLike i)
  have loose := fewer (Waiting.isLoose i)
  obtain ⟨one, none⟩ := h i (by omega)
  have ordered := k'.loose_le_like i
  by_cases this : w.identity = i
  · have here : (Waiting.isLike i w).toNat = 1 := by simp [Waiting.isLike, this]
    omega
  · have other : (Waiting.isLike i w).toNat = 0 := by simp [Waiting.isLike, this]
    refine ⟨by omega, ?_⟩
    rw [started]
    exact twin_insert none (fun clash => this (identity.symm.trans clash)) c

/-- A move makes nobody wait, unless it accepts a request. -/
theorem awaiting_move (m : k.Move env P k') :
    (∀ p, k'.awaiting p ≤ k.awaiting p) ∨
      ∃ w, k.hand = .request w.onDone.rid ∧ P.accept k.gov k.inflight k.calls w ∧
        k' = { k with hand := .waiting w } := by
  cases m with
  | accept w holds runs admitted promise => exact .inr ⟨w, holds, promise, rfl⟩
  | enqueue w deadline holds =>
    refine .inl fun p => ?_
    rw [awaiting, awaiting, LocalGovernor.waiting_enqueue, holds]
    exact Nat.le_refl _
  | dequeue ts l₁ w l₂ holds split =>
    refine .inl fun p => ?_
    have fewer := LocalGovernor.waiting_unqueue p split
    rw [awaiting, awaiting, holds, ← fewer]
    exact Nat.le_refl _
  | reject ts l₁ w l₂ r split =>
    refine .inl fun p => ?_
    have fewer := LocalGovernor.waiting_unqueue p split
    rw [awaiting, awaiting]
    dsimp only
    omega
  | receive req holds | stop holds =>
    refine .inl fun p => ?_
    rw [awaiting, awaiting, holds]
    exact Nat.le_refl _
  | answer | throw | turnAway | refuse | launch | launchAbsent | stopped =>
    exact .inl fun p => Nat.le_add_right _ _
  | _ => exact .inl fun p => Nat.le_refl _

theorem Unrivalled.move (m : k.Move env P k')
    (accept : ∀ w, P.accept k.gov k.inflight k.calls w → w.Unrivalled k.gov k.calls)
    (queued : Queued env k.gov.queue k.hand k.log) (h : k.Unrivalled) : k'.Unrivalled := by
  have newCall : ∀ w iid t0, k.hand = .waiting w →
      (PipelineState.newCall w iid t0).identity = w.identity := by
    intro w iid t0 holds
    simp [Call.identity, Waiting.identity, PipelineState.newCall, (queued.hand holds).parsed]
  rcases awaiting_move m with fewer | ⟨w, holds, promise, rfl⟩
  · cases m with
    | launch w summary now t0 delay upTrace call holds built =>
      exact h.launch holds rfl rfl rfl
        (by rw [built]; exact newCall w (env.randomHex 16 k.draws) t0 holds)
    | launchAbsent w summary now t0 r call holds built =>
      exact h.launch holds rfl rfl rfl
        (by rw [built]; exact newCall w (env.randomHex 16 k.draws) t0 holds)
    | act c call call' events frames stored act =>
      refine h.mono fewer fun i none => ?_
      exact twin_insert none (act.identity ▸ twin_eq_false.mp none c call stored) c
    | attach c call taskId stored =>
      refine h.mono fewer fun i none => ?_
      exact twin_insert none (twin_eq_false.mp none c call stored) c
    | destroy c call below top stored =>
      exact h.mono fewer fun i none => twin_erase none c
    | _ => exact h.mono fewer fun _ => id
  · exact h.accept holds (accept w promise)

/-- Nobody started without a token while a call with the same identity was live. -/
def Untwinned (k : Core) : Prop := ∀ c rid, .started c rid false true ∉ k.log

theorem Untwinned.append (h : k.Untwinned) (events : List PipelineEvent)
    (log : k'.log = events ++ k.log) (plain : ∀ c rid, .started c rid false true ∉ events) :
    k'.Untwinned := by
  intro c rid member
  rw [log] at member
  exact (List.mem_append.mp member).elim (plain c rid) (h c rid)

theorem Untwinned.move (m : k.Move env P k') (unrivalled : k.Unrivalled) (h : k.Untwinned) :
    k'.Untwinned := by
  have alone : ∀ {w}, k.hand = .waiting w → w.confirmed = false →
      twin k.calls w.identity = false := by
    intro w holds loose
    refine (unrivalled w.identity ?_).2
    rw [awaiting, holds, Hand.awaiting]
    simp [Waiting.isLoose, Waiting.isLike, loose]
  cases m with
  | launch w summary now t0 delay upTrace call holds built =>
    refine h.append [_, _] rfl fun c rid member => ?_
    simp only [List.mem_cons, reduceCtorEq, List.not_mem_nil, or_false, false_or,
      PipelineEvent.started.injEq] at member
    obtain ⟨-, -, loose, some⟩ := member
    rw [alone holds loose.symm] at some
    cases some
  | launchAbsent w summary now t0 r call holds built =>
    refine h.append [_] rfl fun c rid member => ?_
    simp only [List.mem_singleton, PipelineEvent.started.injEq] at member
    obtain ⟨-, -, loose, some⟩ := member
    rw [alone holds loose.symm] at some
    cases some
  | act c call call' events frames stored act =>
    exact h.append events rfl fun c rid member => (act.plain _ member).2.1 _ _ _ _ rfl
  | receive | answer | throw | turnAway | reject | refuse | absentOutcome | destroy | stop =>
    exact h.append [_] rfl (by simp)
  | _ => exact h

end Core

end Perfacet
