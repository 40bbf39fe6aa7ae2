import Perfacet.Pipeline.Duplicates
import Perfacet.Pipeline.Guarantees
import Perfacet.Pipeline.Isolation

/-!
# Confirm tokens

A duplicate may go upstream beside the running call if it presents the token of that call.
Nothing records that a token was used: it ceases to be accepted because the call that it let
in takes the place of the older one in the index. That happens only when the call starts, so
two requests with one token can wait in the governor's queues and both start. A token is good
for one call in the runs in which nobody presents one that somebody else waits with.

## Main definitions

* `StartedBy` — a call was started on the strength of a token
* `PipelineState.reuses` — a step takes a token that a request waits with
* `PipelineState.Vouched` — a request names a live call with the same agent, tool and hash

## Main results

* `Core.OneTime.move` — once a token has let a call in, the index no longer leads to it
* `confirm_token_once` — in runs that reuse no token each lets in at most one call
* `token_used_twice` — a run in which a token lets in two
-/

namespace Perfacet

variable {env : Env} {P : Promise} {h : List (TransitionSystem.Step PipelineState PipelineInput)}
  {k k' : Core} {s s' : PipelineState} {c c' rid : ℕ} {X : String} {w : Waiting} {req : Request}
  {log events : List PipelineEvent} {input : PipelineInput}

/-! ## Tokens -/

/-- A request presents the token of the call with in-flight id `X`. -/
def Request.presents (req : Request) (X : String) : Bool :=
  match PipelineState.confirmToken req with
  | .ok confirm => decide (confirm = "if_" ++ X)
  | .error _ => false

theorem Request.presents_iff :
    req.presents X = true ↔ PipelineState.confirmToken req = .ok ("if_" ++ X) := by
  unfold presents
  cases PipelineState.confirmToken req with
  | ok confirm => simp
  | error e => simp

/-- A request presents one token. -/
theorem Request.eq_of_presents {X' : String} (one : req.presents X = true)
    (other : req.presents X' = true) : X = X' := by
  rw [presents_iff] at one other
  have same := Except.ok.inj (one.symm.trans other)
  have chars := congrArg String.toList same
  rw [String.toList_append, String.toList_append] at chars
  exact String.toList_inj.mp (List.append_cancel_left chars)

/-- A request waits that was let in by the token of `X`. -/
def Waiting.bears (X : String) (w : Waiting) : Bool := w.confirmed && w.req.presents X

/-- Under which key a request is looked up and entered. -/
def Waiting.mapKey (w : Waiting) : String :=
  InFlight.mapKey w.req.who.agentId w.key.str w.hash

/-- Call `c` was started on the strength of the token of `X`. -/
def StartedBy (X : String) (log : List PipelineEvent) (c : ℕ) : Prop :=
  ∃ rid twin req, .started c rid true twin ∈ log ∧ .request rid req ∈ log ∧
    req.presents X = true

/-- Events that start nothing, and are no arrivals of requests that something was started for. -/
theorem StartedBy.of_append (starts : StartedBy X (events ++ log) c)
    (plain : ∀ c rid twin, .started c rid true twin ∉ events)
    (late : ∀ rid req, .request rid req ∈ events → ∀ c twin, .started c rid true twin ∉ log) :
    StartedBy X log c := by
  obtain ⟨rid, twin, req, started, received, presents⟩ := starts
  have started := (List.mem_append.mp started).resolve_left (plain c rid twin)
  refine ⟨rid, twin, req, started, ?_, presents⟩
  exact (List.mem_append.mp received).resolve_left fun new => late rid req new c twin started

/-- A request may be handed to the governor on the strength of the token of `X`: it is looked up
under the key of `X`, and nobody waits with the same token. -/
structure Waiting.Honoured (gov : LocalGovernor Waiting) (inflight : InFlight) (w : Waiting)
    (X : String) : Prop where
  presents : w.req.presents X = true
  entry : ∃ e, inflight.lookup w.req.who.agentId w.key w.hash = some e ∧ e.inflightId = X
  unused : LocalGovernor.waiting (Waiting.bears X) gov = 0

namespace Core

/-! ## Calls are started for requests that were received -/

/-- Calls are started for requests that have come in. -/
def Known (k : Core) : Prop :=
  ∀ c rid confirmed twin, .started c rid confirmed twin ∈ k.log → rid < k.nextRequest

theorem Known.append (h : k.Known) (events : List PipelineEvent)
    (plain : ∀ c rid f t, .started c rid f t ∉ events) (log : k'.log = events ++ k.log)
    (later : k.nextRequest ≤ k'.nextRequest) : k'.Known := by
  intro c rid confirmed twin started
  rw [log] at started
  have old := (List.mem_append.mp started).resolve_left (plain c rid confirmed twin)
  exact (h c rid confirmed twin old).trans_le later

theorem Known.launched (h : k.Known) (ok : k.Ok env) (holds : k.hand = .waiting w)
    (summary : String) (now : UInt64) (call : Call) (frames : List PipelineFrame)
    (plain : ∀ c rid f t, .started c rid f t ∉ events) :
    (k.launched env w summary now call frames events).Known := by
  intro c rid confirmed twin started
  rcases List.mem_append.mp started with new | member
  · exact absurd new (plain c rid confirmed twin)
  rcases List.mem_cons.mp member with same | old
  · cases same
    obtain ⟨trace, received⟩ := (ok.orderly.queued.hand holds).received
    exact ok.orderly.numbered.request received
  · exact h c rid confirmed twin old

theorem Known.move (m : k.Move env P k') (ok : k.Ok env) (h : k.Known) : k'.Known := by
  cases m with
  | receive => exact h.append [_] (by simp) rfl (Nat.le_succ _)
  | answer | throw | turnAway | reject | refuse | absentOutcome | destroy | stop =>
    exact h.append [_] (by simp) rfl (Nat.le_refl _)
  | launch w summary now t0 delay upTrace call holds =>
    exact h.launched ok holds summary now _ _ (by simp)
  | launchAbsent w summary now t0 r call holds =>
    exact h.launched ok holds summary now _ _ (by simp)
  | act c call call' events frames stored act =>
    exact h.append events (fun c rid f t new => (act.plain _ new).2.1 c rid f t rfl) rfl
      (Nat.le_refl _)
  | _ => exact h

/-! ## A token is good for one call -/

/-- A request that waits with the token of `X`, but under another key than `mk`. -/
def strays (X mk : String) (w : Waiting) : Bool := w.bears X && decide (w.mapKey ≠ mk)

theorem bears_of_strays {mk : String} (stray : strays X mk w = true) : w.bears X = true :=
  (Bool.and_eq_true _ _ |>.mp stray).1

/-- The token of `X` has let in at most one call. While a request waits with it, the index leads
to `X` under the key of that request only, and afterwards nowhere. -/
structure OneTime (env : Env) (X : String) (k : Core) : Prop where
  single : k.awaiting (Waiting.bears X) ≤ 1
  keyed : ∀ mk, k.inflight.keyToId.lookup mk = some X → k.awaiting (strays X mk) = 0
  drawn : 0 < k.awaiting (Waiting.bears X) ∨ (∃ c, StartedBy X k.log c) →
    ∃ n < k.draws, env.randomHex 16 n = X
  spent : ∀ c, StartedBy X k.log c → k.awaiting (Waiting.bears X) = 0 ∧
    ∀ mk, k.inflight.keyToId.lookup mk ≠ some X
  unique : ∀ c c', StartedBy X k.log c → StartedBy X k.log c' → c = c'

namespace OneTime

theorem initial : (Core.initial env.cfg).OneTime env X where
  single := by simp [Core.initial, awaiting, Hand.awaiting, LocalGovernor.waiting_initial]
  keyed := fun mk found => by simp [Core.initial, AList.lookup_empty] at found
  drawn := by
    simp [Core.initial, awaiting, Hand.awaiting, LocalGovernor.waiting_initial, StartedBy]
  spent := fun c ⟨_, _, _, started, _⟩ => by simp [Core.initial] at started
  unique := fun c c' ⟨_, _, _, started, _⟩ => by simp [Core.initial] at started

/-- If nothing new waits or starts and the index does not get to lead to `X`, nothing can go
wrong. -/
theorem mono (h : k.OneTime env X)
    (fewer : ∀ p : Waiting → Bool, (∀ w, p w = true → w.bears X = true) →
      k'.awaiting p ≤ k.awaiting p)
    (started : ∀ c, StartedBy X k'.log c → StartedBy X k.log c) (draws : k.draws ≤ k'.draws)
    (index : (∃ n < k.draws, env.randomHex 16 n = X) → ∀ mk,
      k'.inflight.keyToId.lookup mk = some X → k.inflight.keyToId.lookup mk = some X) :
    k'.OneTime env X := by
  have bears := fewer (Waiting.bears X) fun _ => id
  have later : (∃ n < k.draws, env.randomHex 16 n = X) → ∃ n < k'.draws, env.randomHex 16 n = X :=
    fun ⟨n, before, same⟩ => ⟨n, before.trans_le draws, same⟩
  refine ⟨bears.trans h.single, fun mk found => ?_, fun some => later ?_, fun c starts => ?_,
    fun c c' starts starts' => h.unique c c' (started c starts) (started c' starts')⟩
  · refine Nat.eq_zero_of_not_pos fun stray => ?_
    have stays := fewer (strays X mk) fun _ => bears_of_strays
    have borne := k.awaiting_mono (p := strays X mk) (q := Waiting.bears X) fun _ => bears_of_strays
    have none := h.keyed mk (index (h.drawn (.inl (by omega))) mk found)
    omega
  · exact h.drawn (some.imp (fun positive => positive.trans_le bears) fun ⟨c, starts⟩ =>
      ⟨c, started c starts⟩)
  · obtain ⟨none, nowhere⟩ := h.spent c (started c starts)
    refine ⟨by omega, fun mk found => nowhere mk (index ?_ mk found)⟩
    exact h.drawn (.inr ⟨c, started c starts⟩)

/-- A request is accepted with the token of the call that the index leads to, or without one. -/
theorem accept (h : k.OneTime env X) (ok : k.Ok env) (entered : k.Entered) {rid : ℕ}
    (holds : k.hand = .request rid)
    (honoured : w.confirmed = true → ∃ X, w.Honoured k.gov k.inflight X) :
    Core.OneTime env X { k with hand := .waiting w } := by
  have more := awaiting_accept holds w
  by_cases bears : w.bears X = true
  · obtain ⟨confirmed, presents⟩ := Bool.and_eq_true _ _ |>.mp bears
    obtain ⟨X', honoured⟩ := honoured confirmed
    obtain rfl := Request.eq_of_presents presents honoured.presents
    obtain ⟨e, looked, named⟩ := honoured.entry
    obtain ⟨id, found, entry⟩ := InFlight.exists_of_lookup looked
    obtain ⟨c, call, live, tells⟩ := entered id e entry
    obtain rfl : X = id := named.symm.trans tells.entryId
    have found : k.inflight.keyToId.lookup w.mapKey = some X := found
    -- nobody waited with the token, so what waits with it now is the request alone
    have none : k.awaiting (Waiting.bears X) = 0 := by
      rw [awaiting, honoured.unused, holds]
      rfl
    refine ⟨?_, fun mk found' => ?_, fun _ => ?_, fun c starts => ?_, h.unique⟩
    · rw [more, none, bears]
      exact Nat.le_refl _
    · have here : strays X mk w = false := by
        simp [strays, ok.tables.indexed.eq_of_keyToId found' found]
      rw [more, h.keyed mk found', here]
      rfl
    · obtain ⟨n, earlier, same⟩ := ok.tables.drawn live
      exact ⟨n, earlier, same.symm.trans tells.inflightId⟩
    · exact absurd found ((h.spent c starts).2 w.mapKey)
  · -- a request that does not bear the token changes nothing
    have same : ∀ p : Waiting → Bool, (∀ w, p w = true → w.bears X = true) →
        Core.awaiting { k with hand := .waiting w } p ≤ k.awaiting p := by
      intro p within
      have other : p w = false := Bool.eq_false_iff.mpr fun holds => bears (within w holds)
      rw [more, other]
      exact Nat.le_refl _
    exact h.mono same (fun _ => id) (Nat.le_refl _) fun _ _ => id

/-- A call is started, and takes the place of what the index led to. -/
theorem launched (h : k.OneTime env X) (ok : k.Ok env) (holds : k.hand = .waiting w)
    (summary : String) (now : UInt64) (call : Call) (frames : List PipelineFrame)
    (plain : ∀ c rid f t, .started c rid f t ∉ events)
    (late : ∀ rid req, .request rid req ∉ events) :
    (k.launched env w summary now call frames events).OneTime env X := by
  have fewer : ∀ p, (k.launched env w summary now call frames events).awaiting p + (p w).toNat =
      k.awaiting p := awaiting_launch holds rfl rfl
  have old : ∀ c, StartedBy X (k.launched env w summary now call frames events).log c →
      StartedBy X k.log c ∨ c = k.nextCall ∧ w.bears X = true := by
    rintro c ⟨rid, twin, req, started, received, presents⟩
    have received : .request rid req ∈ k.log := by
      refine (List.mem_cons.mp ((List.mem_append.mp received).resolve_left (late rid req)))
        |>.resolve_left (by simp)
    rcases List.mem_cons.mp ((List.mem_append.mp started).resolve_left (plain _ _ _ _))
      with same | before
    · simp only [PipelineEvent.started.injEq] at same
      obtain ⟨rfl, rfl, confirmed, -⟩ := same
      obtain ⟨trace, own⟩ := (ok.orderly.queued.hand holds).received
      obtain rfl := request_unique ok.orderly.lawful received own
      exact .inr ⟨rfl, Bool.and_eq_true _ _ |>.mpr ⟨confirmed.symm, presents⟩⟩
    · exact .inl ⟨rid, twin, req, before, received, presents⟩
  have index : (∃ n < k.draws, env.randomHex 16 n = X) → ∀ mk,
      (k.launched env w summary now call frames events).inflight.keyToId.lookup mk = some X →
        mk ≠ w.mapKey ∧ k.inflight.keyToId.lookup mk = some X := by
    rintro ⟨n, earlier, same⟩ mk found
    change (k.inflight.keyToId.insert w.mapKey (env.randomHex 16 k.draws)).lookup mk = some X
      at found
    rw [UnorderedMap.lookup_insert] at found
    split at found
    · have drawn := env.distinct 16 (same.trans (Option.some.inj found).symm)
      omega
    · next other => exact ⟨other, found⟩
  by_cases bears : w.bears X = true
  · -- the request was the only one with the token, and its key leads to the new call
    have all := fewer (Waiting.bears X)
    have single := h.single
    rw [bears, Bool.toNat_true] at all
    have drawn := h.drawn (.inl (by omega))
    have first : ∀ c, StartedBy X (k.launched env w summary now call frames events).log c →
        c = k.nextCall := by
      intro c starts
      refine ((old c starts).resolve_left fun before => ?_).1
      have none := (h.spent c before).1
      omega
    have nowhere : ∀ mk, (k.launched env w summary now call frames
        events).inflight.keyToId.lookup mk ≠ some X := by
      intro mk found
      obtain ⟨other, before⟩ := index drawn mk found
      have none := h.keyed mk before
      have stray : strays X mk w = true :=
        Bool.and_eq_true _ _ |>.mpr ⟨bears, decide_eq_true other.symm⟩
      have one := fewer (strays X mk)
      rw [stray, Bool.toNat_true] at one
      omega
    refine ⟨by omega, fun mk found => absurd found (nowhere mk), fun _ => ?_,
      fun c _ => ⟨by omega, nowhere⟩, fun c c' starts starts' => (first c starts).trans
        (first c' starts').symm⟩
    obtain ⟨n, earlier, same⟩ := drawn
    exact ⟨n, Nat.lt_succ_of_lt earlier, same⟩
  · refine h.mono (fun p _ => (fewer p).symm ▸ Nat.le_add_right _ _) (fun c starts => ?_)
      (Nat.le_succ _) fun drawn mk found => (index drawn mk found).2
    exact (old c starts).resolve_right fun ⟨_, this⟩ => bears this

theorem move (m : k.Move env P k') (ok : k.Ok env) (entered : k.Entered) (known : k.Known)
    (honoured : ∀ w, P.accept k.gov k.inflight k.calls w → w.confirmed = true →
      ∃ X, w.Honoured k.gov k.inflight X) (h : k.OneTime env X) : k'.OneTime env X := by
  rcases awaiting_move m with fewer | ⟨w, holds, promise, rfl⟩
  · have append : ∀ events, k'.log = events ++ k.log →
        (∀ c rid twin, .started c rid true twin ∉ events) →
        (∀ rid req, .request rid req ∈ events → rid = k.nextRequest) →
        ∀ c, StartedBy X k'.log c → StartedBy X k.log c := by
      intro events log plain new c starts
      rw [log] at starts
      refine starts.of_append plain fun rid req member c twin started => ?_
      rw [new rid req member] at started
      exact Nat.lt_irrefl _ (known _ _ _ _ started)
    cases m with
    | launch w summary now t0 delay upTrace call holds =>
      exact h.launched ok holds summary now _ _ (by simp) (by simp)
    | launchAbsent w summary now t0 r call holds =>
      exact h.launched ok holds summary now _ _ (by simp) (by simp)
    | receive | answer | throw | turnAway | reject | refuse | absentOutcome | stop =>
      exact h.mono (fun p _ => fewer p) (append [_] rfl (by simp) (by simp)) (Nat.le_refl _)
        fun _ _ => id
    | act c call call' events frames stored act =>
      refine h.mono (fun p _ => fewer p) (append events rfl
        (fun c rid twin new => (act.plain _ new).2.1 c rid true twin rfl)
        fun rid req new => absurd rfl ((act.plain _ new).1 rid req)) (Nat.le_refl _) fun _ _ => id
    | destroy c call below top stored =>
      refine h.mono (fun p _ => fewer p) (append [_] rfl (by simp) (by simp)) (Nat.le_refl _)
        fun _ mk found => ?_
      exact InFlight.keyToId_erase found
    | attach c call taskId stored =>
      refine h.mono (fun p _ => fewer p) (fun _ => id) (Nat.le_succ _) fun _ mk found => ?_
      exact InFlight.keyToId_setTaskId ▸ found
    | mark entry taskId =>
      refine h.mono (fun p _ => fewer p) (fun _ => id) (Nat.le_refl _) fun _ mk found => ?_
      exact InFlight.keyToId_setTaskId ▸ found
    | tick => exact h.mono (fun p _ => fewer p) (fun _ => id) (Nat.le_succ _) fun _ _ => id
    | _ => exact h.mono (fun p _ => fewer p) (fun _ => id) (Nat.le_refl _) fun _ _ => id
  · exact h.accept ok entered holds (honoured w promise)

end OneTime

/-! ## Who was let in -/

/-- A request waits that was let in by a token, although its number has not a property. -/
def unvouched (p : ℕ → Prop) [DecidablePred p] (w : Waiting) : Bool :=
  w.confirmed && !decide (p w.onDone.rid)

/-- Whoever is let in by a token, on its way or as a call, has a number with a property. -/
structure Vouched (p : ℕ → Prop) [DecidablePred p] (k : Core) : Prop where
  waiting : k.awaiting (unvouched p) = 0
  started : ∀ c rid twin, .started c rid true twin ∈ k.log → p rid

namespace Vouched

variable {p : ℕ → Prop} [DecidablePred p]

theorem initial : (Core.initial env.cfg).Vouched p where
  waiting := by simp [Core.initial, awaiting, Hand.awaiting, LocalGovernor.waiting_initial]
  started := by simp [Core.initial]

theorem append (h : k.Vouched p) (fewer : k'.awaiting (unvouched p) ≤ k.awaiting (unvouched p))
    (events : List PipelineEvent) (log : k'.log = events ++ k.log)
    (plain : ∀ c rid twin, .started c rid true twin ∉ events) : k'.Vouched p where
  waiting := Nat.eq_zero_of_le_zero (h.waiting ▸ fewer)
  started := fun c rid twin member => by
    rw [log] at member
    exact h.started c rid twin ((List.mem_append.mp member).resolve_left (plain c rid twin))

theorem launched (h : k.Vouched p) (holds : k.hand = .waiting w) (summary : String)
    (now : UInt64) (call : Call) (frames : List PipelineFrame)
    (plain : ∀ c rid f t, .started c rid f t ∉ events) :
    (k.launched env w summary now call frames events).Vouched p := by
  have fewer : (k.launched env w summary now call frames events).awaiting (unvouched p) +
      (unvouched p w).toNat = k.awaiting (unvouched p) :=
    @awaiting_launch k (k.launched env w summary now call frames events) w holds rfl rfl _
  have none := h.waiting
  refine ⟨by omega, fun c rid twin member => ?_⟩
  rcases List.mem_cons.mp ((List.mem_append.mp member).resolve_left (plain _ _ _ _))
    with same | before
  · simp only [PipelineEvent.started.injEq] at same
    obtain ⟨-, rfl, confirmed, -⟩ := same
    by_contra lacks
    have here : unvouched p w = true := by simp [unvouched, ← confirmed, lacks]
    rw [here, Bool.toNat_true] at fewer
    omega
  · exact h.started c rid twin before

theorem move (m : k.Move env P k')
    (accept : ∀ w, P.accept k.gov k.inflight k.calls w → w.confirmed = true → p w.onDone.rid)
    (h : k.Vouched p) : k'.Vouched p := by
  rcases awaiting_move m with fewer | ⟨w, holds, promise, rfl⟩
  · have fewer := fewer (unvouched p)
    cases m with
    | launch w summary now t0 delay upTrace call holds =>
      exact h.launched holds summary now _ _ (by simp)
    | launchAbsent w summary now t0 r call holds =>
      exact h.launched holds summary now _ _ (by simp)
    | receive | answer | throw | turnAway | reject | refuse | absentOutcome | destroy | stop =>
      exact h.append fewer [_] rfl (by simp)
    | act c call call' events frames stored act =>
      exact h.append fewer events rfl fun c rid twin new =>
        (act.plain _ new).2.1 c rid true twin rfl
    | _ => exact h.append fewer [] rfl (by simp)
  · have here : unvouched p w = false := by
      cases confirmed : w.confirmed with
      | false => simp [unvouched, confirmed]
      | true => simp [unvouched, accept w promise confirmed]
    refine ⟨?_, h.started⟩
    rw [awaiting_accept holds w, here, h.waiting]
    rfl

end Vouched

end Core

/-! ## Runs -/

namespace PipelineState

/-- A request presents the token of a live call with its agent, its tool and its hash. -/
structure Confirms (s : PipelineState) (req : Request) (X : String) (c : ℕ) (call : Call) :
    Prop where
  presents : req.presents X = true
  live : s.calls.lookup c = some call
  inflightId : call.inflightId = X
  agentId : call.req.who.agentId = req.who.agentId
  key : ToolKey.parse req.name = some call.key
  paramsHash : paramsHashOf req.params = .ok call.paramsHash

/-- The step lets a request pass to the governor on the strength of a token that a request in
the governor's queues was let in by. -/
def reuses (env : Env) (s : PipelineState) : PipelineInput → Bool
  | .handle req _ =>
    match ToolKey.parse req.name, paramsHashOf req.params with
    | some key, .ok hash =>
      decide (req.method = "tools/call" ∧
          RankPolicy.authorizeCall env.catalog req.who key = .allow ∧ s.stopping = false) &&
        (s.inflight.lookup req.who.agentId key hash).any fun e =>
          -- another request waits with the same token
          req.presents e.inflightId &&
            decide (0 < LocalGovernor.waiting (Waiting.bears e.inflightId) s.gov)
    | _, _ => false
  | _ => false

theorem of_tokenMatches {confirm : String} {hit : Option InFlightEntry}
    (matched : tokenMatches confirm hit = true) :
    ∃ e, hit = some e ∧ confirm = "if_" ++ e.inflightId := by
  cases hit with
  | none => cases matched
  | some e => exact ⟨e, rfl, of_decide_eq_true (Bool.and_eq_true _ _ |>.mp matched).2⟩

/-- A request that is let in presents the token of the entry that it was looked up under. -/
theorem entry_of_reaches (reaches : (s.core .empty).Reaches env rid req w)
    (confirmed : w.confirmed = true) :
    ∃ e, s.inflight.lookup req.who.agentId w.key w.hash = some e ∧
      req.presents e.inflightId = true := by
  obtain ⟨confirm, token, matched⟩ := reaches.token
  obtain ⟨e, looked, same⟩ := of_tokenMatches (matched.symm.trans confirmed)
  refine ⟨e, looked, Request.presents_iff.mpr ?_⟩
  rw [token, same]

/-- A step that reuses no token lets nobody in whose token somebody waits with. -/
theorem honoured_of_reaches {clk : Clock} (reaches : (s.core .empty).Reaches env rid req w)
    (fresh : s.reuses env (.handle req clk) = false) (confirmed : w.confirmed = true) :
    ∃ X, w.Honoured s.gov s.inflight X := by
  obtain ⟨e, looked, presents⟩ := entry_of_reaches reaches confirmed
  refine ⟨e.inflightId, ?_, ⟨e, by rw [reaches.who]; exact looked, rfl⟩, ?_⟩
  · rw [Request.presents, confirmToken, reaches.metaJson]
    exact presents
  · have free : s.stopping = false := reaches.running
    refine Nat.eq_zero_of_not_pos fun some => ?_
    simp [reuses, reaches.parsed, reaches.hashed, reaches.method, reaches.allowed, free, looked,
      presents, some] at fresh

/-- The entry that a request is looked up under belongs to a live call with its agent, its tool
and its hash. -/
theorem confirms_of_reaches (run : (Pipeline.machine env).Run h s) (plain : AgentsOneLine s.log)
    (agent : '\n' ∉ req.who.agentId.toList) (reaches : (s.core .empty).Reaches env rid req w)
    (confirmed : w.confirmed = true) : ∃ X c call, s.Confirms req X c call := by
  obtain ⟨e, looked, presents⟩ := entry_of_reaches reaches confirmed
  have regular := regular_of_run run
  obtain ⟨c, call, live, tells, -⟩ := liveCall_of_lookup regular.ok.tables regular.entered looked
  obtain ⟨agents, keys, hashes⟩ := entry_of_lookup regular plain (hashed_of_run run) agent
    (newline_notMem_paramsHash reaches.hashed) looked
  have underway := regular.ok.orderly.underway c call live
  refine ⟨e.inflightId, c, call, presents, live, tells.inflightId, ?_, ?_, ?_⟩
  · rw [← tells.agentId, agents]
  · have parsed := underway.admitted.parsed
    have named := ToolKey.parse_spec reaches.parsed
    have own := ToolKey.parse_spec parsed
    rw [← tells.key] at own
    rw [← named, ← keys, own, parsed]
  · rw [reaches.hashed, ← hashes, tells.paramsHash]

end PipelineState

/-- Request `rid` came in when the call whose token it presented was live. -/
def Presented (h : List (TransitionSystem.Step PipelineState PipelineInput)) (rid : ℕ) : Prop :=
  ∃ t ∈ h, ∃ req clk X c call, t.input = .handle req clk ∧ t.pre.nextRequest = rid ∧
    t.pre.Confirms req X c call

/-- The request that was presented is the one that was logged under its number. -/
theorem Presented.request (run : (Pipeline.machine env).Run h s) (presented : Presented h rid) :
    ∃ t ∈ h, ∃ req clk X c call, t.input = .handle req clk ∧ t.pre.nextRequest = rid ∧
      t.pre.Confirms req X c call ∧ .request rid req ∈ s.log := by
  obtain ⟨t, member, req, clk, X, c, call, input, rfl, confirms⟩ := presented
  obtain ⟨earlier, before, step, -⟩ := run.of_mem member
  rw [input] at step
  have logged := PipelineState.logged_step (PipelineState.regular_of_run before) step
  exact ⟨t, member, req, clk, X, c, call, input, rfl, confirms,
    (PipelineState.log_of_mem run member).subset logged⟩

namespace PipelineState

/-- The promise that every request which is let in by a token came in while its call was live,
and that nobody waits with the same token. -/
def fresh (h : List (TransitionSystem.Step PipelineState PipelineInput)) : Promise :=
  ⟨fun gov inflight _ w => w.confirmed = true →
    Presented h w.onDone.rid ∧ ∃ X, w.Honoured gov inflight X, fun _ => True⟩

/-- The steps of a run that reuse no token keep the promise. -/
theorem keeps_fresh (run : (Pipeline.machine env).Run h s) (plain : AgentsOneLine s.log)
    (new : ∀ t ∈ h, t.pre.reuses env t.input = false) :
    ∀ t ∈ h, t.pre.Keeps env (fresh h) t.input := by
  intro t member
  obtain ⟨earlier, before, step, -⟩ := run.of_mem member
  have new := new t member
  generalize same : t.input = input at step new
  cases input with
  | handle req clk =>
    intro w reaches confirmed
    have regular := regular_of_run before
    have older := log_of_mem run member
    have agent := plain _ _ (older.subset (logged_step regular step))
    have grows := log_moves (step_moves regular.ok step (keeps_none _ _))
    obtain ⟨X, c, call, confirms⟩ := confirms_of_reaches before
      (plain.suffix (grows.trans older)) agent reaches confirmed
    exact ⟨⟨t, member, req, clk, X, c, call, same, reaches.rid.symm, confirms⟩,
      honoured_of_reaches reaches new confirmed⟩
  | upstream c r clk => exact fun _ _ _ => trivial
  | _ => trivial

end PipelineState

/-- If agents' ids have no line breaks and nobody presents a token that somebody waits with,
every call that was let in by a token came in while the call of that token was live, and no
token lets in two. -/
theorem confirm_token_once (run : (Pipeline.machine env).Run h s) (plain : AgentsOneLine s.log)
    (fresh : ∀ t ∈ h, t.pre.reuses env t.input = false) (X : String) :
    (∀ c c', StartedBy X s.log c → StartedBy X s.log c' → c = c') ∧
      (∀ c, StartedBy X s.log c → ∃ t ∈ h, ∃ req clk twin c₀ call, t.input = .handle req clk ∧
        .started c t.pre.nextRequest true twin ∈ s.log ∧ t.pre.Confirms req X c₀ call) ∧
      ∀ c rid twin, .started c rid true twin ∈ s.log → ∃ X, StartedBy X s.log c := by
  -- what is said of one token needs what is known of entries and requests
  classical
  obtain ⟨ok, -, -, oneTime, vouched⟩ := PipelineState.core_of_run
    (I := fun k => k.Entered ∧ k.Known ∧ k.OneTime env X ∧ k.Vouched (Presented h)) run
    (PipelineState.keeps_fresh run plain fresh)
    ⟨.initial, fun c rid confirmed twin => by simp [Core.initial], .initial, .initial⟩
    fun k k' ok m ⟨entered, known, oneTime, vouched⟩ =>
      ⟨entered.move m ok, known.move m ok,
        oneTime.move m ok entered known fun w promise confirmed => (promise confirmed).2,
        vouched.move m fun w promise confirmed => (promise confirmed).1⟩
  refine ⟨oneTime.unique, fun c starts => ?_, fun c rid twin started => ?_⟩
  · obtain ⟨rid, twin, req, started, received, presents⟩ := starts
    obtain ⟨t, member, req', clk, X', c₀, call, input, number, confirms, logged⟩ :=
      (vouched.started c rid twin started).request run
    obtain rfl := request_unique ok.orderly.lawful received logged
    -- a request presents one token
    obtain rfl := Request.eq_of_presents presents confirms.presents
    exact ⟨t, member, req, clk, twin, c₀, call, input, number ▸ started, confirms⟩
  · obtain ⟨t, -, req, -, X, c₀, call, -, -, confirms, logged⟩ :=
      (vouched.started c rid twin started).request run
    exact ⟨X, rid, twin, req, started, logged, confirms.presents⟩

/-- `StartedBy` as a test. -/
def startedBy (X : String) (log : List PipelineEvent) (c : ℕ) : Bool :=
  log.any fun
    | .started c' rid true _ => decide (c' = c) && log.any fun
        | .request rid' req => decide (rid' = rid) && req.presents X
        | _ => false
    | _ => false

theorem startedBy_of_test (passed : startedBy X log c = true) : StartedBy X log c := by
  obtain ⟨e, started, here⟩ := List.any_eq_true.mp passed
  split at here
  · next c' rid twin =>
    obtain ⟨same, arrived⟩ := Bool.and_eq_true _ _ |>.mp here
    obtain ⟨e, received, here⟩ := List.any_eq_true.mp arrived
    split at here
    · next rid' req =>
      obtain ⟨number, presents⟩ := Bool.and_eq_true _ _ |>.mp here
      exact ⟨rid, twin, req, of_decide_eq_true same ▸ started,
        of_decide_eq_true number ▸ received, presents⟩
    · cases here
  · cases here

namespace PipelineExample

/-- A request that presents the token of `X`. -/
def confirming (X : String) (req : Request) : Request :=
  { req with metaJson := .ofMembers [(kConfirmKey, .str ("if_" ++ X))] }

end PipelineExample

open PipelineExample in
/-- A duplicate presents the token of the running call and goes upstream. -/
theorem confirm_token_once_used : ∃ h s, (Pipeline.machine (gateway {})).Run h s ∧
    StartedBy "ffff" s.log 1 ∧
    (∀ c c', StartedBy "ffff" s.log c → StartedBy "ffff" s.log c' → c = c') ∧
      (∀ c, StartedBy "ffff" s.log c → ∃ t ∈ h, ∃ req clk twin c₀ call,
        t.input = .handle req clk ∧ .started c t.pre.nextRequest true twin ∈ s.log ∧
        t.pre.Confirms req "ffff" c₀ call) ∧
      ∀ c rid twin, .started c rid true twin ∈ s.log → ∃ X, StartedBy X s.log c := by
  obtain ⟨h, s, run, fresh, reached⟩ := TransitionSystem.exists_run
    (M := Pipeline.machine (gateway {}))
    (forwarded (call "b__t" 1) ++ [.handle (confirming "ffff" (call "b__t" 1)) clk])
    (fun s input => !s.reuses (gateway {}) input)
    (fun s => startedBy "ffff" s.log 1 && s.log.all PipelineEvent.agentOneLine) (start_init _)
    (by decide +kernel)
  obtain ⟨used, plain⟩ := Bool.and_eq_true _ _ |>.mp reached
  exact ⟨h, s, run, startedBy_of_test used, confirm_token_once run (agentsOneLine_of_all plain)
    (fun t member => by simpa using fresh t member) "ffff"⟩

open PipelineExample in
/-- The one slot of a tool is taken, two duplicates present the token of the running call and
queue, and both go upstream. -/
theorem token_used_twice : ∃ h s X c c',
    (Pipeline.machine (gateway { perToolConcurrency := 1 })).Run h s ∧
      StartedBy X s.log c ∧ StartedBy X s.log c' ∧ c ≠ c' := by
  obtain ⟨h, s, run, -, reached⟩ := TransitionSystem.exists_run
    (M := Pipeline.machine (gateway { perToolConcurrency := 1 }))
    (forwarded (call "b__t" 1) ++ [.handle (confirming "ffff" (call "b__t" 1)) clk,
      .handle (confirming "ffff" (call "b__t" 1)) clk] ++ finished 0 ++
      [.run clk, .backendReturns, .run clk] ++ finished 1 ++ [.run clk])
    (fun _ _ => true) (fun s => startedBy "ffff" s.log 1 && startedBy "ffff" s.log 2)
    (start_init _) (by decide +kernel)
  obtain ⟨first, second⟩ := Bool.and_eq_true _ _ |>.mp reached
  exact ⟨h, s, "ffff", 1, 2, run, startedBy_of_test first, startedBy_of_test second, by decide⟩

end Perfacet
