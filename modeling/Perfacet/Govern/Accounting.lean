import Perfacet.Govern.Queueing

/-!
# Permits and counters

A permit is a slot that a variable holds. Returning it is implicit: the destructor and the
move assignment of `Permit` do it. This file compares the governor's counters with the
permits that are held.

They agree as long as `impl_ = std::move(o.impl_)`, the last statement of the move
assignment, overwrites no permit. The statement before it has returned the target's own
permit, but that return may run a callback, and a callback may keep its new permit in that
very variable. The overwritten permit is never returned.

## Main results

* `GovernorState.Accounts.step` — every other step keeps counters and permits in agreement
* `permits_conserved_iff` — the counters are right in every state of a run exactly if no
  step of it overwrites a permit
* `permit_overwritten` — a run that loses a permit
-/

namespace Perfacet

namespace GovernorEvent

/-- The event returns the permit with serial number `n`. -/
def returns (n : ℕ) : GovernorEvent → Bool
  | .release m _ _ => m = n
  | _ => false

/-- The event issues the permit with serial number `n`. -/
def issues (n : ℕ) : GovernorEvent → Bool
  | .go m _ _ _ => m = n
  | _ => false

end GovernorEvent

/-- One for a variable that holds a permit with property `p`. -/
def weigh (p : Impl → Bool) : Option Impl → ℕ
  | some i => (i.held && p i).toNat
  | none => 0

theorem weigh_of_free {p : Impl → Bool} {old : Option Impl} (free : Free old) :
    weigh p old = 0 := by
  cases old with
  | none => rfl
  | some i => simp [weigh, free i rfl]

theorem weigh_of_held {p : Impl → Bool} {i : Impl} (held : i.held = true) :
    weigh p (some i) = (p i).toNat := by
  rw [weigh, held, Bool.true_and]

namespace GovernorState

variable {s s' : GovernorState} {input : GovernorInput}

/-- How many permits with a property are held. -/
def heldWhere (p : Impl → Bool) (s : GovernorState) : ℕ :=
  UnorderedMap.total (fun _ o => weigh p o) s.vars

/-- The held permits of a tool. -/
def heldTool (s : GovernorState) (ts : String) : ℕ := s.heldWhere fun i => i.key.str = ts

/-- The held permits of a principal. -/
def heldAgent (s : GovernorState) (agentId : String) : ℕ := s.heldWhere fun i => i.agentId = agentId

/-- All held permits. -/
def held (s : GovernorState) : ℕ := s.heldWhere fun _ => true

/-- How often the permit with a serial number was issued. -/
def issued (s : GovernorState) (n : ℕ) : ℕ := s.log.countP (·.issues n)

/-- How often the permit with a serial number was returned. -/
def returned (s : GovernorState) (n : ℕ) : ℕ := s.log.countP (·.returns n)

/-! ## Variables -/

/-- Parameters of callbacks to come do not exist yet, and a suspended `operator=` is between
different variables. -/
structure VarsOk (s : GovernorState) : Prop where
  fresh : ∀ k, s.nextCallback ≤ k → s.impl (.param k) = none
  apart : ∀ {dst src}, .assignTail dst src ∈ s.stack → dst ≠ src

private theorem fresh_insert (ok : s.VarsOk) {v : Var} {o old : Option Impl}
    (there : s.impl v = some old) (k : ℕ) (later : s.nextCallback ≤ k) :
    (s.vars.insert v o).lookup (.param k) = none := by
  rw [UnorderedMap.lookup_insert, if_neg]
  · exact ok.fresh k later
  · rintro rfl
    rw [ok.fresh k later] at there
    cases there

private theorem fresh_erase (ok : s.VarsOk) (v : Var) (k : ℕ) (later : s.nextCallback ≤ k) :
    (s.vars.erase v).lookup (.param k) = none := by
  rw [UnorderedMap.lookup_erase]
  split
  · rfl
  · exact ok.fresh k later

private theorem fresh_callBack (ok : s.VarsOk) (o : Option Impl) (k : ℕ)
    (later : s.nextCallback + 1 ≤ k) :
    (s.vars.insert (.param s.nextCallback) o).lookup (.param k) = none := by
  rw [UnorderedMap.lookup_insert, if_neg]
  · exact ok.fresh k (by omega)
  · intro same
    cases same
    omega

private theorem fresh_move (ok : s.VarsOk) {dst src : Var} {moved : Option Impl}
    (target : (s.impl dst).isSome ∨ ∃ name, dst = .user name) (source : s.impl src = some moved)
    (k : ℕ) (later : s.nextCallback ≤ k) :
    ((s.vars.insert dst moved).insert src none).lookup (.param k) = none := by
  have here : Var.param k ≠ src := by
    rintro rfl
    rw [ok.fresh k later] at source
    cases source
  have there : Var.param k ≠ dst := by
    rintro rfl
    rcases target with target | ⟨name, target⟩
    · rw [ok.fresh k later] at target
      cases target
    · cases target
  rw [UnorderedMap.lookup_insert, if_neg here, UnorderedMap.lookup_insert, if_neg there]
  exact ok.fresh k later

theorem VarsOk.step (ok : s.VarsOk) (e : Effect s input s') : s'.VarsOk := by
  cases e with
  | declare new =>
    refine ⟨fun k later => ?_, ok.apart⟩
    show (s.vars.insert _ _).lookup _ = none
    rw [UnorderedMap.lookup_insert, if_neg (by rintro ⟨⟩)]
    exact ok.fresh k later
  | construct new source => exact ⟨fresh_move ok (.inr ⟨_, rfl⟩) source, ok.apart⟩
  | assignSelf | acquireQueued | toolsListed => exact ⟨ok.fresh, ok.apart⟩
  -- only `operator=` pushes a frame that names two variables
  | assignFree apart target free =>
    refine ⟨ok.fresh, fun member => ?_⟩
    rcases List.mem_cons.mp member with new | old
    · cases new; exact apart
    · exact ok.apart old
  | assignHeld apart target held =>
    refine ⟨fresh_insert ok target, fun member => ?_⟩
    rcases List.mem_cons.mp member with new | member
    · cases new
    · rcases List.mem_cons.mp member with new | old
      · cases new; exact apart
      · exact ok.apart old
  | dropFree drops => exact ⟨fresh_erase ok _, fun member => ok.apart (drops.mem member)⟩
  | dropHeld drops =>
    refine ⟨fresh_erase ok _, fun member => ?_⟩
    rcases List.mem_cons.mp member with new | member
    · cases new
    · exact ok.apart (drops.mem member)
  | acquireGo | acquireReject =>
    refine ⟨fresh_callBack ok _, fun member => ?_⟩
    rcases List.mem_cons.mp member with new | old
    · cases new
    · exact ok.apart old
  | rejectAll =>
    refine ⟨ok.fresh, fun member => ?_⟩
    rcases List.mem_cons.mp member with new | old
    · cases new
    · exact ok.apart old
  | @timer _ r idle fired =>
    obtain ⟨gov, _ | w⟩ := r
    · exact ⟨ok.fresh, ok.apart⟩
    · refine ⟨fresh_callBack ok _, fun member => ?_⟩
      rcases List.mem_cons.mp member with new | old
      · cases new
      · cases old
  | stop top | rejectDone top =>
    exact ⟨ok.fresh, fun member => ok.apart (by rw [top]; exact List.mem_cons_of_mem _ member)⟩
  | dequeueReject | rejectHead =>
    refine ⟨fresh_callBack ok _, fun member => ?_⟩
    rcases List.mem_cons.mp member with new | old
    · cases new
    · exact ok.apart old
  | dequeueGo top =>
    refine ⟨fresh_callBack ok _, fun member => ?_⟩
    rcases List.mem_cons.mp member with new | old
    · cases new
    · exact ok.apart (by rw [top]; exact List.mem_cons_of_mem _ old)
  | assignTail top target source =>
    exact ⟨fresh_move ok (.inl (Option.isSome_of_eq_some target)) source,
      fun member => ok.apart (by rw [top]; exact List.mem_cons_of_mem _ member)⟩
  | rejectNext top =>
    refine ⟨ok.fresh, fun member => ?_⟩
    rcases List.mem_cons.mp member with new | old
    · cases new
    · exact ok.apart (by rw [top]; exact List.mem_cons_of_mem _ old)

theorem VarsOk.of_run {h : List (TransitionSystem.Step GovernorState GovernorInput)}
    (run : Governor.machine.Run h s) : s.VarsOk :=
  run.invariant
    (by rintro _ ⟨cfg, rfl⟩; exact ⟨fun _ _ => rfl, fun h => by cases h⟩)
    fun _ _ _ step ok => ok.step (step_effect step)

/-! ## How steps move permits -/

/-- Counters and permits agree, and every permit was returned or is held. -/
structure Accounts (s : GovernorState) : Prop where
  balanced : s.gov.Balanced s.heldTool s.heldAgent s.held
  once : ∀ n, s.returned n + (s.heldWhere fun i => i.serial = n) = s.issued n

namespace Accounts

/-- Steps that leave counters, permits and their events alone. -/
theorem quiet (acc : s.Accounts) (gov : s'.gov.toolInUse = s.gov.toolInUse ∧
      s'.gov.principalInUse = s.gov.principalInUse ∧ s'.gov.permitHeld = s.gov.permitHeld)
    (vars : ∀ p, s'.heldWhere p = s.heldWhere p)
    (log : ∃ new, s'.log = new ++ s.log ∧
      ∀ e ∈ new, ∀ n, e.returns n = false ∧ e.issues n = false) : s'.Accounts := by
  obtain ⟨new, appended, silent⟩ := log
  constructor
  · obtain ⟨tool, agent, total⟩ := gov
    obtain ⟨byTool, byAgent, all⟩ := acc.balanced
    exact ⟨by rw [tool]; intro t; rw [byTool t, heldTool, heldTool, vars],
      by rw [agent]; intro a; rw [byAgent a, heldAgent, heldAgent, vars],
      by rw [total, all, held, held, vars]⟩
  · intro n
    have returned : s'.returned n = s.returned n := by
      rw [GovernorState.returned, appended, List.countP_append,
        List.countP_eq_zero.mpr fun e he => by simp [(silent e he n).1], Nat.zero_add]
      rfl
    have issued : s'.issued n = s.issued n := by
      rw [GovernorState.issued, appended, List.countP_append,
        List.countP_eq_zero.mpr fun e he => by simp [(silent e he n).2], Nat.zero_add]
      rfl
    rw [returned, issued, vars]
    exact acc.once n

/-- Steps that issue the permit `i`. -/
theorem issue (acc : s.Accounts) {i : Impl} {gov : LocalGovernor ℕ}
    (same : gov.toolInUse = s.gov.toolInUse ∧ gov.principalInUse = s.gov.principalInUse ∧
      gov.permitHeld = s.gov.permitHeld)
    (taken : s'.gov = gov.take i.key.str i.agentId)
    (vars : ∀ p, s'.heldWhere p = s.heldWhere p + (p i).toNat)
    (log : ∃ new, s'.log = .go i.serial i.key i.agentId waited :: new ++ s.log ∧
      ∀ e ∈ new, ∀ n, e.returns n = false ∧ e.issues n = false) : s'.Accounts := by
  obtain ⟨new, appended, silent⟩ := log
  constructor
  · have before : gov.Balanced s.heldTool s.heldAgent s.held := by
      obtain ⟨byTool, byAgent, all⟩ := acc.balanced
      exact ⟨by rw [same.1]; exact byTool, by rw [same.2.1]; exact byAgent,
        by rw [same.2.2]; exact all⟩
    have total : s'.held = s.held + 1 := vars _
    rw [taken, total]
    refine before.take ?_ (fun t other => ?_) ?_ (fun a other => ?_)
    · rw [heldTool, heldTool, vars, decide_eq_true rfl]; rfl
    · rw [heldTool, heldTool, vars, decide_eq_false (Ne.symm other)]; rfl
    · rw [heldAgent, heldAgent, vars, decide_eq_true rfl]; rfl
    · rw [heldAgent, heldAgent, vars, decide_eq_false (Ne.symm other)]; rfl
  · intro n
    have returned : s'.returned n = s.returned n := by
      rw [GovernorState.returned, appended, List.cons_append, List.countP_cons,
        List.countP_append,
        List.countP_eq_zero.mpr fun e he => by simp [(silent e he n).1], Nat.zero_add]
      rfl
    have issued : s'.issued n = s.issued n + (decide (i.serial = n)).toNat := by
      rw [GovernorState.issued, appended, List.cons_append, List.countP_cons,
        List.countP_append,
        List.countP_eq_zero.mpr fun e he => by simp [(silent e he n).2], Nat.zero_add]
      by_cases h : i.serial = n <;> simp [GovernorEvent.issues, GovernorState.issued, h]
    have books := acc.once n
    rw [returned, issued, vars]
    omega

/-- Steps that return the permit `i`. -/
theorem giveBack (acc : s.Accounts) {i : Impl}
    (gov : s'.gov = s.gov.releaseSlot i.key i.agentId)
    (vars : ∀ p, s'.heldWhere p + (p i).toNat = s.heldWhere p)
    (log : s'.log = .release i.serial i.key i.agentId :: s.log) : s'.Accounts := by
  constructor
  · have total : s'.held + 1 = s.held := vars _
    have before := acc.balanced
    rw [← total] at before
    rw [gov]
    refine before.releaseSlot ?_ (fun t other => ?_) ?_ (fun a other => ?_)
    · rw [heldTool, heldTool, ← vars, decide_eq_true rfl]; rfl
    · rw [heldTool, heldTool, ← vars, decide_eq_false (Ne.symm other)]; rfl
    · rw [heldAgent, heldAgent, ← vars, decide_eq_true rfl]; rfl
    · rw [heldAgent, heldAgent, ← vars, decide_eq_false (Ne.symm other)]; rfl
  · intro n
    have returned : s'.returned n = s.returned n + (decide (i.serial = n)).toNat := by
      rw [GovernorState.returned, log, List.countP_cons]
      by_cases h : i.serial = n <;> simp [GovernorEvent.returns, GovernorState.returned, h]
    have issued : s'.issued n = s.issued n := by
      rw [GovernorState.issued, log, List.countP_cons]
      rfl
    have books := acc.once n
    have moved := vars fun i => i.serial = n
    rw [returned, issued]
    omega

end Accounts

private theorem held_insert_new (p : Impl → Bool) {v : Var} {o : Option Impl}
    (new : s.impl v = none) :
    UnorderedMap.total (fun _ o => weigh p o) (s.vars.insert v o) = weigh p o + s.heldWhere p :=
  UnorderedMap.total_insert_new new

private theorem held_issue (p : Impl → Bool) {i : Impl}
    (new : s.impl (.param s.nextCallback) = none) (held : i.held = true) :
    UnorderedMap.total (fun _ o => weigh p o) (s.vars.insert (.param s.nextCallback) (some i)) =
      s.heldWhere p + (p i).toNat := by
  rw [held_insert_new p new, weigh_of_held held, Nat.add_comm]

private theorem held_insert (p : Impl → Bool) {v : Var} {o old : Option Impl}
    (there : s.impl v = some old) :
    UnorderedMap.total (fun _ o => weigh p o) (s.vars.insert v o) + weigh p old =
      weigh p o + s.heldWhere p :=
  UnorderedMap.total_insert_of_lookup there

private theorem held_erase (p : Impl → Bool) {v : Var} {old : Option Impl}
    (there : s.impl v = some old) :
    UnorderedMap.total (fun _ o => weigh p o) (s.vars.erase v) + weigh p old = s.heldWhere p :=
  UnorderedMap.total_erase there

/-- Moving a permit into a new variable, or over what another variable points to. -/
theorem held_moveImpl (p : Impl → Bool) {dst src : Var} {moved old : Option Impl}
    (stack : List Frame) (apart : dst ≠ src)
    (target : s.impl dst = some old ∨ (s.impl dst = none ∧ old = none))
    (source : s.impl src = some moved) :
    (s.moveImpl dst src moved stack).heldWhere p + weigh p old = s.heldWhere p := by
  have mid : (s.vars.insert dst moved).lookup src = some moved := by
    rw [UnorderedMap.lookup_insert, if_neg (Ne.symm apart)]
    exact source
  have emptied := UnorderedMap.total_insert_of_lookup (f := fun _ o => weigh p o) (v := none) mid
  change (s.moveImpl dst src moved stack).heldWhere p + weigh p moved = 0 + _ at emptied
  rcases target with target | ⟨new, rfl⟩
  · have written := held_insert (o := moved) p target
    omega
  · have written := held_insert_new (o := moved) p new
    change _ + 0 = _
    omega

/-- The last statement of a move assignment overwrites no permit. -/
def NoOverwrite (s : GovernorState) : GovernorInput → Prop
  | .run _ => ∀ dst src below old, s.stack = .assignTail dst src :: below →
      s.impl dst = some old → Free old
  | _ => True

theorem noOverwrite_of_not_runs (still : input.runs = false) : s.NoOverwrite input := by
  cases input with
  | run => cases still
  | _ => trivial

/-- A step that overwrites no permit keeps counters and permits in agreement. -/
theorem Accounts.step (acc : s.Accounts) (vars : s.VarsOk) (queues : s.Queueing)
    (e : Effect s input s') (kept : s.NoOverwrite input) : s'.Accounts := by
  -- the parameter of the next callback does not exist yet
  have param : s.impl (.param s.nextCallback) = none := vars.fresh _ (Nat.le_refl _)
  have noEvent : ∀ e ∈ ([] : List GovernorEvent), ∀ n, e.returns n = false ∧ e.issues n = false :=
    fun _ h => by cases h
  cases e with
  | declare new =>
    exact acc.quiet ⟨rfl, rfl, rfl⟩ (fun p => (held_insert_new p new).trans (Nat.zero_add _))
      ⟨[], rfl, noEvent⟩
  | @construct dst src moved new source =>
    have apart : Var.user dst ≠ src := by
      intro same
      rw [same, source] at new
      cases new
    refine acc.quiet ⟨rfl, rfl, rfl⟩ (fun p => ?_) ⟨[], rfl, noEvent⟩
    exact held_moveImpl p s.stack apart (.inr ⟨new, rfl⟩) source
  | assignSelf | assignFree | rejectAll | stop | rejectDone | rejectNext | toolsListed =>
    exact acc.quiet ⟨rfl, rfl, rfl⟩ (fun _ => rfl) ⟨[], rfl, noEvent⟩
  | assignHeld apart target held =>
    refine acc.giveBack rfl (fun p => ?_) rfl
    have written := held_insert (o := some { ‹Impl› with held := false }) p target
    -- the permit that is marked as given back weighs nothing any more
    rw [weigh_of_held held] at written
    exact written.trans (Nat.zero_add _)
  | dropFree drops target free =>
    refine acc.quiet ⟨rfl, rfl, rfl⟩ (fun p => ?_) ⟨[], rfl, noEvent⟩
    have gone := held_erase p target
    rwa [weigh_of_free free] at gone
  | dropHeld drops target held =>
    refine acc.giveBack rfl (fun p => ?_) rfl
    have gone := held_erase p target
    rwa [weigh_of_held held] at gone
  | acquireGo free =>
    exact acc.issue (i := ⟨_, _, true, _⟩) ⟨rfl, rfl, rfl⟩ rfl (fun p => held_issue p param rfl)
      ⟨[.acquire _ _ _], rfl, fun e h n => by cases List.mem_singleton.mp h; exact ⟨rfl, rfl⟩⟩
  | acquireQueued =>
    exact acc.quiet ⟨rfl, rfl, rfl⟩ (fun _ => rfl)
      ⟨[_], rfl, fun e h n => by cases List.mem_singleton.mp h; exact ⟨rfl, rfl⟩⟩
  | acquireReject =>
    refine acc.quiet ⟨rfl, rfl, rfl⟩ (fun p => (held_insert_new p param).trans (Nat.zero_add _))
      ⟨[_, _], rfl, fun e h n => ?_⟩
    rcases List.mem_cons.mp h with h | h
    · cases h; exact ⟨rfl, rfl⟩
    · cases List.mem_singleton.mp h; exact ⟨rfl, rfl⟩
  | timer idle fired =>
    obtain ⟨ts, l₁, w, l₂, split, -, rfl⟩ := LocalGovernor.expire_cases queues.queues fired
    exact acc.quiet ⟨rfl, rfl, rfl⟩ (fun p => (held_insert_new p param).trans (Nat.zero_add _))
      ⟨[_], rfl, fun e h n => by cases List.mem_singleton.mp h; exact ⟨rfl, rfl⟩⟩
  | dequeueReject | rejectHead =>
    exact acc.quiet ⟨rfl, rfl, rfl⟩ (fun p => (held_insert_new p param).trans (Nat.zero_add _))
      ⟨[_], rfl, fun e h n => by cases List.mem_singleton.mp h; exact ⟨rfl, rfl⟩⟩
  | @dequeueGo _ ts _ w rest =>
    -- taking a waiter out of its queue counts nothing
    have uncounted : (s.gov.unqueue ts w rest).toolInUse = s.gov.toolInUse ∧
      (s.gov.unqueue ts w rest).principalInUse = s.gov.principalInUse ∧
      (s.gov.unqueue ts w rest).permitHeld = s.gov.permitHeld := ⟨rfl, rfl, rfl⟩
    exact acc.issue (i := ⟨_, _, true, _⟩) uncounted rfl (fun p => held_issue p param rfl)
      ⟨[], rfl, noEvent⟩
  | @assignTail _ _ _ _ _ below top target source =>
    refine acc.quiet ⟨rfl, rfl, rfl⟩ (fun p => ?_) ⟨[], rfl, noEvent⟩
    have apart := vars.apart (by rw [top]; exact List.mem_cons_self)
    -- what is overwritten holds no slot
    have moved := held_moveImpl p below apart (.inl target) source
    rwa [weigh_of_free (kept _ _ _ _ top target)] at moved

theorem Accounts.initial (cfg : YamlConfig) : Accounts { gov := { cfg := cfg } } :=
  ⟨.initial cfg, fun _ => rfl⟩

/-! ## What a step owes -/

/-- The permits are in order after a step, and were during it. -/
structure Conserved (t : TransitionSystem.Step GovernorState GovernorInput) : Prop where
  tool : ∀ ts, t.post.gov.toolHeld ts = t.post.heldTool ts
  agent : ∀ a, t.post.gov.agentHeld a = t.post.heldAgent a
  total : t.post.gov.permitHeld = t.post.held
  /-- A permit is issued once; it is held until it is returned, once. -/
  once : ∀ n, t.post.issued n ≤ 1 ∧
    t.post.returned n + (t.post.heldWhere fun i => i.serial = n) = t.post.issued n
  /-- What is counted down was positive. -/
  positive : ∀ {n key a}, .release n key a ∈ Governor.logged t →
    0 < t.pre.gov.toolHeld key.str ∧ 0 < t.pre.gov.agentHeld a ∧ 0 < t.pre.gov.permitHeld
  /-- A permit is issued within both limits, itself included. -/
  within : ∀ {n key a waited}, .go n key a waited ∈ Governor.logged t →
    (t.post.heldTool key.str : ℤ) ≤ t.post.gov.toolLimit key.str ∧
      (t.post.heldAgent a : ℤ) ≤ t.post.gov.cfg.perPrincipalConcurrency

theorem logged_append {t : TransitionSystem.Step GovernorState GovernorInput}
    {new : List GovernorEvent} (log : t.post.log = new ++ t.pre.log) :
    Governor.logged t = new := by
  rw [Governor.logged, log, List.length_append, Nat.add_sub_cancel, List.take_left']
  rfl

/-- What the log of a step gains: nothing, a call, a rejection, or what the step is about. -/
theorem Effect.logged (e : Effect s input s') (queues : s.Queueing) :
    ∃ new, s'.log = new ++ s.log ∧
      (∀ n key a, .release n key a ∈ new → ∃ v i, s.impl v = some (some i) ∧ i.held = true ∧
        i.key = key ∧ i.agentId = a) ∧
      (∀ n key a waited, .go n key a waited ∈ new → s.gov.canTake key.str a = true ∧
        s'.gov.toolHeld key.str = s.gov.toolHeld key.str + 1 ∧
        s'.gov.agentHeld a = s.gov.agentHeld a + 1 ∧ s'.gov.cfg = s.gov.cfg) := by
  -- `take` counts the slot for the tool and for the agent
  have taken : ∀ (g : LocalGovernor ℕ) (ts a : String),
      (g.take ts a).toolHeld ts = g.toolHeld ts + 1 ∧
        (g.take ts a).agentHeld a = g.agentHeld a + 1 :=
    fun _ _ _ => ⟨UnorderedMap.getD_insert_self, UnorderedMap.getD_insert_self⟩
  cases e with
  | declare | construct | assignSelf | assignFree | dropFree | toolsListed | rejectAll | stop
  | assignTail | rejectDone | rejectNext =>
    exact ⟨[], rfl, fun _ _ _ h => (by cases h), fun _ _ _ _ h => (by cases h)⟩
  | assignHeld apart target held | dropHeld drops target held =>
    refine ⟨[_], rfl, fun _ _ _ h => ?_, fun _ _ _ _ h => ?_⟩
    · cases List.mem_singleton.mp h
      exact ⟨_, _, target, held, rfl, rfl⟩
    · cases List.mem_singleton.mp h
  | acquireGo free =>
    refine ⟨[_, _], rfl, fun _ _ _ h => ?_, fun _ _ _ _ h => ?_⟩
    · rcases List.mem_cons.mp h with h | h
      · cases h
      · cases List.mem_singleton.mp h
    · rcases List.mem_cons.mp h with h | h
      · cases h
        exact ⟨free, (taken ..).1, (taken ..).2, rfl⟩
      · cases List.mem_singleton.mp h
  | acquireQueued =>
    refine ⟨[_], rfl, fun _ _ _ h => ?_, fun _ _ _ _ h => ?_⟩ <;> cases List.mem_singleton.mp h
  | acquireReject =>
    refine ⟨[_, _], rfl, fun _ _ _ h => ?_, fun _ _ _ _ h => ?_⟩ <;>
      · rcases List.mem_cons.mp h with h | h
        · cases h
        · cases List.mem_singleton.mp h
  | timer idle fired =>
    obtain ⟨ts, l₁, w, l₂, split, -, rfl⟩ := LocalGovernor.expire_cases queues.queues fired
    refine ⟨[_], rfl, fun _ _ _ h => ?_, fun _ _ _ _ h => ?_⟩ <;> cases List.mem_singleton.mp h
  | dequeueReject | rejectHead =>
    refine ⟨[_], rfl, fun _ _ _ h => ?_, fun _ _ _ _ h => ?_⟩ <;> cases List.mem_singleton.mp h
  | @dequeueGo _ ts _ w rest top front free early =>
    refine ⟨[_], rfl, fun _ _ _ h => ?_, fun _ _ _ _ h => ?_⟩
    · cases List.mem_singleton.mp h
    · cases List.mem_singleton.mp h
      obtain rfl : w.key.str = ts :=
        queues.queues.key (by rw [front]; exact List.mem_cons_self)
      exact ⟨free, (taken ..).1, (taken ..).2, rfl⟩

private theorem heldWhere_pos {p : Impl → Bool} {v : Var} {i : Impl}
    (there : s.impl v = some (some i)) (held : i.held = true) (holds : p i = true) :
    0 < s.heldWhere p := by
  refine UnorderedMap.total_pos_iff.mpr ⟨v, some i, there, ?_⟩
  rw [weigh_of_held held, holds]
  exact Nat.one_pos

/-- A step between states whose books balance does what it owes. -/
theorem conserved {t : TransitionSystem.Step GovernorState GovernorInput} (before : t.pre.Accounts)
    (queues : t.pre.Queueing) (e : Effect t.pre t.input t.post) (after : t.post.Accounts) :
    Conserved t := by
  obtain ⟨new, log, releases, gos⟩ := e.logged queues
  have once := (queues.step e).answers_le_one
  refine ⟨after.balanced.tool, after.balanced.agent, after.balanced.held,
    fun n => ⟨?_, after.once n⟩, fun {n key a} h => ?_, fun {n key a waited} h => ?_⟩
  -- an admission is one of the answers to its call
  · refine Nat.le_trans (List.countP_mono_left fun ev _ issue => ?_) (once n)
    cases ev with
    | go => exact issue
    | _ => cases issue
  · rw [logged_append log] at h
    obtain ⟨v, i, there, held, rfl, rfl⟩ := releases n key a h
    -- the permit that gives its slot back is among those that are held
    have tool := heldWhere_pos (p := fun j => j.key.str = i.key.str) there held (by simp)
    have agent := heldWhere_pos (p := fun j => j.agentId = i.agentId) there held (by simp)
    have total := heldWhere_pos (p := fun _ => true) there held rfl
    refine ⟨?_, ?_, ?_⟩
    · rw [LocalGovernor.toolHeld, before.balanced.tool]
      exact Int.natCast_pos.mpr tool
    · rw [LocalGovernor.agentHeld, before.balanced.agent]
      exact Int.natCast_pos.mpr agent
    · rw [before.balanced.held]
      exact Int.natCast_pos.mpr total
  · rw [logged_append log] at h
    obtain ⟨free, tool, agent, cfg⟩ := gos n key a waited h
    obtain ⟨toolFree, agentFree⟩ := LocalGovernor.canTake_iff.mp free
    -- the limits are those that the front waiter was measured against
    have limit : t.post.gov.toolLimit key.str = t.pre.gov.toolLimit key.str := by
      rw [LocalGovernor.toolLimit, cfg, LocalGovernor.toolLimit]
    have toolCount : t.post.gov.toolHeld key.str = t.post.heldTool key.str :=
      after.balanced.tool key.str
    have agentCount : t.post.gov.agentHeld a = t.post.heldAgent a := after.balanced.agent a
    rw [limit, cfg]
    omega

/-- A step between states whose books balance overwrites no permit. -/
theorem noOverwrite (before : s.Accounts) (vars : s.VarsOk) (after : s'.Accounts)
    (e : Effect s input s') : s.NoOverwrite input := by
  cases e with
  | @assignTail _ dst src old moved below top target source =>
    intro dst' src' below' old' top' target'
    cases top.symm.trans top'
    cases target.symm.trans target'
    have apart := vars.apart (by rw [top]; exact List.mem_cons_self)
    have lost := held_moveImpl (fun _ => true) below apart (.inl target) source
    have counted := before.balanced.held
    have kept : s.gov.permitHeld = (s.moveImpl dst src moved below).held := after.balanced.held
    have same : (s.moveImpl dst src moved below).held = s.held := by omega
    intro i here
    cases held : i.held with
    | false => rfl
    | true =>
      rw [here, weigh_of_held held] at lost
      change (s.moveImpl dst src moved below).held + 1 = s.held at lost
      omega
  | stop top | dequeueReject top | dequeueGo top | rejectDone top | rejectNext top
  | rejectHead top =>
    intro dst src below old top'
    rw [top] at top'
    cases top'
  | dropFree drops | dropHeld drops =>
    rcases drops with ⟨_, rfl, -⟩ | ⟨rfl, -⟩ <;> exact noOverwrite_of_not_runs rfl
  | _ => trivial

/-! ## Runs -/

variable {h : List (TransitionSystem.Step GovernorState GovernorInput)}

/-- A run without overwritten permits has balanced books. -/
theorem Accounts.of_kept (run : Governor.machine.Run h s)
    (kept : ∀ t ∈ h, t.pre.NoOverwrite t.input) : s.Accounts := by
  induction run with
  | start first =>
    obtain ⟨cfg, rfl⟩ := first
    exact initial cfg
  | next before step ih =>
    obtain ⟨last, earlier⟩ := List.forall_mem_cons.mp kept
    exact (ih earlier).step (.of_run before) (.of_run before) (step_effect step) last

/-- A run that did what it owes has balanced books. -/
theorem Accounts.of_conserved (run : Governor.machine.Run h s) (done : ∀ t ∈ h, Conserved t) :
    s.Accounts := by
  cases run with
  | start first =>
    obtain ⟨cfg, rfl⟩ := first
    exact initial cfg
  | next before step =>
    obtain ⟨last, -⟩ := List.forall_mem_cons.mp done
    exact ⟨⟨last.tool, last.agent, last.total⟩, fun n => (last.once n).2⟩

end GovernorState

open GovernorState

/-- Counters and permits agree throughout a run exactly if none of its move assignments
overwrites a permit. -/
theorem permits_conserved_iff {h : List (TransitionSystem.Step GovernorState GovernorInput)}
    {s : GovernorState} (run : Governor.machine.Run h s) :
    (∀ t ∈ h, t.pre.NoOverwrite t.input) ↔ ∀ t ∈ h, Conserved t := by
  constructor
  -- the books balance as long as no step overwrites a permit
  · intro kept t taken
    obtain ⟨earlier, before, step, within⟩ := run.of_mem taken
    have queues := Queueing.of_run before
    have acc := Accounts.of_kept before fun u hu => kept u (within u hu)
    have effect := step_effect step
    exact conserved acc queues effect (acc.step (.of_run before) queues effect (kept t taken))
  -- a step that overwrites one leaves books that cannot balance
  · intro done t taken
    obtain ⟨earlier, before, step, within⟩ := run.of_mem taken
    have acc := Accounts.of_conserved before fun u hu => done u (within u hu)
    have after : t.post.Accounts :=
      ⟨⟨(done t taken).tool, (done t taken).agent, (done t taken).total⟩,
        fun n => ((done t taken).once n).2⟩
    exact noOverwrite acc (.of_run before) after (step_effect step)

namespace GovernorExample

/-- The variable that gives up its slot is assigned an empty permit, and the waiter that
gets the slot keeps it in that same variable. -/
def overwriting : List GovernorInput :=
  queueing ++ [.declare 1, .assign (.user 0) (.user 1), .run 0, .assign (.user 0) (.param 1),
    .run 0, .ret, .run 0]

end GovernorExample

open GovernorExample in
/-- A run without move assignments, at the end of which one permit is held. -/
theorem permits_conserved_iff_queueing : ∃ h s, Governor.machine.Run h s ∧ s.held = 1 ∧
    ∀ t ∈ h, Conserved t := by
  obtain ⟨h, s, run, still, reached⟩ := TransitionSystem.exists_run (M := Governor.machine)
    queueing (fun _ input => !input.runs) (fun s => decide (s.held = 1)) (s := single) ⟨_, rfl⟩
    (by decide +kernel)
  refine ⟨h, s, run, of_decide_eq_true reached, (permits_conserved_iff run).mp fun t taken => ?_⟩
  exact noOverwrite_of_not_runs (by simpa using still t taken)

open GovernorExample in
/-- A run after which nothing is running and no permit is held, but a slot of the tool and
one of the principal stay taken for good. -/
theorem permit_overwritten : ∃ h s, Governor.machine.Run h s ∧
    (s.stack = [] ∧ s.held = 0 ∧ s.gov.permitHeld = 1 ∧ s.gov.toolHeld "b__t" = 1 ∧
      s.gov.agentHeld "bob" = 1) ∧ ¬ ∀ t ∈ h, Conserved t := by
  obtain ⟨h, s, run, -, reached⟩ := TransitionSystem.exists_run (M := Governor.machine) overwriting
    (fun _ _ => true) (fun s => decide (s.stack = [] ∧ s.held = 0 ∧ s.gov.permitHeld = 1 ∧
      s.gov.toolHeld "b__t" = 1 ∧ s.gov.agentHeld "bob" = 1))
    (s := single) ⟨_, rfl⟩ (by decide +kernel)
  have lost := of_decide_eq_true reached
  refine ⟨h, s, run, lost, fun done => ?_⟩
  have counted := (Accounts.of_conserved run done).balanced.held
  rw [lost.2.2.1, lost.2.1] at counted
  cases counted

end Perfacet
