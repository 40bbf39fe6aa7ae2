import Perfacet.Health.Cooldown

/-!
# When a circuit trips and when it closes

A slot counts the failures in a row while it is closed, and the successes while it is half-open.
Several handlers reset the two counters. Over a whole history the first one is the number of
failures since the last success, and the second one the number of successes since the slot became
half-open.

## Main definitions

* `CircuitSlot.next` — what an event does to the slot of its server
* `CircuitOp.streak` — the failures in a row at the end of a history
* `CountCircuit.TripLaw` — which failures trip the circuit, and which success closes it

## Main results

* `CountCircuit.apply_eq_put` — an event changes one slot
* `CountCircuit.fails_run`, `CountCircuit.halfOk_run` — what the counters count
* `trip_law` — circuits trip and close as they should
-/

namespace Perfacet

/-! ## One slot -/

/-- What an event does to the slot of its server, under the limits of a circuit. -/
def CircuitSlot.next (c : CountCircuit) (s : CircuitSlot) : CircuitOp → CircuitSlot
  | .success _ =>
    if s.st = .halfOpen then
      if c.halfOpenProbes ≤ s.halfOk + 1 then
        { s with halfOk := s.halfOk + 1, st := .closed, fails := 0 }
      else { s with halfOk := s.halfOk + 1 }
    else { s with fails := 0, st := .closed }
  | .failure _ now =>
    let s := CountCircuit.maybeHalfOpen s now
    if s.st = .halfOpen then
      { s with st := .opened, openUntilMs := now + c.cooldownMs, fails := 0 }
    else if c.openAfter ≤ s.fails + 1 ∧ s.st ≠ .opened then
      { s with fails := s.fails + 1, st := .opened, openUntilMs := now + c.cooldownMs }
    else { s with fails := s.fails + 1 }
  | .probeSuccess _ =>
    if s.st = .halfOpen then
      if c.halfOpenProbes ≤ s.halfOk + 1 then
        { s with st := .closed, fails := 0, halfOk := 0 }
      else { s with halfOk := s.halfOk + 1 }
    else if s.st = .closed then { s with fails := 0 }
    else s
  | .query _ now => CountCircuit.maybeHalfOpen s now

namespace CircuitOp

/-- A call or a probe of the server succeeds. -/
def Succeeds (server : String) (op : CircuitOp) : Prop :=
  op = .success server ∨ op = .probeSuccess server

instance (server : String) : DecidablePred (Succeeds server) := fun op =>
  inferInstanceAs (Decidable (op = .success server ∨ op = .probeSuccess server))

/-- One more event at the end of a history with so many failures in a row. -/
def count (server : String) (n : ℕ) : CircuitOp → ℕ
  | success name | probeSuccess name => if name = server then 0 else n
  | failure name _ => if name = server then n + 1 else n
  | query _ _ => n

/-- The failures of the server since a call or a probe of it last succeeded. -/
def streak (server : String) (ops : List CircuitOp) : ℕ := ops.foldl (count server) 0

/-- How often a call or a probe of the server succeeds. -/
def successes (server : String) (ops : List CircuitOp) : ℕ :=
  ops.countP fun op => op.Succeeds server

variable {server : String} {op : CircuitOp}

theorem streak_concat (server : String) (ops : List CircuitOp) (op : CircuitOp) :
    streak server (ops ++ [op]) = count server (streak server ops) op :=
  List.foldl_append

theorem successes_concat (server : String) (ops : List CircuitOp) (op : CircuitOp) :
    successes server (ops ++ [op]) =
      successes server ops + if op.Succeeds server then 1 else 0 := by
  rw [successes, successes, List.countP_append, List.countP_singleton]
  simp only [decide_eq_true_eq]

theorem server_of_succeeds (h : op.Succeeds server) : op.server = server := by
  rcases h with rfl | rfl <;> rfl

theorem count_of_ne (other : op.server ≠ server) (n : ℕ) : count server n op = n := by
  cases op with
  | query name now => rfl
  | _ => exact if_neg other

end CircuitOp

namespace CircuitSlot

open CountCircuit

variable {c : CountCircuit} {s : CircuitSlot} {op : CircuitOp}

/-- After a look at the clock a slot is closed if it was closed before. -/
theorem st_maybeHalfOpen (now : UInt64) :
    (maybeHalfOpen s now).st = .closed ↔ s.st = .closed := by
  rw [maybeHalfOpen]
  split
  · next elapsed => simp [elapsed.1]
  · exact Iff.rfl

/-- After a failure a slot is closed if it was closed before and the limit is not reached. -/
theorem closed_failure {name : String} {now : UInt64}
    (closed : (s.next c (.failure name now)).st = .closed) :
    s.st = .closed ∧ s.next c (.failure name now) = { s with fails := s.fails + 1 } := by
  rw [next] at closed ⊢
  by_cases trial : (maybeHalfOpen s now).st = .halfOpen
  · rw [if_pos trial] at closed
    cases closed
  · rw [if_neg trial] at closed ⊢
    by_cases limit : c.openAfter ≤ (maybeHalfOpen s now).fails + 1 ∧
        (maybeHalfOpen s now).st ≠ .opened
    · rw [if_pos limit] at closed
      cases closed
    · rw [if_neg limit] at closed ⊢
      have before : s.st = .closed := (st_maybeHalfOpen now).mp closed
      rw [maybeHalfOpen_of_ne (by simp [before])]
      exact ⟨before, rfl⟩

/-- A slot gets closed by a success only. -/
theorem closed_next (closed : (s.next c op).st = .closed) :
    op.Succeeds op.server ∨ s.st = .closed := by
  cases op with
  | success name => exact .inl (.inl rfl)
  | probeSuccess name => exact .inl (.inr rfl)
  | query name now => exact .inr ((st_maybeHalfOpen now).mp closed)
  | failure name now => exact .inr (closed_failure closed).1

/-- The count of failures of a closed slot goes on, or starts anew. -/
theorem fails_next {n : ℕ} (counted : s.st = .closed → s.fails = n)
    (closed : (s.next c op).st = .closed) :
    (s.next c op).fails = CircuitOp.count op.server n op := by
  cases op with
  | success name =>
    rw [CircuitOp.count, CircuitOp.server, if_pos rfl]
    rw [next] at closed ⊢
    by_cases trial : s.st = .halfOpen
    · rw [if_pos trial] at closed ⊢
      -- a half-open slot that closes starts to count anew
      by_cases enough : c.halfOpenProbes ≤ s.halfOk + 1
      · rw [if_pos enough]
        rfl
      · rw [if_neg enough, trial] at closed
        cases closed
    · rw [if_neg trial]
      rfl
  | probeSuccess name =>
    rw [CircuitOp.count, CircuitOp.server, if_pos rfl]
    rw [next] at closed ⊢
    by_cases trial : s.st = .halfOpen
    · rw [if_pos trial] at closed ⊢
      by_cases enough : c.halfOpenProbes ≤ s.halfOk + 1
      · rw [if_pos enough]
        rfl
      · rw [if_neg enough, trial] at closed
        cases closed
    · rw [if_neg trial] at closed ⊢
      by_cases before : s.st = .closed
      · rw [if_pos before]
        rfl
      · rw [if_neg before] at closed
        exact absurd closed before
  | query name now =>
    have before := (st_maybeHalfOpen now).mp closed
    rw [next, maybeHalfOpen_of_ne (by simp [before])]
    exact counted before
  | failure name now =>
    obtain ⟨before, next⟩ := closed_failure closed
    rw [next, CircuitOp.count, CircuitOp.server, if_pos rfl, counted before]
    rfl

/-- What an event does to a half-open slot: a success is counted, and a failure opens it. -/
theorem next_of_trial (trial : s.st = .halfOpen) :
    (op.Succeeds op.server ∧ c.halfOpenProbes ≤ s.halfOk + 1 ∧ (s.next c op).st = .closed) ∨
    (op.Succeeds op.server ∧ s.halfOk + 1 < c.halfOpenProbes ∧ (s.next c op).st = .halfOpen ∧
      (s.next c op).halfOk = s.halfOk + 1) ∨
    (¬ op.Succeeds op.server ∧ (s.next c op).st = .opened) ∨
    (¬ op.Succeeds op.server ∧ s.next c op = s) := by
  have look (now : UInt64) : maybeHalfOpen s now = s := maybeHalfOpen_of_ne (by simp [trial])
  cases op with
  | success name =>
    rw [next, if_pos trial]
    by_cases enough : c.halfOpenProbes ≤ s.halfOk + 1
    · rw [if_pos enough]
      exact .inl ⟨.inl rfl, enough, rfl⟩
    · rw [if_neg enough]
      exact .inr (.inl ⟨.inl rfl, by omega, trial, rfl⟩)
  | probeSuccess name =>
    rw [next, if_pos trial]
    by_cases enough : c.halfOpenProbes ≤ s.halfOk + 1
    · rw [if_pos enough]
      exact .inl ⟨.inr rfl, enough, rfl⟩
    · rw [if_neg enough]
      exact .inr (.inl ⟨.inr rfl, by omega, trial, rfl⟩)
  | failure name now =>
    rw [next, look, if_pos trial]
    exact .inr (.inr (.inl ⟨by simp [CircuitOp.Succeeds], rfl⟩))
  | query name now =>
    rw [next, look]
    exact .inr (.inr (.inr ⟨by simp [CircuitOp.Succeeds], rfl⟩))

/-- Only a look at the clock makes a slot half-open. -/
theorem query_of_trial (shut : s.st ≠ .halfOpen) (trial : (s.next c op).st = .halfOpen) :
    ∃ name now, op = .query name now := by
  cases op with
  | success name =>
    rw [next, if_neg shut] at trial
    cases trial
  | probeSuccess name =>
    rw [next, if_neg shut] at trial
    split at trial
    · exact absurd trial shut
    · exact absurd trial shut
  | failure name now =>
    rw [next] at trial
    split at trial
    · cases trial
    · next still =>
      split at trial
      · cases trial
      · exact absurd trial still
  | query name now => exact ⟨name, now, rfl⟩

/-- A slot that has just become half-open counts from zero. -/
theorem halfOk_next (shut : s.st ≠ .halfOpen) (trial : (s.next c op).st = .halfOpen) :
    (s.next c op).halfOk = 0 := by
  obtain ⟨name, now, rfl⟩ := query_of_trial shut trial
  rw [next, maybeHalfOpen] at trial ⊢
  split at trial
  · next elapsed => rw [if_pos elapsed]
  · exact absurd trial shut

end CircuitSlot

namespace CountCircuit

variable {c : CountCircuit} {server : String} {ops : List CircuitOp} {op : CircuitOp}

/-- An event changes the slot of its server. -/
theorem apply_eq_put (c : CountCircuit) (op : CircuitOp) :
    c.apply op = c.put op.server ((c.slot op.server).next c op) := by
  cases op with
  | success name => rfl
  | probeSuccess name => rfl
  | query name now => rfl
  | failure name now =>
    rw [apply, onFailure, CircuitSlot.next, CircuitOp.server]
    dsimp only
    split
    · rfl
    · split <;> rfl

theorem slot_apply (c : CountCircuit) (op : CircuitOp) :
    (c.apply op).slot op.server = (c.slot op.server).next c op := by
  rw [apply_eq_put, slot_put, if_pos rfl]

theorem halfOpenProbes_run (c : CountCircuit) (ops : List CircuitOp) :
    (c.run ops).halfOpenProbes = c.halfOpenProbes := by
  induction ops using List.reverseRecOn with
  | nil => rfl
  | append_singleton ops op ih => rw [run_concat, apply_eq_put, ← ih]; rfl

theorem openAfter_run (c : CountCircuit) (ops : List CircuitOp) :
    (c.run ops).openAfter = c.openAfter := by
  induction ops using List.reverseRecOn with
  | nil => rfl
  | append_singleton ops op ih => rw [run_concat, apply_eq_put, ← ih]; rfl

/-! ## Histories -/

/-- A circuit of which nothing is known yet. -/
def make (openAfter : ℤ) (cooldownMs : UInt64) (halfOpenProbes : ℤ) : CountCircuit :=
  { openAfter, cooldownMs, halfOpenProbes }

variable {openAfter halfOpenProbes : ℤ} {cooldownMs : UInt64}

theorem slot_make (openAfter : ℤ) (cooldownMs : UInt64) (halfOpenProbes : ℤ) (server : String) :
    (make openAfter cooldownMs halfOpenProbes).slot server = {} :=
  UnorderedMap.getD_empty ..

/-- A closed slot has counted the failures in a row. -/
theorem fails_run
    (closed : ((make openAfter cooldownMs halfOpenProbes).run ops).st server = .closed) :
    (((make openAfter cooldownMs halfOpenProbes).run ops).slot server).fails =
      CircuitOp.streak server ops := by
  induction ops using List.reverseRecOn with
  | nil =>
    rw [run, List.foldl_nil, slot_make]
    rfl
  | append_singleton ops op ih =>
    rw [st, run_concat] at closed
    rw [run_concat, CircuitOp.streak_concat]
    by_cases own : op.server = server
    · subst own
      rw [slot_apply] at closed ⊢
      exact CircuitSlot.fails_next ih closed
    · rw [slot_apply_of_ne own] at closed ⊢
      rw [CircuitOp.count_of_ne own]
      exact ih closed

/-- The slot of the server became half-open with `entry`, and still was after `later`. -/
structure OnTrial (c : CountCircuit) (server : String) (earlier : List CircuitOp)
    (entry : CircuitOp) (later : List CircuitOp) : Prop where
  enters : (c.run earlier).st server ≠ .halfOpen
  stays : ∀ past, past <+: later → (c.run (earlier ++ entry :: past)).st server = .halfOpen

variable {earlier later : List CircuitOp} {entry : CircuitOp}

theorem OnTrial.init (h : c.OnTrial server earlier entry (later ++ [op])) :
    c.OnTrial server earlier entry later where
  enters := h.enters
  stays past isPast := h.stays past (isPast.trans (List.prefix_append later [op]))

theorem OnTrial.last (h : c.OnTrial server earlier entry later) :
    ((c.run (earlier ++ entry :: later)).slot server).st = .halfOpen :=
  h.stays later List.prefix_rfl

theorem run_cons_concat (c : CountCircuit) (earlier later : List CircuitOp)
    (entry op : CircuitOp) :
    c.run (earlier ++ entry :: (later ++ [op])) = (c.run (earlier ++ entry :: later)).apply op := by
  rw [← run_concat, List.append_assoc, List.cons_append]

/-- A half-open slot has counted the successes since it became half-open, and it is still missing
one, be it the first. -/
theorem halfOk_run (h : c.OnTrial server earlier entry later) :
    ((c.run (earlier ++ entry :: later)).slot server).halfOk = CircuitOp.successes server later ∧
      (CircuitOp.successes server later = 0 ∨
        (CircuitOp.successes server later : ℤ) < c.halfOpenProbes) := by
  induction later using List.reverseRecOn with
  | nil =>
    refine ⟨?_, .inl rfl⟩
    have trial := h.last
    rw [run_concat] at trial ⊢
    -- the last event was about this server, or it could not have half-opened it
    have own : entry.server = server := by
      by_contra other
      rw [slot_apply_of_ne other] at trial
      exact h.enters trial
    subst own
    rw [slot_apply] at trial ⊢
    exact CircuitSlot.halfOk_next h.enters trial
  | append_singleton later op ih =>
    obtain ⟨counted, missing⟩ := ih h.init
    have trial := h.last
    rw [run_cons_concat] at trial ⊢
    rw [CircuitOp.successes_concat]
    by_cases own : op.server = server
    · subst own
      rw [slot_apply] at trial ⊢
      -- the slot is still half-open, so the event neither closed nor opened it
      rcases @CircuitSlot.next_of_trial (c.run (earlier ++ entry :: later)) _ op
        h.init.last with ⟨-, -, closed⟩ | ⟨succeeds, short, -, more⟩ | ⟨-, opened⟩ | ⟨fails, same⟩
      · rw [trial] at closed
        cases closed
      · rw [halfOpenProbes_run, counted] at short
        rw [if_pos succeeds, more, counted]
        exact ⟨by push_cast; rfl, .inr (by push_cast; exact short)⟩
      · rw [trial] at opened
        cases opened
      · rw [if_neg fails, same]
        exact ⟨counted, missing⟩
    · rw [slot_apply_of_ne own, if_neg fun succeeds => own (CircuitOp.server_of_succeeds succeeds)]
      exact ⟨counted, missing⟩

/-- Which failures trip the circuit of a server after a history, and which success closes it. The
state at the time of a failure is what a query would return. -/
structure TripLaw (c : CountCircuit) (server : String) (ops : List CircuitOp) : Prop where
  result : ∀ now, ((c.run ops).onFailure server now).2 = true ↔
    ((c.run ops).state server now).2 ≠ .opened ∧
      ((c.run ops).onFailure server now).1.st server = .opened
  trips : ∀ now, ((c.run ops).onFailure server now).2 = true ↔
    ((c.run ops).state server now).2 = .halfOpen ∨
      ((c.run ops).state server now).2 = .closed ∧
        c.openAfter ≤ CircuitOp.streak server ops + 1
  entered : ∀ op, (c.run ops).st server ≠ .closed → (c.run (ops ++ [op])).st server = .closed →
    op.Succeeds server
  closes : ∀ earlier entry later, ops = earlier ++ entry :: later →
    c.OnTrial server earlier entry later → ∀ op,
      (c.run (ops ++ [op])).st server = .closed ↔
        op.Succeeds server ∧
          (CircuitOp.successes server later : ℤ) + 1 = max 1 c.halfOpenProbes

/-- The result of a failure tells that it has opened the circuit. -/
theorem onFailure_snd_iff (c : CountCircuit) (server : String) (now : UInt64) :
    (c.onFailure server now).2 = true ↔
      (c.state server now).2 ≠ .opened ∧ (c.onFailure server now).1.st server = .opened := by
  rw [onFailure_snd, st_onFailure]
  constructor
  · intro trips
    refine ⟨?_, .inl trips⟩
    rcases trips with trial | ⟨closed, -⟩
    · exact fun opened => absurd (trial.symm.trans opened) (by simp)
    · exact fun opened => absurd (closed.symm.trans opened) (by simp)
  · rintro ⟨shut, trips | opened⟩
    · exact trips
    · exact absurd opened shut

/-- Only a success moves a server into CLOSED. -/
theorem closed_apply (shut : c.st server ≠ .closed) (closed : (c.apply op).st server = .closed) :
    op.Succeeds server := by
  have own : op.server = server := by
    by_contra other
    rw [st, slot_apply_of_ne other] at closed
    exact shut closed
  subst own
  rw [st, slot_apply] at closed
  exact (CircuitSlot.closed_next closed).resolve_right shut

/-- The success that closes a half-open slot is the last one that was missing. -/
theorem OnTrial.closes (h : c.OnTrial server earlier entry later) (op : CircuitOp) :
    (c.run (earlier ++ entry :: (later ++ [op]))).st server = .closed ↔
      op.Succeeds server ∧
        (CircuitOp.successes server later : ℤ) + 1 = max 1 c.halfOpenProbes := by
  obtain ⟨counted, missing⟩ := halfOk_run h
  have trial := h.last
  rw [run_cons_concat]
  constructor
  · intro closed
    have succeeds := closed_apply (by rw [st, trial]; simp) closed
    have own := CircuitOp.server_of_succeeds succeeds
    subst own
    rw [st, slot_apply] at closed
    refine ⟨succeeds, ?_⟩
    rcases @CircuitSlot.next_of_trial (c.run (earlier ++ entry :: later)) _ op
      trial with ⟨-, enough, -⟩ | ⟨-, -, still, -⟩ | ⟨fails, -⟩ | ⟨fails, -⟩
    · rw [halfOpenProbes_run, counted] at enough
      omega
    · rw [closed] at still
      cases still
    · exact absurd succeeds fails
    · exact absurd succeeds fails
  · rintro ⟨succeeds, last⟩
    have own := CircuitOp.server_of_succeeds succeeds
    subst own
    rw [st, slot_apply]
    rcases @CircuitSlot.next_of_trial (c.run (earlier ++ entry :: later)) _ op
      trial with ⟨-, -, closed⟩ | ⟨-, short, -⟩ | ⟨fails, -⟩ | ⟨fails, -⟩
    · exact closed
    · rw [halfOpenProbes_run, counted] at short
      omega
    · exact absurd succeeds fails
    · exact absurd succeeds fails

end CountCircuit

open CountCircuit in
/-- After every history of a circuit, a failure opens it if it is half-open or if this is one
failure too many in a row, and tells so; and a half-open circuit closes at the success that makes
up the number of successes that it waits for. -/
theorem trip_law (openAfter : ℤ) (cooldownMs : UInt64) (halfOpenProbes : ℤ) (server : String)
    (ops : List CircuitOp) :
    (make openAfter cooldownMs halfOpenProbes).TripLaw server ops where
  result now := onFailure_snd_iff _ server now
  trips now := by
    rw [onFailure_snd, Trips, openAfter_run]
    refine or_congr_right (and_congr_right fun closed => ?_)
    have before := (CircuitSlot.st_maybeHalfOpen now).mp closed
    rw [maybeHalfOpen_of_ne (by simp [before]), fails_run before]
  entered op shut closed := by
    rw [run_concat] at closed
    exact closed_apply shut closed
  closes := by
    rintro earlier entry later rfl h op
    rw [List.append_assoc, List.cons_append]
    exact h.closes op

end Perfacet
