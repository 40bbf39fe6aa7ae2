import Mathlib.Data.List.Induction
import Perfacet.Health.CountCircuit

/-!
# How long a circuit stays open

A circuit that has tripped is meant to stay open for its cooldown, whatever calls that started
earlier bring, and to be left only by a look at it after the cooldown. A success that arrives
while the circuit is open closes it.

## Main definitions

* `CircuitOp`, `CountCircuit.run` — what can happen to the circuits, in any order
* `CountCircuit.Lasts` — OPEN lasts its cooldown, and is left for HALF_OPEN only

## Main results

* `CountCircuit.opened_apply` — what can happen to an open circuit
* `cooldown_lasts_iff` — when OPEN lasts its cooldown
-/

namespace Perfacet

/-- What can happen to a circuit. -/
inductive CircuitOp
  | success (server : String)
  | failure (server : String) (now : UInt64)
  | probeSuccess (server : String)
  | query (server : String) (now : UInt64)
  deriving DecidableEq, Repr

namespace CircuitOp

/-- The server that it happens to. -/
def server : CircuitOp → String
  | success server | failure server _ | probeSuccess server | query server _ => server

/-- It happens before a deadline, if it looks at the clock. -/
def Before (deadline : ℕ) : CircuitOp → Prop
  | failure _ now | query _ now => now.toNat < deadline
  | _ => True

end CircuitOp

namespace CountCircuit

variable {c : CountCircuit} {server : String} {now : UInt64} {op : CircuitOp}

def apply (c : CountCircuit) : CircuitOp → CountCircuit
  | .success server => c.onSuccess server
  | .failure server now => (c.onFailure server now).1
  | .probeSuccess server => c.onProbeSuccess server
  | .query server now => (c.isOpen server now).1

def run (c : CountCircuit) (ops : List CircuitOp) : CountCircuit := ops.foldl apply c

theorem run_append (c : CountCircuit) (ops ops' : List CircuitOp) :
    c.run (ops ++ ops') = (c.run ops).run ops' := List.foldl_append

theorem run_concat (c : CountCircuit) (ops : List CircuitOp) (op : CircuitOp) :
    c.run (ops ++ [op]) = (c.run ops).apply op := run_append c ops [op]

/-! ## One step -/

theorem cooldownMs_onFailure (c : CountCircuit) (server : String) (now : UInt64) :
    (c.onFailure server now).1.cooldownMs = c.cooldownMs := by
  unfold onFailure
  dsimp only
  split
  · rfl
  · split <;> rfl

theorem cooldownMs_run (c : CountCircuit) (ops : List CircuitOp) :
    (c.run ops).cooldownMs = c.cooldownMs := by
  induction ops using List.reverseRecOn with
  | nil => rfl
  | append_singleton ops op ih =>
    rw [run_concat, ← ih]
    cases op with
    | failure server now => exact cooldownMs_onFailure ..
    | _ => rfl

/-- What happens to another server does not matter. -/
theorem slot_apply_of_ne (other : op.server ≠ server) :
    (c.apply op).slot server = c.slot server := by
  have differs : server ≠ op.server := Ne.symm other
  cases op with
  | success name => exact (slot_put ..).trans (if_neg differs)
  | probeSuccess name => exact (slot_put ..).trans (if_neg differs)
  | query name now => exact (slot_put ..).trans (if_neg differs)
  | failure name now =>
    rw [apply, onFailure]
    dsimp only
    split
    · exact (slot_put ..).trans (if_neg differs)
    · split <;> exact (slot_put ..).trans (if_neg differs)

/-- What can happen to an open circuit: a success closes it, and once the cooldown is over a look
at it half-opens it and a failure opens it anew. Anything else leaves it as it is. -/
theorem opened_apply (opened : c.st server = .opened) (op : CircuitOp) :
    (op = .success server ∧ (c.apply op).st server = .closed) ∨
    (∃ now, op = .query server now ∧ (c.slot server).openUntilMs ≤ now ∧
      (c.apply op).st server = .halfOpen) ∨
    (∃ now, op = .failure server now ∧ (c.slot server).openUntilMs ≤ now ∧
      (c.apply op).st server = .opened) ∨
    ((c.apply op).st server = .opened ∧
      ((c.apply op).slot server).openUntilMs = (c.slot server).openUntilMs) := by
  by_cases other : op.server = server
  · subst other
    have opened : (c.slot op.server).st = .opened := opened
    cases op with
    | success name =>
      simp only [CircuitOp.server] at opened ⊢
      left
      refine ⟨trivial, ?_⟩
      simp [apply, st, onSuccess, slot_put, opened]
    | probeSuccess name =>
      simp only [CircuitOp.server] at opened ⊢
      right; right; right
      simp [apply, st, onProbeSuccess, slot_put, opened]
    | query name now =>
      simp only [CircuitOp.server] at opened ⊢
      right
      by_cases elapsed : (c.slot name).openUntilMs ≤ now
      · left
        -- the look makes the slot half-open
        refine ⟨now, rfl, elapsed, ?_⟩
        rw [apply, st, slot_isOpen, if_pos rfl, maybeHalfOpen, if_pos ⟨opened, elapsed⟩]
      · right; right
        rw [apply, st, slot_isOpen, if_pos rfl, maybeHalfOpen, if_neg fun both => elapsed both.2]
        exact ⟨opened, rfl⟩
    | failure name now =>
      simp only [CircuitOp.server] at opened ⊢
      right; right
      by_cases elapsed : (c.slot name).openUntilMs ≤ now
      · left
        -- the failure looks first, and then opens the half-open slot anew
        have half : (maybeHalfOpen (c.slot name) now).st = .halfOpen := by
          rw [maybeHalfOpen, if_pos ⟨opened, elapsed⟩]
        exact ⟨now, rfl, elapsed, (st_onFailure c name now).mpr (.inl (.inl half))⟩
      · right
        have still : maybeHalfOpen (c.slot name) now = c.slot name := by
          rw [maybeHalfOpen, if_neg fun both => elapsed both.2]
        simp [apply, st, onFailure, still, opened, slot_put]
  · right; right; right
    rw [st, slot_apply_of_ne other]
    exact ⟨opened, rfl⟩

/-- The result of a failure says whether it trips the circuit. -/
theorem onFailure_snd (c : CountCircuit) (server : String) (now : UInt64) :
    (c.onFailure server now).2 = true ↔ c.Trips server now := by
  unfold onFailure Trips
  dsimp only
  generalize maybeHalfOpen (c.slot server) now = s
  split
  · next trial => simp [trial]
  · next steady =>
    split
    · next counted =>
      have closed : s.st = .closed := by
        cases h : s.st with
        | closed => rfl
        | opened => exact absurd h counted.2
        | halfOpen => exact absurd h steady
      simp [closed, counted.1]
    · next quiet =>
      simp only [Bool.false_eq_true, steady, false_or, false_iff, not_and]
      exact fun closed counted => quiet ⟨counted, by simp [closed]⟩

/-! ## Sequences -/

/-- OPEN lasts its cooldown, and is left for HALF_OPEN only, by a look at it after the cooldown. -/
structure Lasts (c : CountCircuit) (server : String) (ops : List CircuitOp) : Prop where
  cooldown : ∀ earlier t between later, ops = earlier ++ .failure server t :: between ++ later →
    ((c.run earlier).onFailure server t).2 = true →
    (∀ op ∈ between, op.Before (t.toNat + c.cooldownMs.toNat)) →
    ∀ t', t ≤ t' → t'.toNat < t.toNat + c.cooldownMs.toNat →
      ((c.run (earlier ++ .failure server t :: between)).isOpen server t').2 = true
  left : ∀ earlier op later, ops = earlier ++ op :: later →
    (c.run earlier).st server = .opened →
    (c.run (earlier ++ [op])).st server = .opened ∨
      (c.run (earlier ++ [op])).st server = .halfOpen ∧
        ∃ now, op = .query server now ∧ ((c.run earlier).slot server).openUntilMs ≤ now

/-- No success arrives while the circuit is open, and no cooldown ends beyond the range of the
clock. -/
structure Undisturbed (c : CountCircuit) (server : String) (ops : List CircuitOp) : Prop where
  late : ∀ earlier later, ops = earlier ++ .success server :: later →
    (c.run earlier).st server ≠ .opened
  fits : ∀ earlier t later, ops = earlier ++ .failure server t :: later →
    ((c.run earlier).onFailure server t).2 = true →
    c.cooldownMs = 0 ∨ t.toNat + c.cooldownMs.toNat < 2 ^ 64

variable {ops : List CircuitOp}

/-- The circuit as a failure leaves it that trips it. -/
theorem opened_of_trips (trips : (c.onFailure server now).2 = true) :
    (c.onFailure server now).1.st server = .opened ∧
      ((c.onFailure server now).1.slot server).openUntilMs = now + c.cooldownMs := by
  rw [onFailure_snd] at trips
  exact ⟨(st_onFailure c server now).mpr (.inl trips), openUntilMs_onFailure trips⟩

/-- Until the cooldown is over only a success changes an open circuit. -/
theorem opened_run (opened : c.st server = .opened) {deadline : UInt64}
    (set : (c.slot server).openUntilMs = deadline) (before : ∀ op ∈ ops, op.Before deadline.toNat)
    (quiet : ∀ earlier later, ops = earlier ++ .success server :: later →
      (c.run earlier).st server ≠ .opened) :
    (c.run ops).st server = .opened ∧ ((c.run ops).slot server).openUntilMs = deadline := by
  induction ops using List.reverseRecOn with
  | nil => exact ⟨opened, set⟩
  | append_singleton ops op ih =>
    obtain ⟨still, same⟩ := ih (fun op member => before op (by simp [member]))
      fun earlier later split => quiet earlier (later ++ [op]) (by simp [split])
    have early := before op (by simp)
    rw [run_concat]
    rcases opened_apply still op with
      ⟨rfl, -⟩ | ⟨now, rfl, elapsed, -⟩ | ⟨now, rfl, elapsed, -⟩ | rest
    · exact absurd still (quiet ops [] rfl)
    · rw [same, UInt64.le_iff_toNat_le] at elapsed
      exact absurd early (Nat.not_lt.mpr elapsed)
    · rw [same, UInt64.le_iff_toNat_le] at elapsed
      exact absurd early (Nat.not_lt.mpr elapsed)
    · exact ⟨rest.1, rest.2.trans same⟩

theorem isOpen_of_opened (opened : c.st server = .opened)
    (early : now < (c.slot server).openUntilMs) : (c.isOpen server now).2 = true := by
  rw [isOpen_snd, maybeHalfOpen, if_neg fun both => UInt64.not_lt.mpr both.2 early]
  exact decide_eq_true opened

theorem Undisturbed.lasts (h : c.Undisturbed server ops) : c.Lasts server ops where
  cooldown := by
    intro earlier t between later split trips before t' from_ until_
    have some : c.cooldownMs ≠ 0 := by
      intro none
      rw [none] at until_
      exact absurd (UInt64.le_iff_toNat_le.mp from_) (Nat.not_le.mpr until_)
    have fits := (h.fits earlier t (between ++ later) (by simp [split]) trips).resolve_left some
    -- the deadline does not wrap around
    have deadline : (t + c.cooldownMs).toNat = t.toNat + c.cooldownMs.toNat := by
      rw [UInt64.toNat_add, Nat.mod_eq_of_lt fits]
    obtain ⟨opened, set⟩ := opened_of_trips trips
    rw [cooldownMs_run] at set
    have same : c.run (earlier ++ .failure server t :: between) =
        ((c.run earlier).onFailure server t).1.run between := by
      rw [run_append]
      rfl
    -- no success comes before the cooldown is over
    have still := opened_run opened set (by rw [deadline]; exact before)
      fun earlier' later' (inner : between = earlier' ++ .success server :: later') => by
        have := h.late (earlier ++ .failure server t :: earlier') (later' ++ later)
          (by simp [split, inner])
        rw [run_append] at this
        exact this
    rw [same]
    refine isOpen_of_opened still.1 ?_
    rw [still.2, UInt64.lt_iff_toNat_lt, deadline]
    exact until_
  left := by
    intro earlier op later split opened
    rw [run_concat]
    rcases opened_apply opened op with
      ⟨rfl, -⟩ | ⟨now, rfl, elapsed, half⟩ | ⟨now, rfl, -, again⟩ | rest
    · exact absurd opened (h.late earlier later split)
    · exact .inr ⟨half, now, rfl, elapsed⟩
    · exact .inl again
    · exact .inl rest.1

theorem Lasts.undisturbed (h : c.Lasts server ops) : c.Undisturbed server ops where
  late := by
    intro earlier later split opened
    have closed : (c.run (earlier ++ [.success server])).st server = .closed := by
      rw [run_concat]
      rcases opened_apply opened (.success server) with
        ⟨-, closed⟩ | ⟨now, other, -⟩ | ⟨now, other, -⟩ | ⟨still, -⟩
      · exact closed
      · cases other
      · cases other
      · exact absurd still (st_onSuccess _ _)
    rcases h.left earlier _ later split opened with still | ⟨half, -⟩
    · rw [closed] at still
      cases still
    · rw [closed] at half
      cases half
  fits := by
    intro earlier t later split trips
    by_contra wraps
    obtain ⟨some, beyond⟩ := not_or.mp wraps
    have positive : 0 < c.cooldownMs.toNat :=
      Nat.pos_of_ne_zero fun none => some (UInt64.toNat_inj.mp none)
    have opens := h.cooldown earlier t [] later (by simp [split]) trips (by simp) t
      (UInt64.le_iff_toNat_le.mpr le_rfl) (by omega)
    -- The deadline has wrapped around, so it is over at once.
    obtain ⟨opened, set⟩ := opened_of_trips trips
    rw [cooldownMs_run] at set
    have reached : t + c.cooldownMs ≤ t := by
      have bound := c.cooldownMs.toNat_lt
      rw [UInt64.le_iff_toNat_le, UInt64.toNat_add]
      omega
    rw [run_concat] at opens
    change (((c.run earlier).onFailure server t).1.isOpen server t).2 = true at opens
    rw [isOpen_snd, maybeHalfOpen, if_pos ⟨opened, by rw [set]; exact reached⟩] at opens
    cases opens

end CountCircuit

/-- OPEN lasts its cooldown in a sequence of events if and only if no success arrives while the
circuit is open and no cooldown ends beyond the range of the clock. -/
theorem cooldown_lasts_iff (c : CountCircuit) (server : String) (ops : List CircuitOp) :
    c.Lasts server ops ↔ c.Undisturbed server ops :=
  ⟨CountCircuit.Lasts.undisturbed, CountCircuit.Undisturbed.lasts⟩

/-- A success of a call that started earlier closes a circuit that has just opened. -/
theorem late_success_closes : ∃ ops,
    ¬ (CountCircuit.Lasts { openAfter := 1, cooldownMs := 10000, halfOpenProbes := 1 }
      "echo" ops) := by
  refine ⟨[.failure "echo" 0, .success "echo"], fun lasts => ?_⟩
  have opens := lasts.cooldown [] 0 [.success "echo"] [] rfl (by decide)
    (by simp [CircuitOp.Before])
    1 (by decide) (by decide)
  exact absurd opens (by decide)

end Perfacet
