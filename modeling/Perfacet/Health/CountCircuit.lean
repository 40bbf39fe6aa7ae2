import Perfacet.Policy.YamlConfig

/-!
# The circuit breaker

A circuit counts consecutive failures of a server and opens at a limit. OPEN turns into
HALF_OPEN when it is looked at after the cooldown, and HALF_OPEN closes after some
successes or opens again at the next failure.

## Main results

* `CountCircuit.isOpen_of_ne` — a circuit that is not open is never seen open
* `CountCircuit.isOpen_onFailure` — which failures open the circuit, and for how long
-/

namespace Perfacet

inductive CState
  | closed | opened | halfOpen
  deriving DecidableEq, Repr

structure CircuitSlot where
  st : CState := .closed
  fails : ℤ := 0
  halfOk : ℤ := 0
  openUntilMs : UInt64 := 0
  deriving DecidableEq, Repr

structure CountCircuit where
  openAfter : ℤ
  cooldownMs : UInt64
  halfOpenProbes : ℤ
  slots : UnorderedMap String CircuitSlot := ∅

namespace CountCircuit

/-- The slot of a server; a server that was never looked at is closed. -/
def slot (c : CountCircuit) (server : String) : CircuitSlot := c.slots.getD server {}

/-- Write the slot of a server. -/
def put (c : CountCircuit) (server : String) (s : CircuitSlot) : CountCircuit :=
  { c with slots := c.slots.insert server s }

def maybeHalfOpen (s : CircuitSlot) (nowMs : UInt64) : CircuitSlot :=
  if s.st = .opened ∧ s.openUntilMs ≤ nowMs then { s with st := .halfOpen, halfOk := 0 } else s

/-- A query, which may turn OPEN into HALF_OPEN. -/
def state (c : CountCircuit) (server : String) (now : UInt64) : CountCircuit × CState :=
  let s := maybeHalfOpen (c.slot server) now
  (c.put server s, s.st)

def isOpen (c : CountCircuit) (server : String) (now : UInt64) : CountCircuit × Bool :=
  let (c, st) := c.state server now
  (c, decide (st = .opened))

def onSuccess (c : CountCircuit) (server : String) : CountCircuit :=
  let s := c.slot server
  -- a success closes an open slot at once, whatever its cooldown
  let s :=
    if s.st = .halfOpen then
      let s := { s with halfOk := s.halfOk + 1 }
      if c.halfOpenProbes ≤ s.halfOk then { s with st := .closed, fails := 0 } else s
    else { s with fails := 0, st := .closed }
  c.put server s

/-- A failure; the result says whether it opened the circuit. -/
def onFailure (c : CountCircuit) (server : String) (now : UInt64) : CountCircuit × Bool :=
  let s := maybeHalfOpen (c.slot server) now
  if s.st = .halfOpen then
    (c.put server { s with st := .opened, openUntilMs := now + c.cooldownMs, fails := 0 }, true)
  else
    -- an open slot counts failures too, but its cooldown is not prolonged
    let s := { s with fails := s.fails + 1 }
    if c.openAfter ≤ s.fails ∧ s.st ≠ .opened then
      (c.put server { s with st := .opened, openUntilMs := now + c.cooldownMs }, true)
    else (c.put server s, false)

def onProbeSuccess (c : CountCircuit) (server : String) : CountCircuit :=
  let s := c.slot server
  let s :=
    if s.st = .halfOpen then
      let s := { s with halfOk := s.halfOk + 1 }
      if c.halfOpenProbes ≤ s.halfOk then { s with st := .closed, fails := 0, halfOk := 0 } else s
    -- a probe does not close an open slot
    else if s.st = .closed then { s with fails := 0 }
    else s
  c.put server s

/-! ## The state of a server -/

variable {c : CountCircuit} {server other : String} {now : UInt64}

theorem slot_put (c : CountCircuit) (server other : String) (s : CircuitSlot) :
    (c.put server s).slot other =
      if other = server then s else c.slot other :=
  UnorderedMap.getD_insert ..

/-- The state of a server without looking at the clock. -/
def st (c : CountCircuit) (server : String) : CState := (c.slot server).st

theorem slot_isOpen (c : CountCircuit) (server other : String) (now : UInt64) :
    (c.isOpen server now).1.slot other =
      if other = server then maybeHalfOpen (c.slot server) now else c.slot other :=
  slot_put ..

theorem isOpen_snd (c : CountCircuit) (server : String) (now : UInt64) :
    (c.isOpen server now).2 = decide ((maybeHalfOpen (c.slot server) now).st = .opened) := rfl

theorem maybeHalfOpen_of_ne {s : CircuitSlot} (shut : s.st ≠ .opened) :
    maybeHalfOpen s now = s := by
  rw [maybeHalfOpen, if_neg fun both => shut both.1]

/-- A server that is not open now is not open at any other time. -/
theorem isOpen_of_ne (shut : c.st server ≠ .opened) (now : UInt64) :
    (c.isOpen server now).2 = false := by
  rw [isOpen_snd, maybeHalfOpen_of_ne shut]
  exact decide_eq_false shut

/-- A query that finds a server not open leaves it not open. -/
theorem st_of_isOpen (shut : (c.isOpen server now).2 = false) :
    (c.isOpen server now).1.st server ≠ .opened := by
  rw [st, slot_isOpen, if_pos rfl]
  rw [isOpen_snd] at shut
  exact of_decide_eq_false shut

/-- The failure at `now` opens the circuit: a trial call fails, or the count is reached. -/
def Trips (c : CountCircuit) (server : String) (now : UInt64) : Prop :=
  (maybeHalfOpen (c.slot server) now).st = .halfOpen ∨
    ((maybeHalfOpen (c.slot server) now).st = .closed ∧
      c.openAfter ≤ (maybeHalfOpen (c.slot server) now).fails + 1)

instance : Decidable (c.Trips server now) := by unfold Trips; infer_instance

/-- A failure opens exactly the circuits that it trips. -/
theorem st_onFailure (c : CountCircuit) (server : String) (now : UInt64) :
    (c.onFailure server now).1.st server = .opened ↔
      c.Trips server now ∨ (maybeHalfOpen (c.slot server) now).st = .opened := by
  unfold onFailure st Trips
  generalize maybeHalfOpen (c.slot server) now = s
  by_cases trial : s.st = .halfOpen
  · simp [trial, slot_put]
  · rw [if_neg trial]
    by_cases counted : c.openAfter ≤ s.fails + 1 ∧ s.st ≠ .opened
    · have closed : s.st = .closed := by
        cases h : s.st with
        | closed => rfl
        | opened => exact absurd h counted.2
        | halfOpen => exact absurd h trial
      simp [closed, counted.1, slot_put]
    · rw [if_neg counted, slot_put, if_pos rfl]
      cases h : s.st with
      | closed => simpa [h] using counted
      | opened => simp
      | halfOpen => exact absurd h trial

theorem openUntilMs_onFailure (trips : c.Trips server now) :
    ((c.onFailure server now).1.slot server).openUntilMs = now + c.cooldownMs := by
  unfold Trips at trips
  unfold onFailure
  revert trips
  generalize maybeHalfOpen (c.slot server) now = s
  rintro (trial | ⟨closed, counted⟩)
  · simp [trial, slot_put]
  · simp [closed, counted, slot_put]

/-- After a failure a circuit that was not open is open as long as the cooldown lasts, if the
failure trips it. -/
theorem isOpen_onFailure (shut : c.st server ≠ .opened) (now later : UInt64) :
    ((c.onFailure server now).1.isOpen server later).2 = true ↔
      c.Trips server now ∧ later < now + c.cooldownMs := by
  have opened := st_onFailure c server now
  rw [maybeHalfOpen_of_ne shut] at opened
  by_cases trips : c.Trips server now
  · have st : ((c.onFailure server now).1.slot server).st = .opened := opened.mpr (.inl trips)
    rw [isOpen_snd, decide_eq_true_eq, maybeHalfOpen, st, openUntilMs_onFailure trips]
    by_cases elapsed : now + c.cooldownMs ≤ later
    · simp [elapsed, UInt64.not_lt.mpr elapsed]
    · simp [elapsed, st, trips, UInt64.not_le.mp elapsed]
  · have still : (c.onFailure server now).1.st server ≠ .opened := fun st =>
      (opened.mp st).elim trips shut
    simp [isOpen_of_ne still, trips]

/-- After a success a circuit is not open. -/
theorem st_onSuccess (c : CountCircuit) (server : String) :
    (c.onSuccess server).st server ≠ .opened := by
  rw [st, onSuccess, slot_put, if_pos rfl]
  split
  · next trial =>
    dsimp only
    split
    · simp
    · simp [trial]
  · simp

end CountCircuit

end Perfacet
