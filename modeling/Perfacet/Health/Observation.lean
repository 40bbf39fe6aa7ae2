import Mathlib.Data.List.Pairwise
import Perfacet.Health.Trips
import Perfacet.Lib.Mealy

/-!
# Looking at a circuit

OPEN turns into HALF_OPEN when somebody looks, not when the cooldown is over. Queries and failures
look at the clock, but successes and probes do not. So whether a success finds the circuit open
or half-open depends on whether somebody has asked in between.

The circuit is compared with an automaton that looks at the clock before every event, so that it
is half-open as soon as the cooldown is over.

## Main definitions

* `CountCircuit.lazily`, `CountCircuit.eagerly` — the circuit, and the automaton
* `Unobservable` — queries may be inserted and deleted, and all other results stay the same
* `Unskewed` — no success comes between the end of a cooldown and the next failure, unless it
  does not matter whether it finds the circuit open or half-open

## Main results

* `CountCircuit.Agree.next` — what the circuit and the automaton have in common
* `observation_neutral_iff` — when looking makes no difference
-/

namespace Perfacet

/-- A function of the circuit. -/
inductive CircuitCall
  | onSuccess | onFailure | onProbeSuccess | state | isOpen
  deriving DecidableEq, Repr

/-- A call at some time. -/
structure CircuitEvent where
  server : String
  call : CircuitCall
  time : UInt64
  deriving DecidableEq, Repr

/-- What a call returns. -/
inductive CircuitResult
  | void
  | bool (value : Bool)
  | state (st : CState)
  deriving DecidableEq, Repr

namespace CircuitEvent

def isQuery (e : CircuitEvent) : Bool :=
  match e.call with
  | .state | .isOpen => true
  | .onSuccess | .onFailure | .onProbeSuccess => false

def op (e : CircuitEvent) : CircuitOp :=
  match e.call with
  | .onSuccess => .success e.server
  | .onFailure => .failure e.server e.time
  | .onProbeSuccess => .probeSuccess e.server
  | .state | .isOpen => .query e.server e.time

/-- The query that looks at the server of an event right before it. -/
def look (e : CircuitEvent) : CircuitEvent := { e with call := .state }

theorem server_op (e : CircuitEvent) : e.op.server = e.server := by
  obtain ⟨server, call, time⟩ := e
  cases call <;> rfl

theorem isQuery_of_op {e : CircuitEvent} {name : String} {now : UInt64}
    (query : e.op = .query name now) : e.isQuery = true := by
  obtain ⟨server, call, time⟩ := e
  cases call with
  | state | isOpen => rfl
  | _ => cases query

theorem op_of_isQuery {e : CircuitEvent} (query : e.isQuery = true) :
    e.op = .query e.server e.time := by
  obtain ⟨server, call, time⟩ := e
  cases call with
  | state | isOpen => rfl
  | _ => cases query

end CircuitEvent

/-- Times never decrease. -/
def Chronological (es : List CircuitEvent) : Prop := es.Pairwise fun e e' => e.time ≤ e'.time

/-- The events that are not queries. -/
def calls (es : List CircuitEvent) : List CircuitEvent := es.filter fun e => !e.isQuery

namespace CountCircuit

def perform (c : CountCircuit) (e : CircuitEvent) : CountCircuit × CircuitResult :=
  match e.call with
  | .onSuccess => (c.onSuccess e.server, .void)
  | .onFailure =>
    let (c, trips) := c.onFailure e.server e.time
    (c, .bool trips)
  | .onProbeSuccess => (c.onProbeSuccess e.server, .void)
  | .state =>
    let (c, st) := c.state e.server e.time
    (c, .state st)
  | .isOpen =>
    let (c, isOpen) := c.isOpen e.server e.time
    (c, .bool isOpen)

/-- The circuit as it is. -/
def lazily : Mealy CountCircuit CircuitEvent CircuitResult where
  step := perform

/-- An automaton that is half-open as soon as the cooldown is over: it looks at the clock before
every event. -/
def eagerly : Mealy CountCircuit CircuitEvent CircuitResult where
  step c e := (c.state e.server e.time).1.perform e

/-- The limits that the circuit was made with. -/
def limits (c : CountCircuit) : ℤ × UInt64 × ℤ := (c.openAfter, c.cooldownMs, c.halfOpenProbes)

variable {c c' : CountCircuit} {e : CircuitEvent} {server : String} {t t' : UInt64}
  {s s' l : CircuitSlot}

theorem perform_fst (c : CountCircuit) (e : CircuitEvent) : (c.perform e).1 = c.apply e.op := by
  obtain ⟨server, call, time⟩ := e
  cases call <;> rfl

theorem limits_perform (c : CountCircuit) (e : CircuitEvent) :
    (c.perform e).1.limits = c.limits := by
  rw [perform_fst, apply_eq_put]
  rfl

theorem slot_perform (c : CountCircuit) (e : CircuitEvent) (server : String) :
    (c.perform e).1.slot server =
      if server = e.server then (c.slot e.server).next c e.op else c.slot server := by
  rw [perform_fst, apply_eq_put, slot_put, e.server_op]

theorem slot_state (c : CountCircuit) (server other : String) (now : UInt64) :
    (c.state server now).1.slot other =
      if other = server then maybeHalfOpen (c.slot server) now else c.slot other :=
  slot_put ..

/-- An event is answered out of the slot of its server: what counts are its state and, while it is
closed, its count of failures. -/
theorem perform_snd (limits : c.limits = c'.limits)
    (st : (maybeHalfOpen (c.slot e.server) e.time).st =
      (maybeHalfOpen (c'.slot e.server) e.time).st)
    (fails : (maybeHalfOpen (c.slot e.server) e.time).st = .closed →
      (maybeHalfOpen (c.slot e.server) e.time).fails =
        (maybeHalfOpen (c'.slot e.server) e.time).fails) :
    (c.perform e).2 = (c'.perform e).2 := by
  obtain ⟨server, call, time⟩ := e
  cases call with
  | onSuccess => rfl
  | onProbeSuccess => rfl
  | state => exact congrArg CircuitResult.state st
  | isOpen => exact congrArg (fun st => CircuitResult.bool (decide (st = .opened))) st
  | onFailure =>
    have trips : c.Trips server time ↔ c'.Trips server time := by
      rw [Trips, Trips, ← st, (Prod.mk.inj limits).1]
      exact or_congr_right (and_congr_right fun closed => by rw [fails closed])
    have result : (c.onFailure server time).2 = (c'.onFailure server time).2 := by
      rw [Bool.eq_iff_iff, onFailure_snd, onFailure_snd, trips]
    exact congrArg CircuitResult.bool result

/-- Looking twice is looking once, at the later time. -/
theorem maybeHalfOpen_maybeHalfOpen (later : t ≤ t') (s : CircuitSlot) :
    maybeHalfOpen (maybeHalfOpen s t) t' = maybeHalfOpen s t' := by
  by_cases elapsed : s.st = .opened ∧ s.openUntilMs ≤ t
  · have elapsed' : s.st = .opened ∧ s.openUntilMs ≤ t' :=
      ⟨elapsed.1, UInt64.le_trans elapsed.2 later⟩
    rw [maybeHalfOpen, maybeHalfOpen, maybeHalfOpen, if_pos elapsed, if_pos elapsed']
    rfl
  · rw [maybeHalfOpen.eq_1 s t, if_neg elapsed]

theorem look_state (c : CountCircuit) (server : String) (t : UInt64) :
    maybeHalfOpen ((c.state server t).1.slot server) t = maybeHalfOpen (c.slot server) t := by
  rw [slot_state, if_pos rfl, maybeHalfOpen_maybeHalfOpen (UInt64.le_refl t)]

/-! ## The circuit and the automaton -/

/-- Two slots that stand in the same state. Of a counter that is read in that state the first one
may be behind. -/
structure Alike (l s : CircuitSlot) : Prop where
  st : l.st = s.st
  fails : l.st = .closed → l.fails = s.fails
  openUntilMs : l.st = .opened → l.openUntilMs = s.openUntilMs
  halfOk : l.st = .halfOpen → 0 ≤ l.halfOk ∧ l.halfOk ≤ s.halfOk

/-- Two slots that stand in the same state to whoever looks at a time or later. -/
def Agree (t : UInt64) (l s : CircuitSlot) : Prop := Alike (maybeHalfOpen l t) (maybeHalfOpen s t)

/-- It matters to the event whether the circuit is open or half-open, and the cooldown is over.
A success that is not the last one that is missing would close an open circuit, and a probe that
is the last one would not. -/
def Skews (c : CountCircuit) (e : CircuitEvent) : Prop :=
  let s := maybeHalfOpen (c.slot e.server) e.time
  s.st = .halfOpen ∧
    (e.call = .onSuccess ∧ 1 < c.halfOpenProbes ∨
      e.call = .onProbeSuccess ∧ c.halfOpenProbes ≤ s.halfOk + 1)

theorem Alike.look (h : Alike l s) (t : UInt64) :
    Alike (maybeHalfOpen l t) (maybeHalfOpen s t) := by
  by_cases opened : l.st = .opened
  · rw [maybeHalfOpen, maybeHalfOpen, ← h.st, ← h.openUntilMs opened]
    by_cases elapsed : l.st = .opened ∧ l.openUntilMs ≤ t
    · rw [if_pos elapsed, if_pos elapsed]
      exact ⟨rfl, by simp, by simp, fun _ => ⟨le_rfl, le_rfl⟩⟩
    · rw [if_neg elapsed, if_neg elapsed]
      exact h
  · rw [maybeHalfOpen_of_ne opened, maybeHalfOpen_of_ne (h.st ▸ opened)]
    exact h

theorem Agree.later (h : Agree t l s) (later : t ≤ t') : Agree t' l s := by
  rw [Agree, ← maybeHalfOpen_maybeHalfOpen later l, ← maybeHalfOpen_maybeHalfOpen later s]
  exact Alike.look h t'

theorem Agree.st (h : Agree t l s) : (maybeHalfOpen l t).st = (maybeHalfOpen s t).st :=
  Alike.st h

/-- A failure looks at the clock. -/
theorem next_failure (c : CountCircuit) (s : CircuitSlot) (name : String) (t : UInt64) :
    s.next c (.failure name t) = (maybeHalfOpen s t).next c (.failure name t) := by
  rw [CircuitSlot.next, CircuitSlot.next, maybeHalfOpen_maybeHalfOpen (UInt64.le_refl t)]

theorem Alike.failure (h : Alike l s) (looked : maybeHalfOpen l t = l)
    (looked' : maybeHalfOpen s t = s) (c : CountCircuit) (name : String) :
    Alike (l.next c (.failure name t)) (s.next c (.failure name t)) := by
  rw [CircuitSlot.next, CircuitSlot.next, looked, looked', ← h.st]
  by_cases trial : l.st = .halfOpen
  · rw [if_pos trial, if_pos trial]
    exact ⟨rfl, by simp, fun _ => rfl, by simp⟩
  · rw [if_neg trial, if_neg trial]
    by_cases opened : l.st = .opened
    · have still (n : ℤ) : ¬ (c.openAfter ≤ n ∧ l.st ≠ .opened) := fun both => both.2 opened
      rw [if_neg (still _), if_neg (still _)]
      exact ⟨rfl, by simp [opened], h.openUntilMs, h.halfOk⟩
    · have closed : l.st = .closed := by
        cases st : l.st with
        | closed => rfl
        | opened => exact absurd st opened
        | halfOpen => exact absurd st trial
      rw [← h.fails closed]
      by_cases limit : c.openAfter ≤ l.fails + 1 ∧ l.st ≠ .opened
      · rw [if_pos limit, if_pos limit]
        exact ⟨rfl, by simp, fun _ => rfl, by simp⟩
      · rw [if_neg limit, if_neg limit]
        exact ⟨rfl, fun _ => rfl, h.openUntilMs, h.halfOk⟩

/-- If the clock does not make a slot half-open, it does not change it. -/
theorem maybeHalfOpen_eq_self (steady : (maybeHalfOpen s t).st ≠ .halfOpen) :
    maybeHalfOpen s t = s := by
  rw [maybeHalfOpen] at steady ⊢
  split
  · next elapsed =>
    rw [if_pos elapsed] at steady
    exact absurd rfl steady
  · rfl

/-- A success closes a slot, unless it is half-open and waits for more of them. -/
theorem next_success (name : String) (last : s.st = .halfOpen → c.halfOpenProbes ≤ s.halfOk + 1) :
    (s.next c (.success name)).st = .closed ∧ (s.next c (.success name)).fails = 0 := by
  rw [CircuitSlot.next]
  by_cases trial : s.st = .halfOpen
  · rw [if_pos trial, if_pos (last trial)]
    exact ⟨rfl, rfl⟩
  · rw [if_neg trial]
    exact ⟨rfl, rfl⟩

/-- A slot that the clock makes half-open. -/
theorem elapsed_of_look (trial : (maybeHalfOpen s t).st = .halfOpen) (stored : s.st ≠ .halfOpen) :
    s.st = .opened ∧ s.openUntilMs ≤ t := by
  by_contra early
  rw [maybeHalfOpen, if_neg early] at trial
  exact stored trial

/-- After a success at which it does not matter whether they are open or half-open, the slots of
the circuit and of the automaton are closed. -/
theorem Agree.success (h : Agree t l s) (name : String)
    (steady : (maybeHalfOpen s t).st = .halfOpen → c.halfOpenProbes ≤ 1) :
    Alike (l.next c (.success name)) ((maybeHalfOpen s t).next c (.success name)) := by
  -- one success is enough for either of them
  obtain ⟨closed, none⟩ := next_success (c := c) (s := l) name fun trial => by
    have looked : maybeHalfOpen l t = l := maybeHalfOpen_of_ne (by simp [trial])
    rw [Agree, looked] at h
    have few := steady (h.st.symm.trans trial)
    have counted := (h.halfOk trial).1
    omega
  obtain ⟨closed', none'⟩ := next_success (c := c) (s := maybeHalfOpen s t) name fun trial => by
    have few := steady trial
    have counted := h.halfOk (h.st.trans trial)
    omega
  exact ⟨closed.trans closed'.symm, fun _ => none.trans none'.symm, by simp [closed],
    by simp [closed]⟩

/-- After a probe at which it does not matter whether they are open or half-open, the slots agree
again; if the circuit has not looked at the clock, the automaton is ahead. -/
theorem Agree.probeSuccess (h : Agree t l s) (name : String)
    (steady : (maybeHalfOpen s t).st = .halfOpen →
      (maybeHalfOpen s t).halfOk + 1 < c.halfOpenProbes) :
    Agree t (l.next c (.probeSuccess name))
      ((maybeHalfOpen s t).next c (.probeSuccess name)) := by
  have st := h.st
  generalize looked' : maybeHalfOpen s t = s' at *
  rw [Agree, looked'] at h
  by_cases trial : s'.st = .halfOpen
  · have missing := steady trial
    have right : s'.next c (.probeSuccess name) = { s' with halfOk := s'.halfOk + 1 } := by
      rw [CircuitSlot.next, if_pos trial, if_neg (by omega)]
    have counted := h.halfOk (st.trans trial)
    rw [right, Agree, maybeHalfOpen_of_ne (s := { s' with halfOk := s'.halfOk + 1 })
      (by simp [trial])]
    by_cases stored : l.st = .halfOpen
    · -- somebody has looked: both count the probe
      have looked : maybeHalfOpen l t = l := maybeHalfOpen_of_ne (by simp [stored])
      rw [looked] at counted
      have left : l.next c (.probeSuccess name) = { l with halfOk := l.halfOk + 1 } := by
        rw [CircuitSlot.next, if_pos stored, if_neg (by omega)]
      rw [left, maybeHalfOpen_of_ne (by simp [stored])]
      refine ⟨stored.trans trial.symm, by simp [stored], by simp [stored], fun _ => ?_⟩
      dsimp only
      omega
    · -- nobody has looked: the circuit is still open, and starts counting when somebody looks
      have elapsed := elapsed_of_look (st.trans trial) stored
      have left : l.next c (.probeSuccess name) = l := by
        rw [CircuitSlot.next, if_neg stored, if_neg (by simp [elapsed.1])]
      rw [left, maybeHalfOpen, if_pos elapsed]
      refine ⟨trial.symm, by simp, by simp, fun _ => ?_⟩
      dsimp only
      omega
  · have looked : maybeHalfOpen l t = l := maybeHalfOpen_eq_self (st ▸ trial)
    rw [looked] at h st
    refine Alike.look ?_ t
    rw [CircuitSlot.next, CircuitSlot.next, if_neg trial, if_neg (st ▸ trial), ← st]
    by_cases closed : l.st = .closed
    · rw [if_pos closed, if_pos closed]
      exact ⟨rfl, fun _ => rfl, h.openUntilMs, h.halfOk⟩
    · rw [if_neg closed, if_neg closed]
      exact h

theorem next_limits (limits : c.limits = c'.limits) (s : CircuitSlot) (op : CircuitOp) :
    s.next c op = s.next c' op := by
  obtain ⟨openAfter, rest⟩ := Prod.mk.inj limits
  obtain ⟨cooldown, probes⟩ := Prod.mk.inj rest
  cases op <;> simp only [CircuitSlot.next, openAfter, cooldown, probes]

theorem eagerly_step (c : CountCircuit) (e : CircuitEvent) (server : String) :
    (eagerly.step c e).1.slot server =
      if server = e.server then (maybeHalfOpen (c.slot e.server) e.time).next c e.op
      else c.slot server := by
  change ((c.state e.server e.time).1.perform e).1.slot server = _
  rw [slot_perform, slot_state, if_pos rfl, slot_state]
  split
  · rfl
  · rfl

theorem limits_eagerly (c : CountCircuit) (e : CircuitEvent) :
    (eagerly.step c e).1.limits = c.limits := limits_perform _ e

/-- What the circuit and the automaton have in common is kept by every event at which it does not
matter whether they are open or half-open. -/
theorem Agree.next (h : Agree e.time (c.slot e.server) (c'.slot e.server))
    (limits : c.limits = c'.limits) (fine : ¬ c'.Skews e) :
    Agree e.time ((c.perform e).1.slot e.server) ((eagerly.step c' e).1.slot e.server) := by
  rw [slot_perform, if_pos rfl, eagerly_step, if_pos rfl, next_limits limits]
  obtain ⟨server, call, time⟩ := e
  dsimp only at h ⊢
  have looked (s : CircuitSlot) :
      maybeHalfOpen (maybeHalfOpen s time) time = maybeHalfOpen s time :=
    maybeHalfOpen_maybeHalfOpen (UInt64.le_refl time) s
  cases call with
  | onSuccess =>
    refine Alike.look (h.success server fun trial => ?_) time
    by_contra many
    exact fine ⟨trial, .inl ⟨rfl, not_le.mp many⟩⟩
  | onProbeSuccess =>
    refine h.probeSuccess server fun trial => ?_
    by_contra last
    exact fine ⟨trial, .inr ⟨rfl, not_lt.mp last⟩⟩
  | onFailure =>
    refine Alike.look ?_ time
    change Alike ((c.slot server).next c' (.failure server time)) _
    rw [next_failure]
    exact Alike.failure h (looked _) (looked _) c' server
  -- a query only looks at the clock
  | state | isOpen =>
    change Alike (maybeHalfOpen (maybeHalfOpen _ time) time)
      (maybeHalfOpen (maybeHalfOpen (maybeHalfOpen _ time) time) time)
    rw [looked, looked, looked]
    exact h

/-- The circuit and the automaton answer alike. -/
theorem Agree.result (h : Agree e.time (c.slot e.server) (c'.slot e.server))
    (limits : c.limits = c'.limits) : (c.perform e).2 = (eagerly.step c' e).2 := by
  refine @perform_snd c (c'.state e.server e.time).1 e limits ?_ ?_
  · rw [look_state]
    exact Alike.st h
  · rw [look_state]
    exact Alike.fails h

/-- A success of which more are needed tells whether somebody has looked before it. -/
theorem success_tells (opened : s.st = .opened) (elapsed : s.openUntilMs ≤ t)
    (many : 1 < c.halfOpenProbes) (name : String) :
    (maybeHalfOpen ((maybeHalfOpen s t).next c (.success name)) t).st ≠
      (maybeHalfOpen (s.next c (.success name)) t).st := by
  obtain ⟨closed, -⟩ := next_success (c := c) (s := s) name fun trial =>
    absurd (opened.symm.trans trial) (by simp)
  -- with a look before it, the success is only the first of several
  have counted : ((maybeHalfOpen s t).next c (.success name)).st = .halfOpen := by
    rw [maybeHalfOpen, if_pos ⟨opened, elapsed⟩, CircuitSlot.next, if_pos rfl, if_neg]
    exact not_le.mpr many
  rw [(CircuitSlot.st_maybeHalfOpen t).mpr closed, maybeHalfOpen_of_ne (by simp [counted]), counted]
  simp

/-- The last probe that is needed tells whether somebody has looked before it. -/
theorem probe_tells (opened : l.st = .opened) (half : (maybeHalfOpen l t).st = .halfOpen)
    (trial : (maybeHalfOpen s t).st = .halfOpen)
    (last : c'.halfOpenProbes ≤ (maybeHalfOpen s t).halfOk + 1) (name : String) :
    (maybeHalfOpen ((maybeHalfOpen s t).next c' (.probeSuccess name)) t).st ≠
      (maybeHalfOpen (l.next c (.probeSuccess name)) t).st := by
  -- with a look before it, the probe is the last one; without, it is not counted
  have closed : ((maybeHalfOpen s t).next c' (.probeSuccess name)).st = .closed := by
    rw [CircuitSlot.next, if_pos trial, if_pos last]
  have still : l.next c (.probeSuccess name) = l := by
    rw [CircuitSlot.next, if_neg (by simp [opened]), if_neg (by simp [opened])]
  rw [still, half, (CircuitSlot.st_maybeHalfOpen t).mpr closed]
  simp

/-! ## Sequences of events -/

/-- The times at which somebody looks: those of the events, and the end. -/
def looks (es : List CircuitEvent) (last : UInt64) : List UInt64 :=
  es.map CircuitEvent.time ++ [last]

/-- At no event of a sequence does it matter whether the circuit is open or half-open. -/
def Unskewed (c : CountCircuit) (es : List CircuitEvent) : Prop :=
  eagerly.Always (fun c e => ¬ c.Skews e) c es

/-- The circuit and the automaton agree about every server, as far as events to come will tell. -/
structure InStep (last : UInt64) (es : List CircuitEvent) (c c' : CountCircuit) : Prop where
  limits : c.limits = c'.limits
  sorted : (looks es last).Pairwise (· ≤ ·)
  unskewed : c'.Unskewed es
  agree : ∀ t ∈ looks es last, ∀ server, Agree t (c.slot server) (c'.slot server)

theorem lockstep (last : UInt64) : lazily.Lockstep eagerly (InStep last) where
  output e es c c' h := (h.agree e.time (by simp [looks]) e.server).result h.limits
  next e es c c' h := by
    obtain ⟨fine, rest⟩ := Mealy.always_cons.mp h.unskewed
    obtain ⟨first, sorted⟩ := List.pairwise_cons.mp h.sorted
    refine ⟨(limits_perform c e).trans (h.limits.trans (limits_eagerly c' e).symm), sorted, rest,
      fun t member server => ?_⟩
    have here := h.agree e.time (by simp [looks])
    by_cases own : server = e.server
    · subst own
      exact ((here e.server).next h.limits fine).later (first t member)
    · have left := slot_perform c e server
      have right := eagerly_step c' e server
      rw [if_neg own] at left right
      change Agree t ((c.perform e).1.slot server) _
      rw [left, right]
      exact h.agree t (List.mem_cons_of_mem _ member) server

/-- Nothing that is looked at later tells two states of the automaton apart. -/
structure Same (es : List CircuitEvent) (c c' : CountCircuit) : Prop where
  limits : c.limits = c'.limits
  sorted : Chronological es
  same : ∀ e ∈ es, ∀ server,
    maybeHalfOpen (c.slot server) e.time = maybeHalfOpen (c'.slot server) e.time

/-- Queries make no difference to the automaton. -/
theorem hides : eagerly.Hides eagerly fun m c c' =>
    Same (Mealy.all m) c c' ∧ ∀ x ∈ m, x.2 = true → x.1.isQuery = true where
  output := by
    rintro e m c c' ⟨h, -⟩
    have same := h.same e (by simp) e.server
    refine @perform_snd (c.state e.server e.time).1 (c'.state e.server e.time).1 e h.limits ?_
      fun _ => ?_
    · rw [look_state, look_state, same]
    · rw [look_state, look_state, same]
  next := by
    rintro e m c c' ⟨h, queries⟩
    obtain ⟨-, sorted⟩ := List.pairwise_cons.mp h.sorted
    refine ⟨⟨(limits_eagerly c e).trans (h.limits.trans (limits_eagerly c' e).symm), sorted,
      fun e' member server => ?_⟩, fun x member => queries x (List.mem_cons_of_mem _ member)⟩
    rw [eagerly_step, eagerly_step]
    by_cases own : server = e.server
    · rw [if_pos own, if_pos own, h.same e (by simp) e.server, next_limits h.limits]
    · rw [if_neg own, if_neg own]
      exact h.same e' (List.mem_cons_of_mem _ member) server
  hidden := by
    rintro e m c c' ⟨h, queries⟩
    obtain ⟨first, sorted⟩ := List.pairwise_cons.mp h.sorted
    refine ⟨⟨(limits_eagerly c e).trans h.limits, sorted, fun e' member server => ?_⟩,
      fun x member => queries x (List.mem_cons_of_mem _ member)⟩
    rw [eagerly_step, ← h.same e' (List.mem_cons_of_mem _ member) server]
    by_cases own : server = e.server
    · -- the query has looked at the clock, which is looked at again later
      have later := first e' member
      have query : e.op = .query e.server e.time := 
        CircuitEvent.op_of_isQuery (queries (e, true) List.mem_cons_self rfl)
      rw [if_pos own, own, query]
      change maybeHalfOpen (maybeHalfOpen (maybeHalfOpen _ e.time) e.time) e'.time = _
      rw [maybeHalfOpen_maybeHalfOpen (UInt64.le_refl e.time), maybeHalfOpen_maybeHalfOpen later]
    · rw [if_neg own]

variable {es earlier later : List CircuitEvent}

/-- The sequence in which all queries are hidden. -/
def unobserved (es : List CircuitEvent) : List (CircuitEvent × Bool) :=
  es.map fun e => (e, e.isQuery)

theorem all_unobserved (es : List CircuitEvent) : Mealy.all (unobserved es) = es := by
  rw [Mealy.all, unobserved, List.map_map]
  exact List.map_id es

theorem kept_unobserved (es : List CircuitEvent) : Mealy.kept (unobserved es) = calls es := by
  rw [Mealy.kept, unobserved, List.filter_map, List.map_map]
  exact List.map_id (calls es)

/-- Whether it matters to the automaton if it is open or half-open does not depend on queries. -/
theorem unskewed_calls (chrono : Chronological es) : c.Unskewed es ↔ c.Unskewed (calls es) := by
  have related : Same (Mealy.all (unobserved es)) c c ∧
      ∀ x ∈ unobserved es, x.2 = true → x.1.isQuery = true := by
    refine ⟨⟨rfl, ?_, fun _ _ _ => rfl⟩, fun x member hidden => ?_⟩
    · rw [all_unobserved]
      exact chrono
    · obtain ⟨e, -, rfl⟩ := List.mem_map.mp member
      exact hidden
  have always := hides.always (p := fun c e => ¬ c.Skews e) (q := fun c e => ¬ c.Skews e)
    (m := unobserved es) ?_ ?_ related
  · rw [all_unobserved, kept_unobserved] at always
    exact always
  · rintro e m c c' ⟨-, queries⟩ ⟨-, skews⟩
    have query := queries _ (List.mem_cons_self) rfl
    rcases skews with ⟨call, -⟩ | ⟨call, -⟩ <;> simp [CircuitEvent.isQuery, call] at query
  · rintro e m c c' ⟨h, -⟩
    have probes : c.halfOpenProbes = c'.halfOpenProbes := (Prod.mk.inj (Prod.mk.inj h.limits).2).2
    rw [Skews, Skews, h.same e (by simp) e.server, probes]

/-! ## A circuit from its start -/

variable {openAfter halfOpenProbes : ℤ} {cooldownMs : UInt64} {m : List (CircuitEvent × Bool)}

/-- However the events of a sequence that are not queries are observed, it makes no difference if
some of the queries are left out. -/
def Unobservable (c : CountCircuit) (es : List CircuitEvent) : Prop :=
  ∀ m : List (CircuitEvent × Bool), Chronological (Mealy.all m) →
    (∀ x ∈ m, x.2 = true → x.1.isQuery = true) → calls (Mealy.all m) = calls es →
    lazily.visible c m = lazily.outputs c (Mealy.kept m)

/-- However the events of a sequence that are not queries are observed, the circuit answers like the
automaton. -/
def Automatic (c : CountCircuit) (es : List CircuitEvent) : Prop :=
  ∀ es', Chronological es' → calls es' = calls es →
    lazily.outputs c es' = eagerly.outputs c es'

/-- At the start, the circuit and the automaton agree. -/
theorem inStep_make {last : UInt64} (chrono : Chronological es) (bound : ∀ e ∈ es, e.time ≤ last)
    (unskewed : (make openAfter cooldownMs halfOpenProbes).Unskewed es) :
    InStep last es (make openAfter cooldownMs halfOpenProbes)
      (make openAfter cooldownMs halfOpenProbes) where
  limits := rfl
  sorted := by
    rw [looks, List.pairwise_append, List.pairwise_map]
    refine ⟨chrono, List.pairwise_singleton .., fun t member t' last' => ?_⟩
    obtain ⟨e, inside, rfl⟩ := List.mem_map.mp member
    exact List.mem_singleton.mp last' ▸ bound e inside
  unskewed := unskewed
  agree t _ server := by
    rw [slot_make]
    exact ⟨rfl, fun _ => rfl, by simp [maybeHalfOpen], by simp [maybeHalfOpen]⟩

theorem Unskewed.automatic (chrono : Chronological es)
    (h : (make openAfter cooldownMs halfOpenProbes).Unskewed es) :
    (make openAfter cooldownMs halfOpenProbes).Automatic es := by
  intro es' chrono' same
  refine (lockstep (-1)).outputs (inStep_make chrono' (fun e _ => ?_) ?_)
  · have bound := e.time.toNat_lt
    rw [UInt64.le_iff_toNat_le]
    exact Nat.le_of_lt_succ bound
  · rw [unskewed_calls chrono', same, ← unskewed_calls chrono]
    exact h

/-- Leaving out queries leaves the other events. -/
theorem calls_kept (queries : ∀ x ∈ m, x.2 = true → x.1.isQuery = true) :
    calls (Mealy.kept m) = calls (Mealy.all m) := by
  induction m with
  | nil => rfl
  | cons x m ih =>
    have rest := ih fun x member => queries x (List.mem_cons_of_mem _ member)
    obtain ⟨e, _ | _⟩ := x
    · rw [Mealy.kept_shown, Mealy.all_cons, calls, List.filter_cons, calls, List.filter_cons]
      exact ite_congr rfl (fun _ => congrArg _ rest) fun _ => rest
    · have query := queries (e, true) List.mem_cons_self rfl
      rw [Mealy.kept_hidden, Mealy.all_cons, rest, calls, calls, List.filter_cons_of_neg]
      simpa using query

/-- What is observed of the automaton does not depend on what else is observed. -/
theorem Automatic.unobservable (h : c.Automatic es) : c.Unobservable es := by
  intro m chrono queries same
  have chrono' : Chronological (Mealy.kept m) := chrono.sublist (Mealy.kept_sublist m)
  have same' : calls (Mealy.kept m) = calls es := (calls_kept queries).trans same
  calc lazily.visible c m
    _ = eagerly.visible c m := Mealy.visible_congr (h _ chrono same)
    _ = eagerly.outputs c (Mealy.kept m) :=
      hides.visible ⟨⟨rfl, chrono, fun _ _ _ => rfl⟩, queries⟩
    _ = lazily.outputs c (Mealy.kept m) := (h _ chrono' same').symm

theorem calls_of_none (none : ∀ e ∈ es, e.isQuery = false) : calls es = es :=
  List.filter_eq_self.mpr fun e member => by simp [none e member]

theorem isQuery_of_mem_calls (member : e ∈ calls es) : e.isQuery = false := by
  simpa using (List.mem_filter.mp member).2

/-- The sequence in which nothing is hidden. -/
def shown (es : List CircuitEvent) : List (CircuitEvent × Bool) := es.map fun e => (e, false)

theorem all_shown (es : List CircuitEvent) : Mealy.all (shown es) = es := by
  rw [Mealy.all, shown, List.map_map]
  exact List.map_id es

theorem kept_shown (es : List CircuitEvent) : Mealy.kept (shown es) = es := by
  rw [Mealy.kept, shown, List.filter_map, List.map_map]
  exact (List.map_id _).trans (List.filter_eq_self.mpr fun _ _ => rfl)

/-- If queries make no difference, then the state of a server after some events does not depend on
which queries came in between. -/
theorem Unobservable.st (h : c.Unobservable es) (chrono : Chronological (Mealy.all m))
    (bound : ∀ x ∈ Mealy.all m, x.time ≤ e.time)
    (queries : ∀ x ∈ m, x.2 = true → x.1.isQuery = true)
    (split : calls es = calls (Mealy.all m) ++ later) (ordered : Chronological (e :: later)) :
    (maybeHalfOpen ((lazily.after c (Mealy.all m)).slot e.server) e.time).st =
      (maybeHalfOpen ((lazily.after c (Mealy.kept m)).slot e.server) e.time).st := by
  obtain ⟨first, sorted⟩ := List.pairwise_cons.mp ordered
  -- a query tells the state, and then all goes on
  let rest : List (CircuitEvent × Bool) := shown (e.look :: later)
  have all : Mealy.all (m ++ rest) = Mealy.all m ++ e.look :: later := by
    rw [Mealy.all, List.map_append]
    exact congrArg _ (all_shown _)
  have others : ∀ e ∈ later, e.isQuery = false := fun e member =>
    isQuery_of_mem_calls (split ▸ List.mem_append_right _ member)
  have visible := h (m ++ rest) ?_ ?_ ?_
  · have same := Mealy.of_visible_append visible
    exact CircuitResult.state.inj (List.cons.inj same).1
  · rw [all, Chronological, List.pairwise_append, List.pairwise_cons]
    refine ⟨chrono, ⟨first, sorted⟩, fun x before y after => ?_⟩
    rcases List.mem_cons.mp after with rfl | after
    · exact bound x before
    · exact UInt64.le_trans (bound x before) (first y after)
  · intro x member hidden
    rcases List.mem_append.mp member with member | member
    · exact queries x member hidden
    · obtain ⟨e, -, rfl⟩ := List.mem_map.mp member
      cases hidden
  · rw [all, calls, List.filter_append, split, List.filter_cons_of_neg (by simp; rfl)]
    exact congrArg _ (calls_of_none others)

/-- The sequence in which somebody has looked before every event. -/
def watched (es : List CircuitEvent) : List (CircuitEvent × Bool) :=
  es.flatMap fun e => [(e.look, true), (e, false)]

theorem all_watched_cons : Mealy.all (watched (e :: es)) = e.look :: e :: Mealy.all (watched es) :=
  rfl

theorem kept_watched (es : List CircuitEvent) : Mealy.kept (watched es) = es := by
  induction es with
  | nil => rfl
  | cons e es ih => exact congrArg (List.cons e) ih

theorem after_watched (c : CountCircuit) (es : List CircuitEvent) :
    lazily.after c (Mealy.all (watched es)) = eagerly.after c es := by
  induction es generalizing c with
  | nil => rfl
  | cons e es ih => exact ih _

theorem time_of_mem_watched (member : e ∈ Mealy.all (watched es)) : ∃ x ∈ es, e.time = x.time := by
  induction es with
  | nil => cases member
  | cons x es ih =>
    rw [all_watched_cons] at member
    rcases List.mem_cons.mp member with rfl | member
    · exact ⟨x, List.mem_cons_self, rfl⟩
    · rcases List.mem_cons.mp member with rfl | member
      · exact ⟨e, List.mem_cons_self, rfl⟩
      · obtain ⟨y, inside, same⟩ := ih member
        exact ⟨y, List.mem_cons_of_mem _ inside, same⟩

theorem chronological_watched (chrono : Chronological es) :
    Chronological (Mealy.all (watched es)) := by
  induction es with
  | nil => exact .nil
  | cons e es ih =>
    obtain ⟨first, sorted⟩ := List.pairwise_cons.mp chrono
    have before : ∀ x ∈ Mealy.all (watched es), e.time ≤ x.time := by
      intro x member
      obtain ⟨y, inside, same⟩ := time_of_mem_watched member
      exact same ▸ first y inside
    rw [all_watched_cons, Chronological, List.pairwise_cons, List.pairwise_cons]
    refine ⟨fun x member => ?_, before, ih sorted⟩
    rcases List.mem_cons.mp member with rfl | member
    · exact UInt64.le_refl _
    · exact before x member

/-- If queries make no difference, it makes none if somebody looks before each of the last events
of an initial part. -/
theorem Unobservable.look (h : c.Unobservable es) (chrono : Chronological es)
    {first last : List CircuitEvent} (split : calls es = first ++ last ++ later)
    (bound : ∀ x ∈ first ++ last, x.time ≤ e.time) (ordered : Chronological (e :: later)) :
    (maybeHalfOpen ((eagerly.after (lazily.after c first) last).slot e.server) e.time).st =
      (maybeHalfOpen ((lazily.after c (first ++ last)).slot e.server) e.time).st := by
  have all : Mealy.all (shown first ++ watched last) = first ++ Mealy.all (watched last) := by
    rw [Mealy.all, List.map_append]
    exact congrArg (· ++ _) (all_shown first)
  have kept : Mealy.kept (shown first ++ watched last) = first ++ last := by
    rw [Mealy.kept_append, kept_shown, kept_watched]
  have queries : ∀ x ∈ shown first ++ watched last, x.2 = true → x.1.isQuery = true := by
    intro x member hidden
    rcases List.mem_append.mp member with member | member
    · obtain ⟨y, -, rfl⟩ := List.mem_map.mp member
      cases hidden
    · obtain ⟨y, -, member⟩ := List.mem_flatMap.mp member
      rcases List.mem_cons.mp member with rfl | member
      · rfl
      · rw [List.mem_singleton.mp member] at hidden
        cases hidden
  have sorted : Chronological (first ++ last) :=
    (split ▸ chrono.sublist List.filter_sublist : Chronological (_ ++ later)).sublist
      (List.sublist_append_left _ _)
  obtain ⟨sortedFirst, sortedLast, between⟩ := List.pairwise_append.mp sorted
  have none : ∀ x ∈ first ++ last, x.isQuery = false := fun x member =>
    isQuery_of_mem_calls (split ▸ List.mem_append_left _ member)
  have st := h.st (m := shown first ++ watched last) (e := e) ?_ ?_ queries ?_ ordered
  · rw [kept, all, Mealy.after_append, after_watched] at st
    exact st
  · rw [all, Chronological, List.pairwise_append]
    refine ⟨sortedFirst, chronological_watched sortedLast, fun x before y after => ?_⟩
    obtain ⟨z, inside, same⟩ := time_of_mem_watched after
    exact same ▸ between x before z inside
  · intro x member
    rw [all] at member
    rcases List.mem_append.mp member with member | member
    · exact bound x (List.mem_append_left _ member)
    · obtain ⟨z, inside, same⟩ := time_of_mem_watched member
      exact same ▸ bound z (List.mem_append_right _ inside)
  · rw [split, ← calls_kept queries, kept, calls_of_none none]

/-- Only a query makes a server half-open. -/
theorem not_trial_after (none : ∀ e ∈ es, e.isQuery = false) :
    ((lazily.after (make openAfter cooldownMs halfOpenProbes) es).slot server).st ≠ .halfOpen := by
  induction es using List.reverseRecOn with
  | nil =>
    change ((make openAfter cooldownMs halfOpenProbes).slot server).st ≠ .halfOpen
    rw [slot_make]
    simp
  | append_singleton es e ih =>
    have before := ih fun x member => none x (List.mem_append_left _ member)
    rw [Mealy.after_append]
    change (((lazily.after _ es).perform e).1.slot server).st ≠ .halfOpen
    rw [slot_perform]
    split
    · next own =>
      intro trial
      obtain ⟨name, now, query⟩ := CircuitSlot.query_of_trial (own ▸ before) trial
      exact absurd (CircuitEvent.isQuery_of_op query) (by simp [none e])
    · exact before

/-- At the first event at which it matters whether the server is open or half-open, it is open as
long as nobody has looked; and a query after the event tells whether somebody has looked before. -/
theorem Unobservable.unskewed (chrono : Chronological es)
    (h : (make openAfter cooldownMs halfOpenProbes).Unobservable es) :
    (make openAfter cooldownMs halfOpenProbes).Unskewed es := by
  by_contra skewed
  rw [unskewed_calls chrono] at skewed
  obtain ⟨earlier, e, later, split, unskewed, skews⟩ := Mealy.exists_first skewed
  obtain ⟨trial, call⟩ := not_not.mp skews
  have sorted : Chronological (earlier ++ e :: later) := split ▸ chrono.sublist List.filter_sublist
  obtain ⟨sortedEarlier, ordered, between⟩ := List.pairwise_append.mp sorted
  have bound : ∀ x ∈ earlier, x.time ≤ e.time := fun x member =>
    between x member e List.mem_cons_self
  have bound' : ∀ x ∈ earlier ++ [e], x.time ≤ e.time := fun x member =>
    (List.mem_append.mp member).elim (bound x) fun last =>
      List.mem_singleton.mp last ▸ UInt64.le_refl _
  have none : ∀ x ∈ earlier, x.isQuery = false := fun x member =>
    isQuery_of_mem_calls (split ▸ List.mem_append_left _ member)
  -- the circuit that nobody has looked at is open, and its cooldown is over
  have start : InStep e.time (earlier ++ []) (make openAfter cooldownMs halfOpenProbes)
      (make openAfter cooldownMs halfOpenProbes) := by
    rw [List.append_nil]
    exact inStep_make sortedEarlier bound unskewed
  have inStep := (lockstep e.time).after start
  have agree := inStep.agree e.time (by simp [looks]) e.server
  obtain ⟨opened, elapsed⟩ := elapsed_of_look (agree.st.trans trial) (not_trial_after none)
  have probes := (Prod.mk.inj (Prod.mk.inj inStep.limits).2).2
  rcases call with ⟨success, many⟩ | ⟨probe, last⟩
  · -- whoever looks before the success makes the circuit count it
    have op : e.op = .success e.server := by rw [CircuitEvent.op, success]
    have calls : calls es = earlier ++ [e] ++ later := by rw [split, List.append_assoc]; rfl
    have look := h.look chrono calls bound' ordered
    rw [Mealy.after_append] at look
    change (maybeHalfOpen ((eagerly.step (lazily.after _ earlier) e).1.slot e.server) e.time).st =
      (maybeHalfOpen (((lazily.after _ earlier).perform e).1.slot e.server) e.time).st at look
    rw [eagerly_step, if_pos rfl, slot_perform, if_pos rfl, op] at look
    exact success_tells opened elapsed (probes ▸ many) e.server look
  · -- whoever looks before every event makes the circuit count the probes
    have op : e.op = .probeSuccess e.server := by rw [CircuitEvent.op, probe]
    have calls : calls es = [] ++ (earlier ++ [e]) ++ later := by
      rw [split, List.nil_append, List.append_assoc]
      rfl
    have look := h.look chrono calls bound' ordered
    rw [List.nil_append, Mealy.after_append, Mealy.after_append] at look
    change (maybeHalfOpen ((eagerly.step (eagerly.after _ earlier) e).1.slot e.server) e.time).st =
      (maybeHalfOpen (((lazily.after _ earlier).perform e).1.slot e.server) e.time).st at look
    rw [eagerly_step, if_pos rfl, slot_perform, if_pos rfl, op] at look
    exact probe_tells opened (agree.st.trans trial) trial last e.server look

end CountCircuit

open CountCircuit in
/-- Queries make no difference to a sequence of events, and the circuit answers like an automaton
that is half-open as soon as the cooldown is over, if and only if the automaton is never half-open
at a success of a call when more than one is needed, nor at the last probe that is needed. -/
theorem observation_neutral_iff (openAfter : ℤ) (cooldownMs : UInt64) (halfOpenProbes : ℤ)
    {es : List CircuitEvent} (chrono : Chronological es) :
    ((make openAfter cooldownMs halfOpenProbes).Unobservable es ↔
        (make openAfter cooldownMs halfOpenProbes).Unskewed es) ∧
      ((make openAfter cooldownMs halfOpenProbes).Automatic es ↔
        (make openAfter cooldownMs halfOpenProbes).Unskewed es) :=
  ⟨⟨Unobservable.unskewed chrono, fun h => (h.automatic chrono).unobservable⟩,
    ⟨fun h => h.unobservable.unskewed chrono, Unskewed.automatic chrono⟩⟩

namespace ObservationExample

/-- A failure opens the circuit, and when the cooldown is over a query half-opens it. -/
def tripped : List CircuitEvent := [⟨"echo", .onFailure, 0⟩, ⟨"echo", .state, 10⟩]

/-- A probe succeeds when the cooldown is over. -/
def probed : List CircuitEvent := [⟨"echo", .onFailure, 0⟩, ⟨"echo", .onProbeSuccess, 10⟩]

/-- The same, and the state is asked for before and after the probe. -/
def asked : List (CircuitEvent × Bool) :=
  [(⟨"echo", .onFailure, 0⟩, false), (⟨"echo", .state, 10⟩, true),
    (⟨"echo", .onProbeSuccess, 10⟩, false), (⟨"echo", .state, 10⟩, false)]

end ObservationExample

open CountCircuit ObservationExample in
/-- It makes no difference when one looks at a circuit that is left alone. -/
theorem observation_neutral_iff_tripped :
    (make 1 10 1).Unobservable tripped ∧ (make 1 10 1).Automatic tripped := by
  have unskewed : (make 1 10 1).Unskewed tripped := by
    simp [tripped, Unskewed, Mealy.always_cons, Mealy.always_nil, Skews]
  have chrono : Chronological tripped := by simp [Chronological, tripped]
  obtain ⟨unobservable, automatic⟩ := observation_neutral_iff 1 10 1 chrono
  exact ⟨unobservable.mpr unskewed, automatic.mpr unskewed⟩

open CountCircuit ObservationExample in
/-- The query before the probe makes the probe close the circuit. -/
theorem query_observed : Chronological probed ∧ ¬ (make 1 10 1).Unobservable probed := by
  refine ⟨by simp [Chronological, probed], fun h => ?_⟩
  have same := h asked (by simp [Chronological, asked, Mealy.all])
    (by simp [asked, CircuitEvent.isQuery]) rfl
  exact absurd same (by decide)

end Perfacet
