import Mathlib.Computability.StateTransition
import Mathlib.Data.List.Range
import Perfacet.Lib.Transition

/-!
# The acceptor

The kernel queues the clients that have connected, and reports the listening socket once for each
arrival. `acceptConnection` therefore accepts until there is nothing left. When the process is out
of descriptors it gives up a descriptor that it holds in reserve, accepts a client with it and
drops the client.

The client that is dropped is closed at the end of the block, after the reserve has been opened
again, so that its descriptor is not free yet then.

Other threads of the process open and close descriptors at any time. Whether `accept4` looks for a
descriptor before it looks for a client is left to the kernel.

Two things are left out. An error that takes a client out of the queue, as `ECONNABORTED` does for
one that has given up, is modelled as one that leaves the queue alone. And the acceptor has opened
its reserve when it was made; if it has not, it is in the state of one that has lost it.

## Main definitions

* `Acceptor` — the listening socket, the descriptors of the process, and where the loop stands
* `Acceptor.turn` — what the thread of the loop does next
* `Acceptor.machine` — the loop, the clients and the other threads, in any order

## Main results

* `Acceptor.accepts_of_run` — clients are taken in order, and when one may be left waiting
* `Acceptor.eval_turn` — what becomes of the clients if nothing else happens meanwhile
* `Acceptor.idleFd_of_lost`, `Acceptor.Ends.idleFd_of_steps` — a reserve that is lost is not opened
  again
-/

namespace Perfacet

/-- What `accept4` fails with: `EAGAIN`, `EMFILE` or `ENFILE`, or something else. -/
inductive AcceptErrno
  | again | noDescriptor | other
  deriving DecidableEq, Repr

/-- Where the loop stands: outside of `acceptConnection`, about to accept, about to accept a client
that it drops, or about to open the reserve again, with a client that is dropped afterwards. -/
inductive AcceptPlace
  | outside
  | accept
  | discard
  | reopen (drop : Bool)
  deriving DecidableEq, Repr

/-- The acceptor in its process. `fdFirst` is set if `accept4` looks for a descriptor first;
`others` counts the descriptors other than the reserve and the client that is being dropped;
`served` are the clients that have been taken, with whether they have been handed to `newConnCb_`.
-/
structure Acceptor where
  fdFirst : Bool
  limit : ℕ
  others : ℕ
  idleFd : Bool := true
  reading : Bool := true
  event : Bool := false
  backlog : List ℕ := []
  arrived : ℕ := 0
  place : AcceptPlace := .outside
  served : List (ℕ × Bool) := []
  deriving DecidableEq, Repr

/-- What may happen: the loop goes on, or a system call of it fails for a reason of its own, a
client connects, another thread opens or closes a descriptor, or the acceptor is paused. -/
inductive AcceptInput
  | turn
  | fail (err : AcceptErrno)
  | connect
  | openFd
  | closeFd
  | pause
  deriving DecidableEq, Repr

namespace Acceptor

/-! ## The code -/

/-- The descriptors of the process. -/
def openFds (s : Acceptor) : ℕ :=
  s.others + s.idleFd.toNat + if s.place = .reopen true then 1 else 0

/-- `accept4`: the client and those behind it. -/
def accept4 (s : Acceptor) : Except AcceptErrno (ℕ × List ℕ) :=
  match s.backlog with
  | [] => if s.fdFirst ∧ s.limit ≤ s.openFds then .error .noDescriptor else .error .again
  | client :: backlog =>
    if s.limit ≤ s.openFds then .error .noDescriptor else .ok (client, backlog)

/-- `acceptConnection`, when it has got no client. -/
def onError (s : Acceptor) : AcceptErrno → Acceptor
  | .again => { s with place := .outside }
  | .noDescriptor =>
    if s.idleFd then { s with idleFd := false, place := .discard } else { s with place := .outside }
  | .other => { s with place := .outside }

/-- The reserve is opened again while the client that is dropped is still there. -/
def reopen (s : Acceptor) : Acceptor :=
  { s with idleFd := decide (s.openFds < s.limit), place := .accept }

/-- What the thread of the loop does next. -/
def turn (s : Acceptor) : Option Acceptor :=
  match s.place with
  | .outside =>
    if s.reading ∧ s.event then some { s with event := false, place := .accept } else none
  | .accept =>
    some <|
      match s.accept4 with
      | .ok (client, backlog) =>
        { s with
          others := s.others + 1, backlog := backlog, served := s.served ++ [(client, true)] }
      | .error err => s.onError err
  | .discard =>
    some <|
      match s.accept4 with
      | .ok (client, backlog) =>
        { s with
          backlog := backlog, place := .reopen true, served := s.served ++ [(client, false)] }
      | .error _ => { s with place := .reopen false }
  | .reopen _ => some s.reopen

/-- A system call of the loop fails; the queue stays as it is, also for `ECONNABORTED`. -/
def fail (s : Acceptor) (err : AcceptErrno) : Option Acceptor :=
  if err = .again then none
  else
    match s.place with
    | .outside => none
    | .accept => some (s.onError err)
    | .discard => some { s with place := .reopen false }
    | .reopen _ => some { s with idleFd := false, place := .accept }

def step (s : Acceptor) : AcceptInput → Option Acceptor
  | .turn => s.turn
  | .fail err => s.fail err
  | .connect =>
    some { s with
      backlog := s.backlog ++ [s.arrived], arrived := s.arrived + 1, event := true }
  | .openFd => if s.openFds < s.limit then some { s with others := s.others + 1 } else none
  | .closeFd => if 0 < s.others then some { s with others := s.others - 1 } else none
  | .pause => if s.place = .outside then some { s with reading := false } else none

/-- A new acceptor. Its reserve is assumed to have been opened. -/
def make (fdFirst : Bool) (limit others : ℕ) : Acceptor where
  fdFirst := fdFirst
  limit := limit
  others := others

def machine : TransitionSystem Acceptor AcceptInput where
  init s := ∃ fdFirst limit others, others < limit ∧ s = make fdFirst limit others
  step := step

/-! ## Any order of events -/

variable {s s' : Acceptor} {i : AcceptInput} {client : ℕ} {backlog : List ℕ} {err : AcceptErrno}
  {h : List (TransitionSystem.Step Acceptor AcceptInput)}

/-- A client comes out of a queue, into a descriptor that was free. -/
theorem accept4_eq_ok : s.accept4 = .ok (client, backlog) ↔
    s.backlog = client :: backlog ∧ s.openFds < s.limit := by
  rw [accept4]
  split
  · next empty => split <;> simp [empty]
  · next c cs split =>
    split_ifs with full
    · simp [full]
    · simp [split, Nat.lt_of_not_le full]

theorem accept4_eq_again : s.accept4 = .error .again ↔
    s.backlog = [] ∧ (s.fdFirst = true → s.openFds < s.limit) := by
  rw [accept4]
  split
  · next empty => split_ifs with full <;> simp_all
  · next c cs split => split_ifs <;> simp [split]

/-- The reserve has not been opened again. -/
def Lost (t : TransitionSystem.Step Acceptor AcceptInput) : Prop :=
  (∃ drop, t.pre.place = .reopen drop) ∧ t.post.place = .accept ∧ t.post.idleFd = false

/-- What a client that is left waiting goes back to. -/
def Failed (t : TransitionSystem.Step Acceptor AcceptInput) : Prop :=
  t.input = .fail .other ∨ Lost t

/-- What holds after the steps of a run. -/
structure Kept (h : List (TransitionSystem.Step Acceptor AcceptInput)) (s : Acceptor) : Prop where
  order : s.served.map Prod.fst ++ s.backlog = List.range s.arrived
  room : s.openFds ≤ s.limit
  -- the reserve is given up in the middle of `acceptConnection`, and lost only if it stays so
  reserve : s.idleFd = true ∨ s.place = .discard ∨ (∃ drop, s.place = .reopen drop) ∨
    ∃ t ∈ h, Lost t
  given : s.place = .discard ∨ (∃ drop, s.place = .reopen drop) → s.idleFd = false
  seen : s.place = .outside → s.event = false → s.backlog = [] ∨ ∃ t ∈ h, Failed t

theorem Kept.later (kept : Kept h s) (t : TransitionSystem.Step Acceptor AcceptInput) :
    Kept (t :: h) s where
  order := kept.order
  room := kept.room
  reserve := by
    rcases kept.reserve with held | discards | reopens | ⟨u, member, lost⟩
    · exact .inl held
    · exact .inr (.inl discards)
    · exact .inr (.inr (.inl reopens))
    · exact .inr (.inr (.inr ⟨u, List.mem_cons_of_mem t member, lost⟩))
  given := kept.given
  seen := fun outside quiet => by
    rcases kept.seen outside quiet with empty | ⟨u, member, failed⟩
    · exact .inl empty
    · exact .inr ⟨u, List.mem_cons_of_mem t member, failed⟩

/-- While it accepts, the loop has its reserve, or it has lost it. -/
theorem Kept.accepting (kept : Kept h s) (place : s.place = .accept) :
    s.idleFd = true ∨ ∃ t ∈ h, Lost t := by
  rcases kept.reserve with held | discards | ⟨drop, reopens⟩ | lost
  · exact .inl held
  · cases place.symm.trans discards
  · cases place.symm.trans reopens
  · exact .inr lost

theorem openFds_of_accept (place : s.place = .accept) : s.openFds = s.others + s.idleFd.toNat := by
  rw [openFds, place]
  rfl

/-- A client is handed to `newConnCb_`. -/
theorem Kept.hand (kept : Kept h s) (place : s.place = .accept)
    (accepted : s.accept4 = .ok (client, backlog)) :
    Kept h { s with
      others := s.others + 1, backlog := backlog, served := s.served ++ [(client, true)] } := by
  obtain ⟨first, free⟩ := accept4_eq_ok.mp accepted
  refine ⟨?_, ?_, kept.reserve, kept.given, fun outside => ?_⟩
  · rw [List.map_append, List.append_assoc, ← kept.order, first]
    rfl
  · rw [openFds_of_accept place] at free
    refine Nat.le_trans (Nat.le_of_eq (openFds_of_accept (by exact place))) ?_
    show s.others + 1 + s.idleFd.toNat ≤ s.limit
    omega
  · cases place.symm.trans outside

/-- A client is taken that is going to be dropped. -/
theorem Kept.discard (kept : Kept h s) (place : s.place = .discard)
    (accepted : s.accept4 = .ok (client, backlog)) :
    Kept h { s with
      backlog := backlog, place := .reopen true, served := s.served ++ [(client, false)] } := by
  obtain ⟨first, free⟩ := accept4_eq_ok.mp accepted
  have given := kept.given (.inl place)
  refine ⟨?_, ?_, .inr (.inr (.inl ⟨true, rfl⟩)), fun _ => given, nofun⟩
  · rw [List.map_append, List.append_assoc, ← kept.order, first]
    rfl
  · rw [openFds, given, place] at free
    show s.others + s.idleFd.toNat + 1 ≤ s.limit
    rw [given]
    exact free

theorem Kept.onError (kept : Kept h s) (place : s.place = .accept)
    (empty : err = .again → s.backlog = []) (failed : err = .other → ∃ t ∈ h, Failed t) :
    Kept h (s.onError err) := by
  have room := kept.room
  rw [openFds_of_accept place] at room
  have leaves (seen : s.backlog = [] ∨ ∃ t ∈ h, Failed t) :
      Kept h { s with place := .outside } := by
    refine ⟨kept.order, room, ?_, ?_, fun _ _ => seen⟩
    · exact (kept.accepting place).imp_right fun lost => .inr (.inr lost)
    · rintro (discards | ⟨drop, reopens⟩)
      · cases discards
      · cases reopens
  cases err with
  | again => exact leaves (.inl (empty rfl))
  | other => exact leaves (.inr (failed rfl))
  | noDescriptor =>
    rw [Acceptor.onError]
    split
    · refine ⟨kept.order, ?_, .inr (.inl rfl), fun _ => rfl, nofun⟩
      exact Nat.le_trans (Nat.le_add_right ..) room
    · next none =>
      -- the reserve has been lost before
      rcases kept.accepting place with held | ⟨t, member, lost⟩
      · exact absurd held none
      · exact leaves (.inr ⟨t, member, .inr lost⟩)

/-- The loop goes on to accept, with its reserve or without. -/
theorem Kept.reopen (kept : Kept h s) {held : Bool} (lost : held = false → ∃ t ∈ h, Lost t)
    (free : held = true → s.openFds < s.limit) :
    Kept h { s with idleFd := held, place := .accept } := by
  have room := kept.room
  refine ⟨kept.order, ?_, ?_, ?_, nofun⟩
  · cases held with
    | true =>
      have free := free rfl
      rw [openFds] at free
      show s.others + 1 + 0 ≤ s.limit
      omega
    | false =>
      rw [openFds] at room
      show s.others + 0 + 0 ≤ s.limit
      omega
  · cases held with
    | true => exact .inl rfl
    | false => exact .inr (.inr (.inr (lost rfl)))
  · rintro (discards | ⟨drop, reopens⟩)
    · cases discards
    · cases reopens

theorem accept4_ne_other : s.accept4 ≠ .error .other := by
  rw [accept4]
  split
  · split <;> nofun
  · split <;> nofun

theorem Kept.turn (kept : Kept h s) (taken : s.turn = some s')
    (lost : (∃ drop, s.place = .reopen drop) → s'.place = .accept → s'.idleFd = false →
      ∃ t ∈ h, Lost t) :
    Kept h s' := by
  have room := kept.room
  rw [Acceptor.turn] at taken
  split at taken
  · next place =>
    obtain ⟨-, same⟩ := Option.ite_none_right_eq_some.mp taken
    obtain rfl := Option.some.inj same
    refine ⟨kept.order, ?_, ?_, ?_, nofun⟩
    · rwa [openFds, place] at room
    · rcases kept.reserve with held | discards | ⟨drop, reopens⟩ | lost
      · exact .inl held
      · cases place.symm.trans discards
      · cases place.symm.trans reopens
      · exact .inr (.inr (.inr lost))
    · rintro (discards | ⟨drop, reopens⟩)
      · cases discards
      · cases reopens
  · next place =>
    obtain rfl := Option.some.inj taken
    split
    · next accepted => exact kept.hand place accepted
    · next failed =>
      refine kept.onError place (fun again => ?_) fun other => ?_
      · subst again
        exact (accept4_eq_again.mp failed).1
      · subst other
        exact absurd failed accept4_ne_other
  · next place =>
    obtain rfl := Option.some.inj taken
    split
    · next accepted => exact kept.discard place accepted
    · refine ⟨kept.order, ?_, .inr (.inr (.inl ⟨false, rfl⟩)), fun _ => ?_, nofun⟩
      · rwa [openFds, place] at room
      · exact kept.given (.inl place)
  · next drop place =>
    obtain rfl := Option.some.inj taken
    exact kept.reopen (lost ⟨drop, place⟩ rfl) of_decide_eq_true

theorem Kept.fail (kept : Kept h s) (taken : s.fail err = some s')
    (failed : err = .other → ∃ t ∈ h, Failed t)
    (lost : (∃ drop, s.place = .reopen drop) → s'.place = .accept → s'.idleFd = false →
      ∃ t ∈ h, Lost t) :
    Kept h s' := by
  have room := kept.room
  obtain ⟨real, taken⟩ := Option.ite_none_left_eq_some.mp taken
  split at taken
  · cases taken
  · next place =>
    obtain rfl := Option.some.inj taken
    exact kept.onError place (fun again => absurd again real) failed
  · next place =>
    obtain rfl := Option.some.inj taken
    refine ⟨kept.order, ?_, .inr (.inr (.inl ⟨false, rfl⟩)), fun _ => ?_, nofun⟩
    · rwa [openFds, place] at room
    · exact kept.given (.inl place)
  · next drop place =>
    obtain rfl := Option.some.inj taken
    exact kept.reopen (lost ⟨drop, place⟩ rfl) nofun

theorem Kept.step (kept : Kept h s) (taken : s.step i = some s') : Kept (⟨s, i, s'⟩ :: h) s' := by
  have later := kept.later ⟨s, i, s'⟩
  have lost (reopens : ∃ drop, s.place = .reopen drop) (place : s'.place = .accept)
      (none : s'.idleFd = false) : ∃ t ∈ ⟨s, i, s'⟩ :: h, Lost t :=
    ⟨_, List.mem_cons_self, reopens, place, none⟩
  cases i with
  | turn => exact later.turn taken lost
  | fail err =>
    refine later.fail taken (fun other => ?_) lost
    subst other
    exact ⟨_, List.mem_cons_self, .inl rfl⟩
  | connect =>
    obtain rfl := Option.some.inj taken
    refine ⟨?_, later.room, later.reserve, later.given, fun _ => nofun⟩
    rw [List.range_succ, ← kept.order, List.append_assoc]
  | openFd =>
    obtain ⟨free, same⟩ := Option.ite_none_right_eq_some.mp taken
    obtain rfl := Option.some.inj same
    refine ⟨later.order, ?_, later.reserve, later.given, later.seen⟩
    rw [openFds] at free
    show s.others + 1 + s.idleFd.toNat + (if s.place = .reopen true then 1 else 0) ≤ s.limit
    omega
  | closeFd =>
    obtain ⟨-, same⟩ := Option.ite_none_right_eq_some.mp taken
    obtain rfl := Option.some.inj same
    refine ⟨later.order, ?_, later.reserve, later.given, later.seen⟩
    have room := kept.room
    rw [openFds] at room
    show s.others - 1 + s.idleFd.toNat + (if s.place = .reopen true then 1 else 0) ≤ s.limit
    omega
  | pause =>
    obtain ⟨-, same⟩ := Option.ite_none_right_eq_some.mp taken
    obtain rfl := Option.some.inj same
    exact ⟨later.order, later.room, later.reserve, later.given, later.seen⟩

/-- In every run the clients are taken once and in the order in which they have connected, and the
process has no more descriptors than it may have. If a client waits that no event is going to
report, an accept has failed for a reason of its own, or the reserve could not be opened again. -/
theorem accepts_of_run (run : machine.Run h s) :
    s.served.map Prod.fst ++ s.backlog = List.range s.arrived ∧ s.openFds ≤ s.limit ∧
      (s.place = .outside → s.event = false → s.backlog ≠ [] → ∃ t ∈ h, Failed t) := by
  have kept : Kept h s := by
    induction run with
    | start first =>
      obtain ⟨fdFirst, limit, others, free, rfl⟩ := first
      exact ⟨rfl, free, .inl rfl, by rintro (discards | ⟨drop, reopens⟩) <;> contradiction,
        fun _ _ => .inl rfl⟩
    | next _ taken kept => exact kept.step taken
  refine ⟨kept.order, kept.room, fun outside quiet waits => ?_⟩
  exact (kept.seen outside quiet).resolve_left waits

/-! ## The reserve -/

/-- The acceptor is without its reserve, and not about to open it again. -/
structure Bare (s : Acceptor) : Prop where
  idleFd : s.idleFd = false
  place : s.place = .outside ∨ s.place = .accept

theorem Bare.onError (bare : Bare s) (err : AcceptErrno) : Bare (s.onError err) := by
  cases err with
  | again => exact ⟨bare.idleFd, .inl rfl⟩
  | noDescriptor =>
    rw [Acceptor.onError, bare.idleFd, if_neg Bool.false_ne_true]
    exact ⟨rfl, .inl rfl⟩
  | other => exact ⟨bare.idleFd, .inl rfl⟩

/-- Only an acceptor that has its reserve gives it up, and only then is it opened again. -/
theorem Bare.step (bare : Bare s) (taken : s.step i = some s') : Bare s' := by
  cases i with
  | turn =>
    simp only [Acceptor.step, turn] at taken
    rcases bare.place with place | place
    · rw [place] at taken
      obtain ⟨-, same⟩ := Option.ite_none_right_eq_some.mp taken
      obtain rfl := Option.some.inj same
      exact ⟨bare.idleFd, .inr rfl⟩
    · rw [place] at taken
      obtain rfl := Option.some.inj taken
      split
      · exact ⟨bare.idleFd, .inr rfl⟩
      · exact bare.onError _
  | fail err =>
    obtain ⟨-, taken⟩ := Option.ite_none_left_eq_some.mp taken
    rcases bare.place with place | place
    · rw [place] at taken
      cases taken
    · rw [place] at taken
      obtain rfl := Option.some.inj taken
      exact bare.onError err
  | connect =>
    obtain rfl := Option.some.inj taken
    exact ⟨bare.idleFd, bare.place⟩
  | openFd | closeFd | pause =>
    obtain ⟨-, same⟩ := Option.ite_none_right_eq_some.mp taken
    obtain rfl := Option.some.inj same
    exact ⟨bare.idleFd, bare.place⟩

/-- A reserve that is lost stays lost, whatever happens afterwards. -/
theorem idleFd_of_lost {later earlier : List (TransitionSystem.Step Acceptor AcceptInput)}
    {t : TransitionSystem.Step Acceptor AcceptInput} (run : machine.Run (later ++ t :: earlier) s)
    (lost : Lost t) : s.idleFd = false := by
  obtain ⟨-, place, none⟩ := lost
  have bare : Bare t.post := ⟨none, .inr place⟩
  exact (run.since (C := fun _ => True) (I := fun _ s => Bare s) (fun _ _ => trivial) bare
    fun _ _ _ taken _ bare => bare.step taken).idleFd

/-! ## Nothing else happens -/

open StateTransition

/-- The descriptors that are free, apart from the reserve. -/
def free (s : Acceptor) : ℕ := s.limit - s.others - 1

/-- The loop is about to accept what has arrived, and has its reserve. -/
structure Starts (s : Acceptor) : Prop where
  outside : s.place = .outside
  reading : s.reading = true
  event : s.event = true
  idleFd : s.idleFd = true
  room : s.others < s.limit

/-- Where the loop ends: it has taken note of what has been reported. -/
structure Ends (s' : Acceptor) (served : List (ℕ × Bool)) (backlog : List ℕ) (idleFd : Bool) :
    Prop where
  outside : s'.place = .outside
  event : s'.event = false
  served : s'.served = served
  backlog : s'.backlog = backlog
  idleFd : s'.idleFd = idleFd

theorem Bare.steps (bare : Bare s) {inputs : List AcceptInput}
    (taken : inputs.foldlM Acceptor.step s = some s') : Bare s' := by
  induction inputs generalizing s with
  | nil =>
    obtain rfl := Option.some.inj taken
    exact bare
  | cons i inputs ih =>
    obtain ⟨t, first, others⟩ := Option.bind_eq_some_iff.mp taken
    exact ih (bare.step first) others

/-- If the loop ends without its reserve, that is for good, whatever happens afterwards. -/
theorem Ends.idleFd_of_steps {s'' : Acceptor} {served : List (ℕ × Bool)} {backlog : List ℕ}
    (ends : s'.Ends served backlog false) {inputs : List AcceptInput}
    (taken : inputs.foldlM Acceptor.step s' = some s'') : s''.idleFd = false :=
  (Bare.steps ⟨ends.idleFd, .inl ends.outside⟩ taken).idleFd

variable {clients rest : List ℕ}

/-- The acceptor that has handed over some clients. -/
def handed (s : Acceptor) (clients rest : List ℕ) : Acceptor :=
  { s with
    others := s.others + clients.length
    backlog := rest
    served := s.served ++ clients.map (·, true) }

theorem turn_hand (place : s.place = .accept) (accepted : s.accept4 = .ok (client, backlog)) :
    s.turn = some (s.handed [client] backlog) := by
  rw [turn, place]
  simp only [accepted]
  rw [handed, place]
  rfl

theorem handed_nil (s : Acceptor) : s.handed [] s.backlog = s := by
  simp only [handed, List.length_nil, Nat.add_zero, List.map_nil, List.append_nil]

theorem handed_handed (s : Acceptor) (clients clients' rest rest' : List ℕ) :
    (s.handed clients rest).handed clients' rest' = s.handed (clients ++ clients') rest' := by
  simp only [handed, List.length_append, List.map_append, List.append_assoc, Nat.add_assoc]

theorem openFds_handed (place : s.place = .accept) (clients rest : List ℕ) :
    (s.handed clients rest).openFds = s.openFds + clients.length := by
  rw [openFds_of_accept place, openFds_of_accept (by exact place)]
  simp only [handed]
  omega

/-- The clients for which there are descriptors are handed over. -/
theorem reaches_handed (place : s.place = .accept) (queue : s.backlog = clients ++ rest)
    (room : s.openFds + clients.length ≤ s.limit) : Reaches turn s (s.handed clients rest) := by
  induction clients generalizing s with
  | nil =>
    rw [List.nil_append] at queue
    rw [← queue, handed_nil]
    exact .refl
  | cons client clients ih =>
    rw [List.length_cons] at room
    have accepted : s.accept4 = .ok (client, clients ++ rest) :=
      accept4_eq_ok.mpr ⟨queue, by omega⟩
    refine .head (turn_hand place accepted) ?_
    have others := openFds_handed place [client] (clients ++ rest)
    have whole := handed_handed s [client] clients (clients ++ rest) rest
    rw [List.singleton_append] at whole
    rw [← whole]
    refine ih (s := s.handed [client] (clients ++ rest)) place rfl ?_
    rw [others]
    show s.openFds + 1 + clients.length ≤ s.limit
    omega

/-- The loop gets no client, and has no reserve to give up. -/
theorem mem_eval_of_error (place : s.place = .accept) (quiet : s.event = false)
    (failed : s.accept4 = .error err) (none : err = .noDescriptor → s.idleFd = false) :
    { s with place := .outside } ∈ eval turn s := by
  have leaves : s.turn = some { s with place := .outside } := by
    rw [turn, place]
    simp only [failed]
    cases err with
    | again => rfl
    | noDescriptor => rw [onError, none rfl, if_neg Bool.false_ne_true]
    | other => rfl
  refine mem_eval.mpr ⟨.single leaves, ?_⟩
  simp only [turn, quiet, Bool.false_eq_true, and_false, if_false]

/-- A step function that comes back to where it was does not come to an end. -/
theorem not_dom_of_cycle {σ : Type*} {f : σ → Option σ} {a : σ} (cycle : Reaches₁ f a a) :
    ¬ (eval f a).Dom := by
  intro ends
  obtain ⟨b, last⟩ := Part.dom_iff_mem.mp ends
  obtain ⟨reached, stuck⟩ := mem_eval.mp last
  -- what is reached from a cycle leads back to it
  have back : Reaches₁ f b a := by
    clear last stuck
    induction reached with
    | refl => exact cycle
    | tail _ taken ih =>
      rcases Relation.TransGen.head'_iff.mp ih with ⟨c, first, others⟩
      obtain rfl := Option.mem_unique first taken
      rcases Relation.reflTransGen_iff_eq_or_transGen.mp others with rfl | others
      · exact cycle
      · exact others
  exact eval_maximal₁ last a back

/-- There is neither a client nor a descriptor, and the kernel says the latter: the reserve is given
up and opened again for ever. -/
theorem turns_in_circles (place : s.place = .accept) (empty : s.backlog = [])
    (fdFirst : s.fdFirst = true) (held : s.idleFd = true) (full : s.openFds = s.limit) :
    ¬ (eval turn s).Dom := by
  have others : s.others + 1 = s.limit := by
    rw [← full, openFds_of_accept place, held]
    rfl
  have failed : s.accept4 = .error .noDescriptor := by
    rw [accept4, empty]
    exact if_pos ⟨fdFirst, Nat.le_of_eq full.symm⟩
  have first : s.turn = some { s with idleFd := false, place := .discard } := by
    rw [turn, place]
    simp only [failed, onError, held, if_true]
  have second : ({ s with idleFd := false, place := .discard } : Acceptor).turn =
      some { s with idleFd := false, place := .reopen false } := by
    have none : ({ s with idleFd := false, place := .discard } : Acceptor).accept4 =
        .error .again := by
      refine accept4_eq_again.mpr ⟨empty, fun _ => ?_⟩
      show s.others + 0 + 0 < s.limit
      omega
    simp only [turn, none]
  have third : ({ s with idleFd := false, place := .reopen false } : Acceptor).turn = some s := by
    have free : s.others + 0 + 0 < s.limit := by omega
    show some ({ s with idleFd := decide (s.others + 0 + 0 < s.limit), place := .accept }) = some s
    rw [decide_eq_true free, ← held, ← place]
  exact not_dom_of_cycle (.head first (.head second (.single third)))

/-- The acceptor that has dropped a client, and could not open its reserve again. -/
def dropped (s : Acceptor) (client : ℕ) (rest : List ℕ) : Acceptor :=
  { s with idleFd := false, backlog := rest, served := s.served ++ [(client, false)] }

theorem openFds_dropped (place : s.place = .accept) (held : s.idleFd = true) (client : ℕ)
    (rest : List ℕ) : (s.dropped client rest).openFds + 1 = s.openFds := by
  rw [openFds_of_accept place, held, openFds_of_accept (by exact place)]
  rfl

/-- The reserve is spent on one client: while that client is there, it cannot be opened again. -/
theorem reaches_dropped (place : s.place = .accept) (queue : s.backlog = client :: rest)
    (held : s.idleFd = true) (full : s.openFds = s.limit) :
    Reaches turn s (s.dropped client rest) := by
  have others : s.others + 1 = s.limit := by
    rw [← full, openFds_of_accept place, held]
    rfl
  have failed : s.accept4 = .error .noDescriptor := by
    rw [accept4, queue]
    exact if_pos (Nat.le_of_eq full.symm)
  have first : s.turn = some { s with idleFd := false, place := .discard } := by
    rw [turn, place]
    simp only [failed, onError, held, if_true]
  have second : ({ s with idleFd := false, place := .discard } : Acceptor).turn =
      some { s.dropped client rest with place := .reopen true } := by
    have accepted : ({ s with idleFd := false, place := .discard } : Acceptor).accept4 =
        .ok (client, rest) := by
      refine accept4_eq_ok.mpr ⟨queue, ?_⟩
      show s.others + 0 + 0 < s.limit
      omega
    simp only [turn, accepted, dropped]
  have third : ({ s.dropped client rest with place := .reopen true } : Acceptor).turn =
      some (s.dropped client rest) := by
    have none : ¬ s.others + 0 + 1 < s.limit := by omega
    show some ({ s.dropped client rest with
      idleFd := decide (s.others + 0 + 1 < s.limit), place := .accept }) =
        some (s.dropped client rest)
    rw [decide_eq_false none, ← place]
    rfl
  exact .head first (.head second (.single third))

/-- Without a reserve, there is room for one client more, and the others are left. -/
theorem mem_eval_of_dropped (place : s.place = .accept) (quiet : s.event = false)
    (none : s.idleFd = false) (room : s.openFds + 1 = s.limit) :
    { s.handed (s.backlog.take 1) (s.backlog.drop 1) with place := .outside } ∈ eval turn s := by
  cases queue : s.backlog with
  | nil =>
    have failed : s.accept4 = .error .again :=
      accept4_eq_again.mpr ⟨queue, fun _ => by omega⟩
    have same := handed_nil s
    rw [queue] at same
    show { s.handed [] [] with place := .outside } ∈ eval turn s
    rw [same]
    exact mem_eval_of_error place quiet failed nofun
  | cons client rest =>
    have reached : Reaches turn s (s.handed [client] rest) :=
      reaches_handed place queue (Nat.le_of_eq room)
    have full : (s.handed [client] rest).openFds = s.limit := by
      rw [openFds_handed place]
      exact room
    rw [reaches_eval reached]
    -- there is no descriptor, and perhaps no client either
    obtain ⟨err, failed⟩ : ∃ err, (s.handed [client] rest).accept4 = .error err := by
      cases accepted : (s.handed [client] rest).accept4 with
      | error err => exact ⟨err, rfl⟩
      | ok taken =>
        have free := (accept4_eq_ok.mp accepted).2
        rw [full] at free
        exact absurd free (Nat.lt_irrefl _)
    exact mem_eval_of_error place quiet failed fun _ => none

/-- What becomes of the clients if nothing else happens while the loop accepts. As long as there are
descriptors for them, all of them are handed over; but if they take the last one, and the kernel
looks for a descriptor first, the loop does not come to an end. If there are more clients, one is
dropped, the next one is handed over in place of the reserve, the reserve is lost, and the others
are left without an event that would report them. -/
theorem eval_turn (starts : s.Starts) :
    (s.fdFirst = true → s.backlog.length = s.free → ¬ (eval turn s).Dom) ∧
      (s.backlog.length ≤ s.free → ¬ (s.fdFirst = true ∧ s.backlog.length = s.free) →
        ∃ s' ∈ eval turn s, s'.Ends (s.served ++ s.backlog.map (·, true)) [] true) ∧
      ∀ clients client rest, s.backlog = clients ++ client :: rest → clients.length = s.free →
        ∃ s' ∈ eval turn s,
          s'.Ends
            (s.served ++ clients.map (·, true) ++ (client, false) :: (rest.take 1).map (·, true))
            (rest.drop 1) false := by
  obtain ⟨outside, reading, event, held, room⟩ := starts
  have first : s.turn = some { s with event := false, place := .accept } := by
    rw [turn, outside]
    exact if_pos ⟨reading, event⟩
  set t : Acceptor := { s with event := false, place := .accept } with begun
  have place : t.place = .accept := rfl
  have openFds : t.openFds = s.others + 1 := by
    rw [openFds_of_accept place]
    show s.others + s.idleFd.toNat = s.others + 1
    rw [held]
    rfl
  rw [reaches_eval (.single first)]
  have fits {clients rest : List ℕ} (queue : s.backlog = clients ++ rest)
      (few : clients.length ≤ s.free) : Reaches turn t (t.handed clients rest) := by
    refine reaches_handed place queue ?_
    show t.openFds + clients.length ≤ s.limit
    rw [openFds]
    rw [free] at few
    omega
  have used (clients rest : List ℕ) :
      (t.handed clients rest).openFds = s.others + 1 + clients.length := by
    rw [openFds_handed place, openFds]
  refine ⟨fun fdFirst all => ?_, fun few free => ?_, fun clients client rest queue all => ?_⟩
  · rw [reaches_eval (fits (List.append_nil _).symm (Nat.le_of_eq all))]
    refine turns_in_circles place rfl fdFirst held ?_
    rw [used, all, Acceptor.free]
    show s.others + 1 + (s.limit - s.others - 1) = s.limit
    omega
  · rw [reaches_eval (fits (List.append_nil _).symm few)]
    have failed : (t.handed s.backlog []).accept4 = .error .again := by
      refine accept4_eq_again.mpr ⟨rfl, fun fdFirst => ?_⟩
      have less : s.backlog.length ≠ s.free := fun all => free ⟨fdFirst, all⟩
      rw [used]
      rw [Acceptor.free] at few less
      show s.others + 1 + s.backlog.length < s.limit
      omega
    exact ⟨_, mem_eval_of_error place rfl failed nofun, rfl, rfl, rfl, rfl, held⟩
  · have full : (t.handed clients (client :: rest)).openFds = s.limit := by
      rw [used, all, Acceptor.free]
      omega
    rw [reaches_eval (fits queue (Nat.le_of_eq all)),
      reaches_eval (reaches_dropped (s := t.handed clients (client :: rest)) place rfl held full)]
    have spent := openFds_dropped (s := t.handed clients (client :: rest)) place held client rest
    rw [full] at spent
    refine ⟨_, mem_eval_of_dropped place rfl rfl spent, rfl, rfl, ?_, rfl, rfl⟩
    simp only [handed, dropped, List.append_assoc, List.singleton_append]
    rfl

/-- Five clients connect to a process with three descriptors to spare, the reserve included. Without
any failure but this one, the last client is left waiting. -/
theorem accepts_of_run_starved : ∃ h s, machine.Run h s ∧ s.backlog = [4] ∧ ∃ t ∈ h, Lost t := by
  obtain ⟨h, s, run, fine, reached⟩ := machine.exists_run
    [.connect, .connect, .connect, .connect, .connect, .turn, .turn, .turn, .turn, .turn, .turn,
      .turn, .turn]
    (fun _ i => i ≠ .fail .other)
    (fun s => s.place = .outside && s.event = false && s.backlog = [4])
    ⟨false, 10, 7, by decide, rfl⟩ (by decide)
  simp only [Bool.and_eq_true, decide_eq_true_eq] at fine reached
  obtain ⟨⟨outside, quiet⟩, backlog⟩ := reached
  have waits : s.backlog ≠ [] := by
    rw [backlog]
    exact List.cons_ne_nil _ _
  obtain ⟨t, member, failed⟩ := (accepts_of_run run).2.2 outside quiet waits
  exact ⟨h, s, run, backlog, t, member, failed.resolve_left (fine t member)⟩

/-- The same from the theorem about what the loop does. -/
theorem eval_turn_starved :
    ∃ s' ∈ eval turn { make true 10 7 with event := true, backlog := [0, 1, 2, 3, 4] },
      s'.Ends [(0, true), (1, true), (2, false), (3, true)] [4] false :=
  (eval_turn ⟨rfl, rfl, rfl, rfl, by decide⟩).2.2 [0, 1] 2 [3, 4] rfl rfl

end Acceptor

end Perfacet
