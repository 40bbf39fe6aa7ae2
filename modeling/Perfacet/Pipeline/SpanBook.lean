import Mathlib.Logic.Function.Basic
import Mathlib.Logic.Relation
import Perfacet.Lib.Leases
import Perfacet.Pipeline.Pipeline

/-!
# A book of open spans

What the spans of the gateway are for: a request has two spans from when it is received until it
is answered, and a call has one for the attempt that is underway. The book knows which requests
were received and answered, what every live call has open, and what the tracer holds; a move of
it is one thing that can happen to a span. Seen as leases, the two books of the spans that are
open, the tracer's and that of those who have to end them, agree.

## Main definitions

* `SpanBook`, `SpanBook.Move` — the book, and what can happen to it
* `SpanBook.Sound` — whoever can answer a request was handed one that was received, and the
  leases are balanced

## Main results

* `SpanBook.Move.leases` — a move takes the spans of one owner out or gives them back
* `SpanBook.sound_of_moves`, `SpanBook.later_of_moves` — so the leases stay balanced, and what has
  ended stays so
-/

namespace Perfacet

/-- The two spans of a request. -/
def Finish.HasSpan (f : Finish) (id : String) : Prop := id = f.gateway.spanId ∨ id = f.total.spanId

/-- What a span belongs to: a request, or an attempt of a call. -/
inductive SpanOwner
  | request (f : Finish)
  | attempt (c n : ℕ)

/-- What the book knows of a live call: whom it answers, how many attempts it has made, and the
span of the last one if it is underway. -/
structure SpanCall where
  onDone : Finish
  attempt : ℕ
  span : Option String

@[ext]
structure SpanBook where
  received : List Finish
  answered : ℕ → Prop
  waiting : Finish → Prop
  calls : ℕ → Option SpanCall
  live : String → Prop
  draws : ℕ
  nextRequest : ℕ

namespace SpanBook

variable {ids : ℕ → String} {b b' : SpanBook} {c : ℕ} {call : SpanCall} {f : Finish}
  {id : String}

/-- Put a call into the table. -/
def put (b : SpanBook) (c : ℕ) (call : SpanCall) : SpanBook :=
  { b with calls := Function.update b.calls c (some call) }

/-- Take a call out of the table. -/
def erase (b : SpanBook) (c : ℕ) : SpanBook := { b with calls := Function.update b.calls c none }

theorem calls_put (b : SpanBook) (c c' : ℕ) (call : SpanCall) :
    (b.put c call).calls c' = if c' = c then some call else b.calls c' :=
  Function.update_apply ..

@[simp] theorem put_put (b : SpanBook) (c : ℕ) (call call' : SpanCall) :
    (b.put c call).put c call' = b.put c call' := by
  simp only [put, Function.update_idem]

/-- What is known of a call is written back as it was. -/
theorem put_self (stored : b.calls c = some call) : b.put c call = b := by
  rw [put, ← stored, Function.update_eq_self]

@[simp] theorem erase_put (b : SpanBook) (c : ℕ) (call : SpanCall) :
    (b.put c call).erase c = b.erase c := by
  simp only [put, erase, Function.update_idem]

theorem calls_erase (b : SpanBook) (c c' : ℕ) :
    (b.erase c).calls c' = if c' = c then none else b.calls c' :=
  Function.update_apply ..

/-- A span ends. -/
def close (b : SpanBook) (id : String) : SpanBook := { b with live := fun i => b.live i ∧ i ≠ id }

/-- A request is answered, and its spans end. -/
def answer (b : SpanBook) (f : Finish) : SpanBook :=
  { b with
    answered := fun rid => b.answered rid ∨ rid = f.rid
    live := fun i => b.live i ∧ ¬ f.HasSpan i }

/-- A span starts, under the id of draw `k`. -/
def openSpan (b : SpanBook) (id : String) (k : ℕ) : SpanBook :=
  { b with live := fun i => b.live i ∨ i = id, draws := k + 1 }

/-- A request is received, and its spans start. Draw `k` is the last one that it makes. -/
def receive (b : SpanBook) (f : Finish) (k : ℕ) : SpanBook :=
  { b with
    received := f :: b.received
    live := fun i => b.live i ∨ f.HasSpan i
    draws := k + 1
    nextRequest := b.nextRequest + 1 }

/-- A call starts its next attempt, under the id of draw `k`. -/
def fire (b : SpanBook) (c : ℕ) (call : SpanCall) (k : ℕ) (id : String) : SpanBook :=
  (b.openSpan id k).put c { call with attempt := call.attempt + 1, span := some id }

/-- What can happen to a book whose spans are named by `ids`. -/
inductive Move (ids : ℕ → String) : SpanBook → SpanBook → Prop
  | draw {b : SpanBook} {n : ℕ} : b.draws ≤ n → Move ids b { b with draws := n }
  | queue {b : SpanBook} {waiting : Finish → Prop} :
      (∀ f, waiting f → b.waiting f ∨ f ∈ b.received) → Move ids b { b with waiting := waiting }
  | receive {b : SpanBook} {f : Finish} {j k : ℕ} : b.draws ≤ j → j < k →
      f.total.spanId = ids j → f.gateway.spanId = ids k → f.rid = b.nextRequest →
      Move ids b (b.receive f k)
  | answer {b : SpanBook} {f : Finish} : f ∈ b.received → Move ids b (b.answer f)
  | start {b : SpanBook} {c : ℕ} {f : Finish} : b.calls c = none → f ∈ b.received →
      Move ids b (b.put c ⟨f, 0, none⟩)
  | fire {b : SpanBook} {c k : ℕ} {call : SpanCall} : b.calls c = some call →
      call.span = none → b.draws ≤ k → Move ids b (b.fire c call k (ids k))
  | close {b : SpanBook} {c : ℕ} {call : SpanCall} {id : String} : b.calls c = some call →
      call.span = some id → Move ids b ((b.close id).put c { call with span := none })
  | destroy {b : SpanBook} {c : ℕ} {call : SpanCall} : b.calls c = some call →
      call.span = none → Move ids b (b.erase c)

/-! ## Who answers -/

/-- Requests are numbered, and whoever has one to answer was handed one that was received. -/
structure Roll (b : SpanBook) : Prop where
  waiting : ∀ {f}, b.waiting f → f ∈ b.received
  calls : ∀ {c call}, b.calls c = some call → call.onDone ∈ b.received
  rid_lt : ∀ {f}, f ∈ b.received → f.rid < b.nextRequest
  answered_lt : ∀ {rid}, b.answered rid → rid < b.nextRequest
  unique : ∀ {f g}, f ∈ b.received → g ∈ b.received → f.rid = g.rid → f = g

namespace Roll

theorem put (h : b.Roll) (c : ℕ) (known : call.onDone ∈ b.received) : (b.put c call).Roll where
  waiting := h.waiting
  calls {c' call'} stored := by
    rw [calls_put] at stored
    split at stored
    · exact Option.some.inj stored ▸ known
    · exact h.calls stored
  rid_lt := h.rid_lt
  answered_lt := h.answered_lt
  unique := h.unique

theorem move (h : b.Roll) (m : Move ids b b') : b'.Roll := by
  cases m with
  | draw later => exact ⟨h.waiting, h.calls, h.rid_lt, h.answered_lt, h.unique⟩
  | queue known =>
    refine ⟨fun {f} waits => ?_, h.calls, h.rid_lt, h.answered_lt, h.unique⟩
    exact (known f waits).elim h.waiting id
  | @receive f j k drawn order total gateway rid =>
    -- requests are numbered in the order in which they come
    have new : ∀ {g}, g ∈ b.received → g.rid ≠ f.rid := fun member same => by
      have := h.rid_lt member
      omega
    refine ⟨fun waits => .tail _ (h.waiting waits), fun stored => .tail _ (h.calls stored),
      fun member => ?_, fun answered => (h.answered_lt answered).trans (Nat.lt_succ_self _),
      fun member member' same => ?_⟩
    · rcases List.mem_cons.mp member with rfl | old
      · exact rid ▸ Nat.lt_succ_self _
      · exact (h.rid_lt old).trans (Nat.lt_succ_self _)
    · rcases List.mem_cons.mp member with rfl | old
      · rcases List.mem_cons.mp member' with rfl | old'
        · rfl
        · exact absurd same.symm (new old')
      · rcases List.mem_cons.mp member' with rfl | old'
        · exact absurd same (new old)
        · exact h.unique old old' same
  | @answer f known =>
    refine ⟨h.waiting, h.calls, h.rid_lt, fun answered => ?_, h.unique⟩
    rcases answered with before | rfl
    · exact h.answered_lt before
    · exact h.rid_lt known
  | @start c f new known => exact h.put c known
  | @fire c k call stored closed drawn =>
    have known : call.onDone ∈ b.received := h.calls stored
    have put : (b.put c { call with attempt := call.attempt + 1, span := some (ids k) }).Roll :=
      h.put c known
    exact ⟨put.waiting, put.calls, put.rid_lt, put.answered_lt, put.unique⟩
  | @close c call id stored opened =>
    have ended : (b.close id).Roll := ⟨h.waiting, h.calls, h.rid_lt, h.answered_lt, h.unique⟩
    have known : call.onDone ∈ b.received := h.calls stored
    exact ended.put c known
  | @destroy c call stored closed =>
    refine ⟨h.waiting, fun {c' call'} there => ?_, h.rid_lt, h.answered_lt, h.unique⟩
    rw [calls_erase] at there
    split at there
    · cases there
    · exact h.calls there

end Roll

/-! ## Leases -/

/-- Which span is whose. -/
def holds (b : SpanBook) : SpanOwner → String → Prop
  | .request f, id => f ∈ b.received ∧ f.HasSpan id
  | .attempt c n, id => ∃ call, b.calls c = some call ∧ call.attempt = n ∧ call.span = some id

/-- Who has spans to end: a request until it is answered, an attempt while it is underway. -/
def owes (b : SpanBook) : SpanOwner → Prop
  | .request f => ¬ b.answered f.rid
  | .attempt .. => True

def leases (ids : ℕ → String) (b : SpanBook) : Leases SpanOwner String where
  holds := b.holds
  owes := b.owes
  out := b.live
  used id := ∃ k < b.draws, id = ids k

theorem holds_put (b : SpanBook) (c : ℕ) (call : SpanCall) (o : SpanOwner) (id : String) :
    (b.put c call).holds o id ↔ (b.holds o id ∧ ∀ n, o ≠ .attempt c n) ∨
      (o = .attempt c call.attempt ∧ call.span = some id) := by
  cases o with
  | request f => simp [holds, put]
  | attempt c' n =>
    by_cases here : c' = c
    · subst here
      simp [holds, calls_put, eq_comm]
    · simp [holds, calls_put, here]

theorem holds_erase (b : SpanBook) (c : ℕ) (o : SpanOwner) (id : String) :
    (b.erase c).holds o id ↔ b.holds o id ∧ ∀ n, o ≠ .attempt c n := by
  cases o with
  | request f => simp [holds, erase]
  | attempt c' n =>
    by_cases here : c' = c
    · subst here
      simp [holds, calls_erase]
    · simp [holds, calls_erase, here]

/-- A call with nothing open holds nothing. -/
theorem ne_attempt_of_holds (closed : ∀ call, b.calls c = some call → call.span = none)
    {o : SpanOwner} (held : b.holds o id) (n : ℕ) : o ≠ .attempt c n := by
  rintro rfl
  obtain ⟨call, stored, -, opened⟩ := held
  rw [closed call stored] at opened
  cases opened

theorem used_mono {draws : ℕ} (more : b.draws ≤ draws) (used : (b.leases ids).used id) :
    ∃ k < draws, id = ids k := by
  obtain ⟨k, drawn, same⟩ := used
  exact ⟨k, drawn.trans_le more, same⟩

/-- An id that is drawn now was not drawn before. -/
theorem not_used (distinct : Function.Injective ids) {k : ℕ} (now : b.draws ≤ k)
    (drawn : id = ids k) : ¬ (b.leases ids).used id := by
  rintro ⟨m, before, rfl⟩
  have same := distinct drawn
  omega

/-- A request that is received takes two spans out. -/
theorem receive_takes (distinct : Function.Injective ids) (roll : b.Roll) {j k : ℕ}
    (drawn : b.draws ≤ j) (order : j < k) (total : f.total.spanId = ids j)
    (gateway : f.gateway.spanId = ids k) (rid : f.rid = b.nextRequest) :
    Leases.Takes (.request f) {id | f.HasSpan id} (b.leases ids) ((b.receive f k).leases ids) := by
  have new : ∀ {id}, f.HasSpan id → ∃ m, b.draws ≤ m ∧ m < k + 1 ∧ id = ids m := by
    rintro id (rfl | rfl)
    · exact ⟨k, by omega, by omega, gateway⟩
    · exact ⟨j, by omega, by omega, total⟩
  -- nothing was answered under a number that is given only now
  have unanswered : ¬ b.answered f.rid := fun answered => by
    have := roll.answered_lt answered
    omega
  have holds : ∀ o id, (b.receive f k).holds o id ↔
      b.holds o id ∨ (o = .request f ∧ f.HasSpan id) := fun o id => by
    cases o with
    | request g =>
      simp only [SpanBook.holds, receive, List.mem_cons, SpanOwner.request.injEq, or_and_right]
      refine or_comm.trans (or_congr_right (and_congr_right fun same => ?_))
      rw [same]
    | attempt c n => exact (or_iff_left fun other => by cases other.1).symm
  refine ⟨fun {id} mine => ?_, fun {id} used => ?_, (holds ..).mp, fun {o id} => ?_, .rfl⟩
  · obtain ⟨m, now, -, same⟩ := new mine
    exact not_used distinct now same
  · rcases used with before | mine
    · exact used_mono (show b.draws ≤ k + 1 by omega) before
    · obtain ⟨m, -, drawn, same⟩ := new mine
      exact ⟨m, drawn, same⟩
  · refine (and_congr_left' (holds o id)).trans (or_and_right.trans (or_congr .rfl ?_))
    refine and_iff_left_of_imp ?_
    rintro ⟨rfl, -⟩
    exact unanswered

/-- A request that is answered gives its spans back. -/
theorem answer_gives (roll : b.Roll) (known : f ∈ b.received) :
    Leases.Gives (.request f) (b.leases ids) ((b.answer f).leases ids) := by
  refine ⟨fun before => before, fun held => held, fun {o id} => ?_, fun {id} => ?_⟩
  · cases o with
    | request g =>
      constructor
      · rintro ⟨held, owes⟩
        refine ⟨⟨held, fun before => owes (.inl before)⟩, fun same => owes (.inr ?_)⟩
        rw [SpanOwner.request.inj same]
      · rintro ⟨⟨held, owes⟩, other⟩
        refine ⟨held, fun answered => ?_⟩
        rcases answered with before | same
        · exact owes before
        -- two requests have two numbers
        · exact other (congrArg _ (roll.unique held.1 known same))
    | attempt c n => exact (and_iff_left fun same => by cases same).symm
  · exact and_congr_right' (not_congr (and_iff_right known).symm)

/-- An attempt takes one span out. -/
theorem fire_takes (distinct : Function.Injective ids) {k : ℕ} (stored : b.calls c = some call)
    (closed : call.span = none) (drawn : b.draws ≤ k) :
    Leases.Takes (.attempt c (call.attempt + 1)) {ids k} (b.leases ids)
      ((b.fire c call k (ids k)).leases ids) := by
  -- the span of the attempt before this one is closed
  have shut : ∀ call, b.calls c = some call → call.span = none := fun call' stored' => by
    rw [stored] at stored'
    exact Option.some.inj stored' ▸ closed
  have holds : ∀ o id, (b.fire c call k (ids k)).holds o id ↔
      b.holds o id ∨ (o = .attempt c (call.attempt + 1) ∧ id = ids k) := fun o id => by
    refine (holds_put b c ⟨call.onDone, call.attempt + 1, some (ids k)⟩ o id).trans ?_
    refine or_congr ?_ (and_congr_right fun _ => Option.some_inj.trans eq_comm)
    exact and_iff_left_of_imp fun held => ne_attempt_of_holds shut held
  refine ⟨fun mine => not_used distinct drawn mine, fun used => ?_, (holds ..).mp,
    fun {o id} => ?_, .rfl⟩
  · rcases used with before | mine
    · exact used_mono (show b.draws ≤ k + 1 by omega) before
    · exact ⟨k, Nat.lt_succ_self k, mine⟩
  · have owes : (b.fire c call k (ids k)).owes o ↔ b.owes o := by cases o <;> exact .rfl
    refine (and_congr (holds o id) owes).trans (or_and_right.trans (or_congr .rfl ?_))
    refine and_iff_left_of_imp ?_
    rintro ⟨rfl, -⟩
    trivial

/-- An attempt that is over gives its span back. -/
theorem close_gives (stored : b.calls c = some call) (opened : call.span = some id) :
    Leases.Gives (.attempt c call.attempt) (b.leases ids)
      (((b.close id).put c { call with span := none }).leases ids) := by
  have mine : ∀ {o i}, b.holds o i → ((∀ n, o ≠ .attempt c n) ↔ o ≠ .attempt c call.attempt) := by
    refine fun {o i} held => ⟨fun others => others _, fun other n same => other ?_⟩
    -- A call has one attempt underway.
    subst same
    obtain ⟨call', stored', rfl, -⟩ := held
    rw [stored] at stored'
    rw [Option.some.inj stored']
  have holds : ∀ o i, ((b.close id).put c { call with span := none }).holds o i ↔
      b.holds o i ∧ o ≠ .attempt c call.attempt := fun o i => by
    refine (holds_put ..).trans ((or_iff_left fun new => by cases new.2).trans ?_)
    exact and_congr_right mine
  refine ⟨fun before => before, fun held => ((holds ..).mp held).1, fun {o i} => ?_, fun {i} => ?_⟩
  · have owes : ((b.close id).put c { call with span := none }).owes o ↔ b.owes o := by
      cases o <;> exact .rfl
    exact (and_congr (holds o i) owes).trans and_right_comm
  · refine and_congr_right' (not_congr ⟨?_, ?_⟩)
    · rintro rfl
      exact ⟨call, stored, rfl, opened⟩
    · rintro ⟨call', stored', -, opened'⟩
      rw [stored] at stored'
      rw [← Option.some.inj stored', opened] at opened'
      exact (Option.some.inj opened').symm

/-- What a move does to the leases: one owner takes spans out, or gives them back. -/
theorem Move.leases (distinct : Function.Injective ids) (roll : b.Roll) (m : Move ids b b') :
    (∃ o S, Leases.Takes o S (b.leases ids) (b'.leases ids)) ∨
      ∃ o, Leases.Gives o (b.leases ids) (b'.leases ids) := by
  cases m with
  | draw later => exact .inl ⟨.attempt 0 0, ∅, .none _ (used_mono later) .rfl .rfl .rfl⟩
  | queue known => exact .inl ⟨.attempt 0 0, ∅, .none _ (fun before => before) .rfl .rfl .rfl⟩
  | receive drawn order total gateway rid =>
    exact .inl ⟨_, _, receive_takes distinct roll drawn order total gateway rid⟩
  | answer known => exact .inr ⟨_, answer_gives roll known⟩
  | @start c f new known =>
    have closed : ∀ call, b.calls c = some call → call.span = none := fun call stored => by
      rw [new] at stored
      cases stored
    refine .inl ⟨.attempt 0 0, ∅, .none _ (fun before => before) ?_ ?_ .rfl⟩
    · refine fun {o id} => (holds_put ..).trans ?_
      refine (or_iff_left fun opened => by cases opened.2).trans ?_
      exact and_iff_left_of_imp fun held => ne_attempt_of_holds closed held
    · exact fun {o} => by cases o <;> exact .rfl
  | fire stored closed drawn => exact .inl ⟨_, _, fire_takes distinct stored closed drawn⟩
  | close stored opened => exact .inr ⟨_, close_gives stored opened⟩
  | @destroy c call stored closed =>
    have shut : ∀ call, b.calls c = some call → call.span = none := fun call' stored' => by
      rw [stored] at stored'
      exact Option.some.inj stored' ▸ closed
    refine .inl ⟨.attempt 0 0, ∅, .none _ (fun before => before) ?_ ?_ .rfl⟩
    · refine fun {o id} => (holds_erase ..).trans ?_
      exact and_iff_left_of_imp fun held => ne_attempt_of_holds shut held
    · exact fun {o} => by cases o <;> exact .rfl

/-! ## Moves -/

/-- The book can be trusted. -/
structure Sound (ids : ℕ → String) (b : SpanBook) : Prop where
  roll : b.Roll
  balanced : (b.leases ids).Balanced

/-- Any number of moves. -/
abbrev Moves (ids : ℕ → String) : SpanBook → SpanBook → Prop := Relation.ReflTransGen (Move ids)

theorem Roll.moves (h : b.Roll) (moves : Moves ids b b') : b'.Roll := by
  induction moves with
  | refl => exact h
  | tail _ last ih => exact ih.move last

theorem sound_of_moves (distinct : Function.Injective ids) (h : b.Sound ids)
    (moves : Moves ids b b') : b'.Sound ids := by
  induction moves with
  | refl => exact h
  | tail _ last ih =>
    refine ⟨ih.roll.move last, ?_⟩
    rcases last.leases distinct ih.roll with ⟨o, S, taken⟩ | ⟨o, given⟩
    · exact ih.balanced.takes taken
    · exact ih.balanced.gives given

theorem later_of_moves (distinct : Function.Injective ids) (h : b.Roll) (moves : Moves ids b b') :
    (b.leases ids).Later (b'.leases ids) := by
  induction moves with
  | refl => exact .refl _
  | tail before last ih =>
    rcases last.leases distinct (h.moves before) with ⟨o, S, taken⟩ | ⟨o, given⟩
    · exact ih.trans taken.later
    · exact ih.trans given.later

end SpanBook

end Perfacet
