import Perfacet.Frontend.Responses
import Perfacet.Pipeline.RoundTrip

/-!
# The gateway and its clients

The connections of the clients and the pipeline run on one event loop. A request that the front end
does not answer by itself goes to the pipeline with a callback, which writes the answer to the
connection that the request has come from. Here both run together, with the threads on which the
backends are called: from the bytes that a client sends to the bytes that it gets.

A callback that throws, and a request whose handling throws, end the process, so they lead to no
state. What a connection does once its client has closed it is left out; such a connection is one
that nothing is read from any more.

## Main definitions

* `Service` — the connections, and what the callbacks of the requests have captured
* `Service.machine` — connections, loop and threads under all interleavings
* `Service.Talk` — what is observed on a connection

## Main results

* `Service.talks_of_run` — a client gets the answers to its own requests, each once
* `Service.served_of_run` — when nothing is left to do, every request has been answered
-/

namespace Perfacet

open Connection

/-- What the gateway is made of: its environment, the largest body it accepts, the parsers of HTTP
and of JSON, its clients, and how a JSON number is read as an integer. -/
structure Site (σ : Type) where
  env : Env
  maxBody : ℕ
  llhttp : Llhttp σ
  parser : JsonParser
  identity : YamlIdentityStore
  trunc : FloatText → ℤ

/-- The gateway with its connections. The callback that was passed to the pipeline with request
`rid` has captured what is the `rid`-th of `asked`: the connection and the id of the request. -/
structure Service (σ : Type) where
  core : RoundTrip
  conns : List (Connection σ) := []
  asked : List (ℕ × Json) := []

/-- What may happen: a client connects, bytes are read, a queued `onMessage` is called, or the
pipeline or a thread goes on. -/
inductive ServiceInput
  | accept (stream : Bytes)
  | read (k n : ℕ) (clk : Clock) (upstreams : String → Reply)
  | run (k : ℕ) (clk : Clock) (upstreams : String → Reply)
  | core (i : RoundTripInput)

namespace Service

variable {σ : Type}

section
variable (d : Site σ)

/-- The front end when it handles a request. The call of the pipeline is made by `ask`. -/
def frontEnd (s : Service σ) (clk : Clock) (upstreams : String → Reply) : FrontEnd where
  srv := { parser := d.parser, identity := d.identity, stopping := s.core.pipeline.stopping }
  cfg := d.env.cfg
  grants := s.core.pipeline.grants
  clk := clk
  upstreams := upstreams
  handle := fun _ => .ok none

/-- The callback of a request is called with the answer. -/
def hear (s : Service σ) : PipelineEvent → Option (Service σ)
  | .answered rid r =>
    match s.asked[rid]? with
    | some (k, id) =>
      match s.conns[k]?, HttpMcp.finish d.trunc id r with
      | some c, .ok reply => some { s with conns := s.conns.set k (c.doneWrite d.llhttp reply) }
      | _, _ => none
    | none => none
  | .threw _ => none
  | _ => some s

/-- The pipeline has gone on; callbacks were called in the order in which it says so. -/
def goOn (s : Service σ) (core : RoundTrip) : Option (Service σ) :=
  let news := core.pipeline.log.take (core.pipeline.log.length - s.core.pipeline.log.length)
  news.reverse.foldlM (hear d) { s with core := core }

/-- `Pipeline::handle` is called with a request of connection `k`. -/
def ask (s : Service σ) (k : ℕ) (req : Request) (clk : Clock) : Option (Service σ) :=
  (s.core.step d.env d.parser (.loop (.handle req clk))).bind fun core =>
    { s with asked := s.asked ++ [(k, req.idJson)] }.goOn d core

/-- `onMessage` is called for connection `k`. A request that waits for its answer has been passed
on to the pipeline. -/
def onMessage (s : Service σ) (k : ℕ) (i : FrontEnd → Connection.Input) (v : FrontEnd) :
    Option (Service σ) :=
  match s.core.pipeline.idle, s.conns[k]? with
  | true, some c =>
    match c.step d.llhttp (i v) with
    | some c' =>
      let s := { s with conns := s.conns.set k c' }
      if c'.threw then none
      else if !c.session.busy && c'.session.busy then
        match v.srv.onMessage v.cfg v.grants c'.session.toMessage.http v.clk with
        | .ok req => s.ask d k req (v.clk.after 2)
        | .error _ => none
      else some s
    | none => none
  | _, _ => none

def step (s : Service σ) : ServiceInput → Option (Service σ)
  | .accept stream => some { s with
      conns := s.conns ++ [.onConn d.llhttp d.maxBody stream] }
  | .read k n clk upstreams => s.onMessage d k (.read n) (s.frontEnd d clk upstreams)
  | .run k clk upstreams => s.onMessage d k .run (s.frontEnd d clk upstreams)
  -- requests come from connections only
  | .core i => if i.asks then none else (s.core.step d.env d.parser i).bind (s.goOn d)

/-- The gateway before its first client. -/
def machine : TransitionSystem (Service σ) ServiceInput where
  init s := (RoundTrip.machine d.env d.parser).init s.core ∧ s.conns = [] ∧ s.asked = []
  step := step d

end

/-! ## What is observed on a connection -/

/-- What the callbacks have captured, and what the pipeline has logged. -/
structure Books where
  asked : List (ℕ × Json)
  log : List PipelineEvent

def books (s : Service σ) : Books := ⟨s.asked, s.core.pipeline.log⟩

/-- The requests of a connection that the pipeline has received, in their order. -/
def Books.ridsOf (b : Books) (k : ℕ) : List ℕ :=
  (List.range b.asked.length).filter fun rid => (b.asked[rid]?).any fun e => decide (e.1 = k)

/-- The front end as it answers by itself. -/
structure Alone (d : Site σ) (v : FrontEnd) : Prop where
  parser : v.srv.parser = d.parser
  identity : v.srv.identity = d.identity
  cfg : v.cfg = d.env.cfg
  handle : ∀ req, v.handle req = .ok none

/-- A message of connection `k` has passed the gate and become a request of the pipeline. -/
def Books.Asks (b : Books) (d : Site σ) (k rid : ℕ) (m : Message) : Prop :=
  ∃ v req, Alone d v ∧ v.handling m = .waits ∧
    v.srv.onMessage v.cfg v.grants m.http v.clk = .ok req ∧ .request rid req ∈ b.log ∧
      b.asked[rid]? = some (k, req.idJson)

/-- The answer of the pipeline to a request, as it is written. -/
def Books.Answers (b : Books) (d : Site σ) (k rid : ℕ) (r : Reply) : Prop :=
  ∃ id res, b.asked[rid]? = some (k, id) ∧ .answered rid res ∈ b.log ∧
    HttpMcp.finish d.trunc id res = .ok r

/-- What is observed on connection `k`, whose requests `rids` have been answered: bytes that are no
request are refused, and a message is answered by the front end alone or with the answer of the
pipeline to it. -/
inductive Talk (d : Site σ) (b : Books) (k : ℕ) : List ℕ → List Event → Prop
  | nil : Talk d b k [] []
  | refused {rids events r} : Talk d b k rids events → r = payloadTooLarge ∨ r = parseError →
      Talk d b k rids (events ++ [.wrote r])
  | answered {rids events m r v} : Talk d b k rids events → Alone d v → v.handling m = .answers r →
      Talk d b k rids (events ++ [.dispatched m] ++ [.wrote r])
  | served {rids events m r rid} : Talk d b k rids events → b.Asks d k rid m →
      b.Answers d k rid r →
      Talk d b k (rids ++ [rid]) (events ++ [.dispatched m] ++ [.wrote r])

/-- Connection `k` has the answers to all its requests, or waits for that to the last one. -/
inductive Stands (d : Site σ) (b : Books) (k : ℕ) (c : Connection σ) : Prop
  | idle : c.session.busy = false → Talk d b k (b.ridsOf k) c.log → Stands d b k c
  | waits (rids : List ℕ) (events : List Event) (m : Message) (rid : ℕ) :
      c.session.busy = true → b.ridsOf k = rids ++ [rid] → c.log = events ++ [.dispatched m] →
      Talk d b k rids events → b.Asks d k rid m → answersTo rid b.log = 0 → Stands d b k c

/-- Every connection stands well with the pipeline, and whatever the pipeline has received is a
request of one of them. -/
structure Coherent (d : Site σ) (b : Books) (conns : List (Connection σ)) : Prop where
  stands : ∀ k c, conns[k]? = some c → Stands d b k c
  known : ∀ (rid k : ℕ) (id : Json), b.asked[rid]? = some (k, id) → k < conns.length
  calm : ∀ rid, .threw rid ∉ b.log
  awake : ∀ c ∈ conns, c.Awake

section
variable {d : Site σ} {b b' : Books} {k k' rid : ℕ} {c c' : Connection σ} {m : Message} {r : Reply}
  {v : FrontEnd} {id : Json} {conns : List (Connection σ)}

/-! ### The books -/

theorem Books.mem_ridsOf : rid ∈ b.ridsOf k ↔ ∃ id, b.asked[rid]? = some (k, id) := by
  rw [ridsOf, List.mem_filter, List.mem_range, Option.any_eq_true]
  constructor
  · rintro ⟨-, ⟨k', id⟩, found, same⟩
    exact ⟨id, of_decide_eq_true same ▸ found⟩
  · rintro ⟨id, found⟩
    exact ⟨(List.getElem?_eq_some_iff.mp found).1, (k, id), found, decide_eq_true rfl⟩

/-- A request is asked last. -/
theorem Books.ridsOf_append (b : Books) (k' : ℕ) (id : Json) (log : List PipelineEvent) (k : ℕ) :
    Books.ridsOf ⟨b.asked ++ [(k', id)], log⟩ k =
      b.ridsOf k ++ if k' = k then [b.asked.length] else [] := by
  have earlier : ((List.range b.asked.length).filter fun rid =>
      ((b.asked ++ [(k', id)])[rid]?).any fun e => decide (e.1 = k)) = b.ridsOf k := by
    refine List.filter_congr fun rid member => ?_
    rw [List.getElem?_append_left (List.mem_range.mp member)]
  rw [ridsOf, List.length_append, List.length_singleton, List.range_succ, List.filter_append,
    earlier]
  refine congrArg (b.ridsOf k ++ ·) ?_
  rw [List.filter_cons, List.getElem?_concat_length]
  split <;> simp_all

/-- The books go on. -/
structure Books.Later (b b' : Books) : Prop where
  asked : b.asked <+: b'.asked
  log : b.log ⊆ b'.log

theorem Books.later_cons (b : Books) (e : PipelineEvent) : b.Later ⟨b.asked, e :: b.log⟩ :=
  ⟨List.prefix_rfl, List.subset_cons_self _ _⟩

/-- An event that is no answer to a request does not count for it. -/
theorem answersTo_cons_of_silent {e : PipelineEvent} {log : List PipelineEvent}
    (silent : e.isAnswer rid = false) : answersTo rid (e :: log) = answersTo rid log := by
  rw [Core.answersTo_cons, silent]
  exact Nat.zero_add _

namespace Books.Later

theorem getElem? (later : b.Later b') {e : ℕ × Json} (found : b.asked[rid]? = some e) :
    b'.asked[rid]? = some e := by
  obtain ⟨more, same⟩ := later.asked
  rw [← same, List.getElem?_append_left (List.getElem?_eq_some_iff.mp found).1, found]

theorem asks (later : b.Later b') (asks : b.Asks d k rid m) : b'.Asks d k rid m := by
  obtain ⟨v, req, alone, waits, passed, received, found⟩ := asks
  exact ⟨v, req, alone, waits, passed, later.log received, later.getElem? found⟩

theorem answers (later : b.Later b') (answers : b.Answers d k rid r) : b'.Answers d k rid r := by
  obtain ⟨id, res, found, answered, finished⟩ := answers
  exact ⟨id, res, later.getElem? found, later.log answered, finished⟩

theorem talk (later : b.Later b') {rids : List ℕ} {events : List Event}
    (talk : Talk d b k rids events) : Talk d b' k rids events := by
  induction talk with
  | nil => exact .nil
  | refused _ which ih => exact ih.refused which
  | answered _ alone handled ih => exact ih.answered alone handled
  | served _ asks answers ih => exact ih.served (later.asks asks) (later.answers answers)

end Books.Later

/-- Whoever has been served has an answer. -/
theorem Talk.answersTo_pos {rids : List ℕ} {events : List Event} (talk : Talk d b k rids events)
    (member : rid ∈ rids) : 0 < answersTo rid b.log := by
  induction talk with
  | nil => cases member
  | refused _ _ ih => exact ih member
  | answered _ _ _ ih => exact ih member
  | served _ _ answers ih =>
    rcases List.mem_append.mp member with older | last
    · exact ih older
    · obtain rfl := List.mem_singleton.mp last
      obtain ⟨id, res, -, answered, -⟩ := answers
      exact List.countP_pos_iff.mpr ⟨_, answered, decide_eq_true rfl⟩

/-! ### Callbacks -/

/-- Nothing is said to the connection. -/
theorem Stands.later (stands : Stands d b k c) (later : b.Later b')
    (same : b'.ridsOf k = b.ridsOf k)
    (silent : ∀ rid ∈ b.ridsOf k, answersTo rid b.log = 0 → answersTo rid b'.log = 0) :
    Stands d b' k c := by
  cases stands with
  | idle free talk => exact .idle free (same ▸ later.talk talk)
  | waits rids events m rid busy all logged talk asks unanswered =>
    refine .waits rids events m rid busy (same.trans all) logged (later.talk talk)
      (later.asks asks) (silent rid ?_ unanswered)
    rw [all]
    exact List.mem_append_right _ List.mem_cons_self

/-- The answer to the request that a connection waits for is written to it. -/
theorem Stands.doneWrite {res : Response} (stands : Stands d b k c)
    (unanswered : answersTo rid b.log = 0) (found : b.asked[rid]? = some (k, id))
    (finished : HttpMcp.finish d.trunc id res = .ok r) :
    Stands d ⟨b.asked, .answered rid res :: b.log⟩ k (c.doneWrite d.llhttp r) := by
  have later := b.later_cons (.answered rid res)
  have own : rid ∈ b.ridsOf k := Books.mem_ridsOf.mpr ⟨id, found⟩
  cases stands with
  | idle free talk => exact absurd (talk.answersTo_pos own) (by omega)
  | waits rids events m rid' busy all logged talk asks unheard =>
    rw [all] at own
    rcases List.mem_append.mp own with older | last
    · exact absurd (talk.answersTo_pos older) (by omega)
    · obtain rfl := List.mem_singleton.mp last
      refine .idle rfl ?_
      change Talk d _ k (b.ridsOf k) (c.log ++ [.wrote r])
      rw [all, logged]
      exact (later.talk talk).served (later.asks asks)
        ⟨id, res, found, List.mem_cons_self, finished⟩

/-- Something happens on one connection. -/
theorem Coherent.set (coherent : Coherent d b conns)
    (others : ∀ k' c, k' ≠ k → conns[k']? = some c → Stands d b k' c → Stands d b' k' c)
    (here : k < conns.length → Stands d b' k c')
    (known : ∀ (rid k' : ℕ) (id : Json), b'.asked[rid]? = some (k', id) → k' < conns.length)
    (calm : ∀ rid, .threw rid ∉ b'.log) (awake : c'.Awake) :
    Coherent d b' (conns.set k c') where
  stands := fun k' c here' => by
    rw [List.getElem?_set] at here'
    split at here'
    · next same =>
      obtain rfl := same
      split at here'
      · next within =>
        obtain rfl := Option.some.inj here'
        exact here within
      · cases here'
    · next other => exact others k' c (Ne.symm other) here' (coherent.stands k' c here')
  known := fun rid k' id found => by
    rw [List.length_set]
    exact known rid k' id found
  calm := calm
  awake := fun c member => (List.mem_or_eq_of_mem_set member).elim (coherent.awake c)
    fun same => same ▸ awake

theorem Coherent.calm_cons {e : PipelineEvent} (coherent : Coherent d b conns)
    (returned : ∀ rid, e ≠ .threw rid) (rid : ℕ) : .threw rid ∉ e :: b.log := by
  intro member
  rcases List.mem_cons.mp member with same | older
  · exact returned rid same.symm
  · exact coherent.calm rid older

/-- A callback is called. -/
theorem Coherent.answer {res : Response} (coherent : Coherent d b conns)
    (unanswered : answersTo rid b.log = 0) (found : b.asked[rid]? = some (k, id))
    (here : conns[k]? = some c) (finished : HttpMcp.finish d.trunc id res = .ok r) :
    Coherent d ⟨b.asked, .answered rid res :: b.log⟩ (conns.set k (c.doneWrite d.llhttp r)) := by
  have later := b.later_cons (.answered rid res)
  have calm := coherent.calm_cons (e := .answered rid res) (by rintro rid' ⟨⟩)
  refine coherent.set (fun k' c' other _ stands => ?_) (fun _ => ?_) coherent.known calm
    fun _ => .inr (Nat.succ_pos _)
  · refine stands.later later rfl fun rid' member unheard => ?_
    obtain ⟨id', found'⟩ := Books.mem_ridsOf.mp member
    have apart : rid ≠ rid' := by
      rintro rfl
      rw [found] at found'
      exact other (Prod.mk.inj (Option.some.inj found')).1.symm
    rw [answersTo_cons_of_silent (e := .answered rid res) (decide_eq_false apart), unheard]
  · exact (coherent.stands k c here).doneWrite unanswered found finished

/-- Nobody is told. -/
theorem Coherent.silent {e : PipelineEvent} (coherent : Coherent d b conns)
    (unanswered : ∀ rid, e.isAnswer rid = false) (returned : ∀ rid, e ≠ .threw rid) :
    Coherent d ⟨b.asked, e :: b.log⟩ conns where
  stands := fun k c here => by
    refine (coherent.stands k c here).later (b.later_cons e) rfl fun rid _ unheard => ?_
    rw [answersTo_cons_of_silent (unanswered rid), unheard]
  known := coherent.known
  calm := coherent.calm_cons returned
  awake := coherent.awake

/-! ### Messages -/

/-- What a call of `onMessage` comes to on a connection, which was busy or not and had observed
something, for a front end that answers by itself. -/
inductive Reacts (v : FrontEnd) (busy : Bool) (events : List Event) (c' : Connection σ) : Prop
  | quiet : c'.session.busy = busy → c'.log = events → Reacts v busy events c'
  | refused (r : Reply) : busy = false → c'.session.busy = false →
      r = payloadTooLarge ∨ r = parseError → c'.log = events ++ [.wrote r] → Reacts v busy events c'
  | answered (m : Message) (r : Reply) : busy = false → c'.session.busy = false →
      v.handling m = .answers r → c'.log = events ++ [.dispatched m] ++ [.wrote r] →
      Reacts v busy events c'
  | asks (m : Message) : busy = false → c'.session.busy = true → v.handling m = .waits →
      c'.session.toMessage = m → c'.log = events ++ [.dispatched m] → Reacts v busy events c'

theorem reacts_dispatch (free : c.session.busy = false)
    (running : (c.dispatch d.llhttp v).threw = false) :
    Reacts v false c.log (c.dispatch d.llhttp v) := by
  unfold Connection.dispatch at running ⊢
  split
  · exact .quiet free rfl
  · next complete =>
    rw [if_neg complete] at running
    dsimp only at running ⊢
    cases how : v.handling c.session.toMessage with
    | answers r => exact .answered _ r rfl rfl how rfl
    | waits => exact .asks _ rfl rfl how rfl rfl
    | throws =>
      rw [how] at running
      cases running

theorem reacts_onMessage (running : (c.onMessage d.llhttp v).threw = false) :
    Reacts v c.session.busy c.log (c.onMessage d.llhttp v) := by
  unfold Connection.onMessage at running ⊢
  cases free : c.session.busy with
  | true => exact .quiet free rfl
  | false =>
    rw [free] at running
    simp only [Bool.false_eq_true, if_false] at running ⊢
    have still := (c.session.execute_keeps (P := d.llhttp) c.input.readable).2
    generalize c.session.execute d.llhttp c.input.readable = out at running still ⊢
    obtain ⟨session, err⟩ := out
    split
    · exact .quiet free rfl
    · next some =>
      rw [if_neg some] at running
      dsimp only at running ⊢
      split
      · exact .refused _ rfl rfl (.inl rfl) rfl
      · next small =>
        rw [if_neg small] at running
        have idle : session.busy = false := still.trans free
        cases err with
        | ok => exact reacts_dispatch idle running
        | paused consumed => exact reacts_dispatch idle running
        | failed => exact .refused _ rfl idle (.inr rfl) rfl

/-- A connection has answered by itself, or has read something. -/
theorem Coherent.react (coherent : Coherent d b conns) (alone : Alone d v)
    (here : conns[k]? = some c) (reacts : Reacts v c.session.busy c.log c')
    (own : (!c.session.busy && c'.session.busy) = false) (awake : c'.Awake) :
    Coherent d b (conns.set k c') := by
  refine coherent.set (fun _ _ _ _ stands => stands) (fun _ => ?_) coherent.known
    coherent.calm awake
  cases coherent.stands k c here with
  | idle free talk =>
    cases reacts with
    | quiet busy logged => exact .idle (busy.trans free) (logged ▸ talk)
    | refused r _ free' which logged => exact .idle free' (logged ▸ talk.refused which)
    | answered m r _ free' how logged => exact .idle free' (logged ▸ talk.answered alone how)
    | asks m _ busy => simp [free, busy] at own
  | waits rids events m rid busy all logged talk asks unanswered =>
    cases reacts with
    | quiet same logged' =>
      exact .waits rids events m rid (same.trans busy) all (logged'.trans logged) talk asks
        unanswered
    | refused _ free | answered _ _ free | asks _ free =>
      rw [busy] at free
      cases free

/-- A connection has passed a request on to the pipeline. -/
theorem Coherent.ask {req : Request} (coherent : Coherent d b conns) (alone : Alone d v)
    (here : conns[k]? = some c) (reacts : Reacts v c.session.busy c.log c')
    (passed : (!c.session.busy && c'.session.busy) = true)
    (req_eq : v.srv.onMessage v.cfg v.grants c'.session.toMessage.http v.clk = .ok req)
    (fresh : answersTo b.asked.length b.log = 0) (awake : c'.Awake) :
    Coherent d ⟨b.asked ++ [(k, req.idJson)], .request b.asked.length req :: b.log⟩
      (conns.set k c') := by
  have later : b.Later ⟨b.asked ++ [(k, req.idJson)], .request b.asked.length req :: b.log⟩ :=
    ⟨List.prefix_append .., List.subset_cons_self _ _⟩
  have quiet (rid : ℕ) : answersTo rid (.request b.asked.length req :: b.log) =
      answersTo rid b.log := answersTo_cons_of_silent rfl
  rw [Bool.and_eq_true, Bool.not_eq_true'] at passed
  have calm := coherent.calm_cons (e := .request b.asked.length req) (by rintro rid ⟨⟩)
  refine coherent.set (fun k' c other _ stands => ?_) (fun _ => ?_)
    (fun rid k' id found => ?_) calm awake
  · refine stands.later later ?_ fun rid _ unheard => (quiet rid).trans unheard
    rw [Books.ridsOf_append, if_neg (Ne.symm other), List.append_nil]
  · cases coherent.stands k c here with
    | waits _ _ _ _ busy =>
      rw [passed.1] at busy
      cases busy
    | idle _ talk =>
      cases reacts with
      | quiet same =>
        rw [passed.1, passed.2] at same
        cases same
      | refused _ _ free | answered _ _ _ free =>
        rw [passed.2] at free
        cases free
      | asks m _ busy how same logged =>
        refine .waits (b.ridsOf k) c.log m b.asked.length busy ?_ logged (later.talk talk) ?_
          ((quiet _).trans fresh)
        · rw [Books.ridsOf_append, if_pos rfl]
        · exact ⟨v, req, alone, how, same ▸ req_eq, List.mem_cons_self,
            List.getElem?_concat_length⟩
  · rcases Nat.lt_or_ge rid b.asked.length with older | last
    · rw [List.getElem?_append_left older] at found
      exact coherent.known rid k' id found
    · rw [List.getElem?_append_right last, List.getElem?_singleton] at found
      split at found
      · obtain rfl := (Prod.mk.inj (Option.some.inj found)).1
        exact (List.getElem?_eq_some_iff.mp here).1
      · cases found

/-- A client connects. -/
theorem Coherent.accept (coherent : Coherent d b conns) (stream : Bytes) :
    Coherent d b (conns ++ [.onConn d.llhttp d.maxBody stream]) where
  stands := fun k c here => by
    rcases Nat.lt_or_ge k conns.length with older | last
    · rw [List.getElem?_append_left older] at here
      exact coherent.stands k c here
    · rw [List.getElem?_append_right last, List.getElem?_singleton] at here
      split at here
      · obtain rfl := Option.some.inj here
        have none : b.ridsOf k = [] := List.eq_nil_iff_forall_not_mem.mpr fun rid member => by
          obtain ⟨id, found⟩ := Books.mem_ridsOf.mp member
          exact absurd (coherent.known rid k id found) (Nat.not_lt.mpr last)
        refine .idle rfl ?_
        rw [none]
        exact .nil
      · cases here
  known := fun rid k id found => by
    rw [List.length_append]
    exact Nat.lt_add_right _ (coherent.known rid k id found)
  calm := coherent.calm
  awake := fun c member => by
    rcases List.mem_append.mp member with older | last
    · exact coherent.awake c older
    · obtain rfl := List.mem_singleton.mp last
      exact fun some => absurd Buffer.readable_empty some

variable {s s' : Service σ} {e : PipelineEvent} {log : List PipelineEvent}

/-- What one event makes of the connections. -/
theorem coherent_hear (coherent : Coherent d ⟨s.asked, log⟩ s.conns)
    (once : ∀ rid, answersTo rid (e :: log) ≤ 1) (heard : s.hear d e = some s') :
    Coherent d ⟨s'.asked, e :: log⟩ s'.conns ∧ s'.asked = s.asked ∧ s'.core = s.core := by
  have quiet (unanswered : ∀ rid, e.isAnswer rid = false) (returned : ∀ rid, e ≠ .threw rid)
      (same : s = s') : Coherent d ⟨s'.asked, e :: log⟩ s'.conns ∧ s'.asked = s.asked ∧
        s'.core = s.core := by
    obtain rfl := same
    exact ⟨coherent.silent unanswered returned, rfl, rfl⟩
  cases e with
  | answered rid res =>
    simp only [hear] at heard
    split at heard
    · next k id found =>
      split at heard
      · next c r here finished =>
        obtain rfl := Option.some.inj heard
        refine ⟨coherent.answer ?_ found here finished, rfl, rfl⟩
        have bound := once rid
        rw [Core.answersTo_cons] at bound
        simp only [PipelineEvent.isAnswer, decide_true, Bool.toNat_true] at bound
        change answersTo rid log = 0
        omega
      · cases heard
    · cases heard
  | threw rid => cases heard
  | _ => exact quiet (fun _ => rfl) (fun _ => (by rintro ⟨⟩)) (Option.some.inj heard)

/-- What some events make of the connections. -/
theorem coherent_news {news : List PipelineEvent} (coherent : Coherent d ⟨s.asked, log⟩ s.conns)
    (once : ∀ rid, answersTo rid (news.reverse ++ log) ≤ 1)
    (heard : news.foldlM (hear d) s = some s') :
    Coherent d ⟨s'.asked, news.reverse ++ log⟩ s'.conns ∧ s'.asked = s.asked ∧
      s'.core = s.core := by
  induction news generalizing s log with
  | nil =>
    obtain rfl := Option.some.inj heard
    exact ⟨coherent, rfl, rfl⟩
  | cons e news ih =>
    rw [List.foldlM_cons] at heard
    obtain ⟨s₁, first, others⟩ := Option.bind_eq_some_iff.mp heard
    have all : (e :: news).reverse ++ log = news.reverse ++ e :: log := by simp
    rw [all] at once ⊢
    have least (rid : ℕ) : answersTo rid (e :: log) ≤ 1 := by
      have bound := once rid
      rw [Core.answersTo_append] at bound
      omega
    obtain ⟨coherent₁, asked, core⟩ := coherent_hear coherent least first
    obtain ⟨coherent₂, asked', core'⟩ := ih coherent₁ once others
    exact ⟨coherent₂, asked'.trans asked, core'.trans core⟩

/-! ## One step -/

/-- What holds of the gateway: its connections stand well with the pipeline, and whatever the
pipeline has received has come from one of them. -/
structure Sound (d : Site σ) (s : Service σ) : Prop where
  coherent : Coherent d s.books s.conns
  numbered : s.asked.length = s.core.pipeline.nextRequest
  reached : ∃ h, (RoundTrip.machine d.env d.parser).Run h s.core

variable {core : RoundTrip} {new : List PipelineEvent} {i : Connection.Input}
  {k' : RoundTripInput} {req : Request} {clk : Clock}
  {h : List (TransitionSystem.Step (Service σ) ServiceInput)}

theorem Sound.ok (sound : s.Sound d) : (s.core.pipeline.core .empty).Ok d.env := by
  obtain ⟨h, run⟩ := sound.reached
  exact RoundTrip.ok_of_run run

theorem Sound.reached_of_step (sound : s.Sound d)
    (stepped : s.core.step d.env d.parser k' = some core) :
    ∃ h, (RoundTrip.machine d.env d.parser).Run h core := by
  obtain ⟨h, run⟩ := sound.reached
  exact ⟨_, run.next stepped⟩

/-- Without a new request the pipeline says more, and numbers no request. -/
theorem log_of_step (ok : (s.core.pipeline.core .empty).Ok d.env) (own : k'.asks = false)
    (stepped : s.core.step d.env d.parser k' = some core) :
    s.core.pipeline.log <:+ core.pipeline.log ∧
      core.pipeline.nextRequest = s.core.pipeline.nextRequest := by
  rcases RoundTrip.pipeline_of_step stepped with same | ⟨i, asks, step⟩
  · rw [same]
    exact ⟨List.suffix_rfl, rfl⟩
  · exact ⟨PipelineState.log_moves (PipelineState.step_moves ok step
      (PipelineState.keeps_none ..)),
      PipelineState.nextRequest_of_step ok.queues (asks.trans own) step⟩

theorem alone_frontEnd (s : Service σ) (clk : Clock) (upstreams : String → Reply) :
    Alone d (s.frontEnd d clk upstreams) := ⟨rfl, rfl, rfl, fun _ => rfl⟩

/-- The events that are new are those in front of the old ones. -/
theorem news_of_goOn (grown : core.pipeline.log = new ++ s.core.pipeline.log)
    (taken : s.goOn d core = some s') :
    new.reverse.foldlM (hear d) { s with core := core } = some s' := by
  have news : core.pipeline.log.take (core.pipeline.log.length - s.core.pipeline.log.length) =
      new := by
    rw [grown, List.length_append, Nat.add_sub_cancel, List.take_left' rfl]
  rw [← news]
  exact taken

/-- The pipeline goes on without a new request. -/
theorem Sound.goOn (sound : s.Sound d) (own : k'.asks = false)
    (stepped : s.core.step d.env d.parser k' = some core) (taken : s.goOn d core = some s') :
    s'.Sound d := by
  obtain ⟨⟨new, grown⟩, next⟩ := log_of_step sound.ok own stepped
  obtain ⟨h, run⟩ := sound.reached_of_step stepped
  have once (rid : ℕ) : answersTo rid (new.reverse.reverse ++ s.core.pipeline.log) ≤ 1 := by
    rw [List.reverse_reverse, grown]
    exact PipelineState.answersTo_le_one (RoundTrip.ok_of_run run) rid
  obtain ⟨coherent, asked, same⟩ :=
    coherent_news (s := { s with core := core }) sound.coherent once (news_of_goOn grown.symm taken)
  rw [List.reverse_reverse, grown] at coherent
  refine ⟨?_, ?_, same ▸ ⟨h, run⟩⟩
  · rw [books, same]
    exact coherent
  · rw [asked, same, next]
    exact sound.numbered

/-- What has been read is handled, or a queued `onMessage` is called. -/
theorem reacts_step (calls : i = .run v ∨ ∃ n, i = .read n v)
    (taken : c.step d.llhttp i = some c') (running : c'.threw = false) :
    Reacts v c.session.busy c.log c' := by
  obtain ⟨-, taken⟩ := act_of_step taken
  rcases calls with rfl | ⟨n, rfl⟩
  · obtain ⟨-, taken⟩ := Option.ite_none_right_eq_some.mp taken
    obtain rfl := Option.some.inj taken
    exact reacts_onMessage (c := { c with queued := c.queued - 1 }) running
  · obtain ⟨-, taken⟩ := Option.ite_none_right_eq_some.mp taken
    obtain rfl := Option.some.inj taken
    exact reacts_onMessage (c := { c with
      incoming := c.incoming.drop n, input := c.input.readFd (c.incoming.take n) }) running

/-- The pipeline receives a request of a connection. -/
theorem Sound.ask (sound : s.Sound d) (here : s.conns[k]? = some c) (alone : Alone d v)
    (reacts : Reacts v c.session.busy c.log c')
    (passed : (!c.session.busy && c'.session.busy) = true)
    (req_eq : v.srv.onMessage v.cfg v.grants c'.session.toMessage.http v.clk = .ok req)
    (awake : c'.Awake)
    (taken : Service.ask d { s with conns := s.conns.set k c' } k req clk = some s') :
    s'.Sound d := by
  obtain ⟨core, stepped, gone⟩ := Option.bind_eq_some_iff.mp taken
  obtain ⟨h, run⟩ := sound.reached_of_step stepped
  have looped : s.core.loop d.env (.handle req clk) = some core := stepped
  obtain ⟨-, looped⟩ := Option.ite_none_left_eq_some.mp looped
  obtain ⟨pipeline, handled, rfl⟩ := Option.map_eq_some_iff.mp looped
  have works := PipelineState.works_of_handle handled
  obtain ⟨new, grown, -⟩ := works.log
  have fresh : answersTo s.asked.length s.core.pipeline.log = 0 := by
    have places := PipelineState.places_of_ok sound.ok s.asked.length
    rw [sound.numbered, decide_eq_false (Nat.lt_irrefl _), Bool.toNat_false] at places
    rw [sound.numbered]
    omega
  have logged : pipeline.log = new ++ .request s.asked.length req :: s.core.pipeline.log := by
    rw [sound.numbered]
    exact grown
  -- the arrival is told first, and nobody is called back for it
  have told := news_of_goOn (logged.trans (List.append_cons ..)) gone
  rw [List.reverse_append, List.reverse_singleton, List.singleton_append, List.foldlM_cons] at told
  have asks := sound.coherent.ask alone here reacts passed req_eq fresh awake
  have once (rid : ℕ) : answersTo rid
      (new.reverse.reverse ++ .request s.asked.length req :: s.core.pipeline.log) ≤ 1 := by
    rw [List.reverse_reverse, ← logged]
    exact PipelineState.answersTo_le_one (RoundTrip.ok_of_run run) rid
  obtain ⟨coherent, asked, same⟩ := coherent_news asks once told
  rw [List.reverse_reverse] at coherent
  refine ⟨?_, ?_, same ▸ ⟨h, run⟩⟩
  · rw [books, same, logged]
    exact coherent
  · rw [asked, same, List.length_append, List.length_singleton, sound.numbered]
    exact works.next.symm

/-- `onMessage` is called for a connection. -/
theorem Sound.onMessage {call : FrontEnd → Connection.Input} (sound : s.Sound d)
    (alone : Alone d v) (calls : call v = .run v ∨ ∃ n, call v = .read n v)
    (taken : s.onMessage d k call v = some s') : s'.Sound d := by
  unfold Service.onMessage at taken
  split at taken
  · next c idle here =>
    split at taken
    · next c' stepped =>
      obtain ⟨running, taken⟩ := Option.ite_none_left_eq_some.mp taken
      have reacts := reacts_step calls stepped (by simpa using running)
      have awake := awake_step stepped
      split at taken
      · next passed =>
        split at taken
        · next req req_eq => exact sound.ask here alone reacts passed req_eq awake taken
        · cases taken
      · next own =>
        obtain rfl := Option.some.inj taken
        exact ⟨sound.coherent.react alone here reacts (Bool.not_eq_true _ ▸ own) awake,
          sound.numbered, sound.reached⟩
    · cases taken
  · cases taken

theorem sound_of_init (first : (machine d).init s) : s.Sound d := by
  obtain ⟨first, conns, asked⟩ := first
  have reached : (RoundTrip.machine d.env d.parser).Run [] s.core := .start first
  obtain ⟨⟨health, index, grants, started⟩, -⟩ := first
  have logged : s.core.pipeline.log = [] := by
    rw [started]
    rfl
  refine ⟨⟨fun k c here => ?_, fun rid k id found => ?_, fun rid member => ?_,
    fun c member => ?_⟩, ?_, [], reached⟩
  · rw [conns] at here
    cases here
  · rw [books, asked] at found
    cases found
  · rw [books, logged] at member
    cases member
  · rw [conns] at member
    cases member
  · rw [asked, started]
    rfl

/-- Every step keeps the gateway sound. -/
theorem Sound.step {i : ServiceInput} (sound : s.Sound d) (taken : s.step d i = some s') :
    s'.Sound d := by
  cases i with
  | accept stream =>
    obtain rfl := Option.some.inj taken
    exact ⟨sound.coherent.accept stream, sound.numbered, sound.reached⟩
  | read k n clk upstreams =>
    exact sound.onMessage (alone_frontEnd ..) (.inr ⟨n, rfl⟩) taken
  | run k clk upstreams => exact sound.onMessage (alone_frontEnd ..) (.inl rfl) taken
  | core i =>
    obtain ⟨own, stepped⟩ := Option.ite_none_left_eq_some.mp taken
    obtain ⟨core, stepped, gone⟩ := Option.bind_eq_some_iff.mp stepped
    exact sound.goOn (by simpa using own) stepped gone

/-! ## All runs -/

theorem sound_of_run (run : (machine d).Run h s) : s.Sound d :=
  run.invariant (fun _ => sound_of_init) fun _ _ _ taken sound => sound.step taken

/-- In every run each connection has got the answers to its own messages, in their order and each
once, and what the pipeline has received is the requests of the connections. -/
theorem talks_of_run (run : (machine d).Run h s) :
    (∀ k c, s.conns[k]? = some c → Stands d s.books k c) ∧
      ∀ rid req, .request rid req ∈ s.core.pipeline.log →
        ∃ k c, s.conns[k]? = some c ∧ rid ∈ s.books.ridsOf k := by
  have sound := sound_of_run run
  refine ⟨sound.coherent.stands, fun rid req received => ?_⟩
  have known : rid < s.asked.length := by
    rw [sound.numbered]
    exact sound.ok.orderly.numbered.request received
  have found : s.asked[rid]? = some s.asked[rid] := List.getElem?_eq_getElem known
  have here := sound.coherent.known rid _ _ found
  exact ⟨_, _, List.getElem?_eq_getElem here, Books.mem_ridsOf.mpr ⟨_, found⟩⟩

end

namespace Example

open PipeliningExample PipelineExample

/-- A request to call a tool. -/
def calling : Json :=
  .ofMembers [("id", .int 1), ("method", .str "tools/call"), ("params", .ofMembers
    [("name", .str "b__t"), ("arguments", .object), ("_meta",
      .ofMembers [(kMetaProtocol, .str kProtocolVersion), (kMetaCaps, .object)])])]

theorem allUtf8_calling : calling.allUtf8 = true := by decide

def toolsCall : Bytes :=
  request ["POST /mcp HTTP/1.1", "Accept: application/json", "MCP-Protocol-Version: 2026-07-28",
    "Authorization: Bearer secret", "Mcp-Method: tools/call", "Mcp-Name: b__t",
    "Content-Length: 183"] (calling.write.map fun c => UInt8.ofNat c.toNat)

/-- One upstream, which cannot be reached, and one client who has a token. -/
def site : Site Place where
  env := gateway {}
  maxBody := 200
  llhttp := PipeliningExample.parser
  parser := FrontEndExample.parser calling allUtf8_calling
  identity := .ofAgents [⟨"ann", "secret", 0, true, false, "default"⟩]
  trunc _ := 0

def start : Service Place := { core := RoundTrip.start }

theorem start_init : (machine site).init start :=
  ⟨⟨PipelineExample.start_init _, ⟨1, 1, rfl⟩, rfl, rfl⟩, rfl, rfl⟩

/-- No list of upstreams is asked for. -/
def unlisted (_ : String) : Reply := ⟨200, "OK", ""⟩

/-- One client calls a tool, and another one asks how the gateway is meanwhile. -/
def waiting : List ServiceInput :=
  [.accept toolsCall, .accept healthz, .read 0 toolsCall.length clk unlisted] ++
    [RoundTripInput.call, .add, .returns, .loop (.run clk)].map .core ++
      [.read 1 healthz.length clk unlisted]

/-- The call is tried twice. -/
def answered : List ServiceInput :=
  waiting ++ [RoundTripInput.pool (.look 0), .pool (.notifyOne none), .answer 0 clk {}, .serve clk,
    .call, .add, .returns, .drop 0, .loop (.run clk), .pool (.look 0), .pool (.notifyOne none),
    .answer 0 clk {}, .pool (.look 0), .serve clk, .drop 0, .loop (.run clk),
    .loop (.run clk)].map .core ++ [.run 0 clk unlisted, .run 1 clk unlisted]

end Example

open Example in
/-- The second client has its answer while the first one waits. -/
theorem talks_of_run_waiting : ∃ (s : Service PipeliningExample.Place) (c c' : Connection _),
    c.session.busy = true ∧ c'.session.busy = false ∧ Stands site s.books 0 c ∧
      Stands site s.books 1 c' := by
  obtain ⟨h, s, run, -, reached⟩ := TransitionSystem.exists_run waiting (fun _ _ => true)
    (fun s : Service _ => (s.conns[0]?).any (fun c : Connection _ => c.session.busy) &&
      (s.conns[1]?).any fun c : Connection _ => !c.session.busy) start_init (by decide +kernel)
  simp only [Bool.and_eq_true, Option.any_eq_true, Bool.not_eq_true'] at reached
  obtain ⟨⟨c, here, busy⟩, c', here', free⟩ := reached
  have stands := (talks_of_run run).1
  exact ⟨s, c, c', busy, free, stands 0 c here, stands 1 c' here'⟩

section
variable {d : Site σ} {s : Service σ}
  {h : List (TransitionSystem.Step (Service σ) ServiceInput)}

/-- When nothing is left to do, every byte that a client has sent has been looked at, and every
connection has got the answers to all its messages. -/
theorem served_of_run (run : (machine d).Run h s) (rest : s.core.AtRest)
    (quiet : ∀ c ∈ s.conns, c.incoming = [] ∧ c.queued = 0) {k : ℕ} {c : Connection σ}
    (here : s.conns[k]? = some c) :
    c.session.busy = false ∧ c.input.readable = [] ∧ Talk d s.books k (s.books.ridsOf k) c.log := by
  have sound := sound_of_run run
  have member := List.mem_of_getElem? here
  obtain ⟨h', reached⟩ := sound.reached
  have none := (RoundTrip.linked_of_run reached).calls_eq_empty (RoundTrip.kept_of_run reached)
    sound.ok rest
  cases sound.coherent.stands k c here with
  | idle free talk =>
    refine ⟨free, by_contra fun some => ?_, talk⟩
    rcases sound.coherent.awake c member some with busy | queued
    · rw [free] at busy
      cases busy
    · exact absurd (quiet c member).2 (Nat.ne_of_gt queued)
  | waits rids events m rid _ _ _ _ asks unanswered =>
    obtain ⟨v, req, -, -, -, received, -⟩ := asks
    have answered := rest.answered sound.ok none (sound.ok.orderly.numbered.request received)
    have returned := throwsOf_eq_zero_iff.mpr (sound.coherent.calm rid)
    change answersTo rid s.core.pipeline.log = 0 at unanswered
    change throwsOf rid s.core.pipeline.log = 0 at returned
    omega

end

open Example in
/-- Both clients have been answered. -/
theorem served_of_run_answered : ∃ (s : Service PipeliningExample.Place) (c : Connection _),
    s.conns[0]? = some c ∧ c.session.busy = false ∧ c.input.readable = [] ∧
      c.log.length = 2 ∧ Talk site s.books 0 (s.books.ridsOf 0) c.log := by
  obtain ⟨h, s, run, -, reached⟩ := TransitionSystem.exists_run answered (fun _ _ => true)
    (fun s : Service _ => s.core.resting &&
      s.conns.all (fun c : Connection _ => c.incoming.isEmpty && c.queued = 0) &&
        (s.conns[0]?).any fun c : Connection _ => decide (c.log.length = 2))
    start_init (by decide +kernel)
  simp only [Bool.and_eq_true, List.all_eq_true, List.isEmpty_iff, decide_eq_true_eq,
    Option.any_eq_true] at reached
  obtain ⟨⟨rest, quiet⟩, c, here, two⟩ := reached
  obtain ⟨free, read, talk⟩ := served_of_run run (RoundTrip.atRest_of_resting rest) quiet here
  exact ⟨s, c, here, free, read, two, talk⟩

end Service

end Perfacet
