import Perfacet.Govern.LocalGovernor
import Perfacet.Lib.Transition

/-!
# Runs of the governor

The governor together with its clients: `Permit` variables, the callbacks that `acquire`
was given, and the event loop that runs the queue timers. A permit gives its slot back in
its destructor and in a move assignment, and either may call back into a client, which may
again move and destroy permits. So a state has a stack of the C++ calls that have not
returned. Whoever is on top goes on: the code of a client, which may do anything with
permits, or the governor's own code.

## Main definitions

* `Impl`, `Var`, `Frame` — what a `Permit` points to, permit variables, unfinished calls
* `GovernorState`, `GovernorInput`, `GovernorState.step` — the transition system
* `Governor.machine` — its runs from an idle governor
-/

namespace Perfacet

/-- `Governor::Permit::Impl`. `serial` is the number of the `acquire` it was issued for. -/
structure Impl where
  key : ToolKey
  agentId : String
  held : Bool
  serial : ℕ
  deriving DecidableEq, Repr

/-- A permit variable: one that client code declares, or the parameter of a callback,
numbered by the callbacks that have run. -/
inductive Var
  | user (name : ℕ)
  | param (callback : ℕ)
  deriving DecidableEq, Repr

/-- A call that has not returned: the loop of `tryDequeue`, the body of a callback with its
permit parameter, the rest of `operator=` after the release, or `rejectAllQueued` with the
tools it still has to visit. -/
inductive Frame
  | dequeue (toolStr : String)
  | body (param : Var)
  | assignTail (dst src : Var)
  | rejectAll (tools : List String)
  deriving DecidableEq, Repr

/-- What happens at the interface of the governor. `waited` is the deadline of a request
that had to queue, with the clock reading before which it had to be. -/
inductive GovernorEvent
  | acquire (n : ℕ) (key : ToolKey) (agentId : String)
  | go (n : ℕ) (key : ToolKey) (agentId : String) (waited : Option (UInt64 × UInt64))
  | reject (n : ℕ)
  | release (serial : ℕ) (key : ToolKey) (agentId : String)
  deriving DecidableEq, Repr

structure GovernorState where
  gov : LocalGovernor ℕ
  vars : UnorderedMap Var (Option Impl) := ∅
  stack : List Frame := []
  nextAcquire : ℕ := 0
  nextCallback : ℕ := 0
  log : List GovernorEvent := []

/-- A step. Client code and the event loop choose what to do; `run` lets the governor's own
code on top of the stack go on, with the clock reading it may make. -/
inductive GovernorInput
  | declare (name : ℕ)
  | construct (dst : ℕ) (src : Var)
  | assign (dst src : Var)
  | destroy (name : ℕ)
  | acquire (who : Principal) (key : ToolKey) (waitDeadlineMs now : UInt64)
  | toolsListed (backend : String) (tools : List String)
  | rejectAll (order : List String)
  | timer (id : ℕ)
  | ret
  | run (now : UInt64)

/-- The step lets the governor's own code go on. -/
def GovernorInput.runs : GovernorInput → Bool
  | .run _ => true
  | _ => false

namespace GovernorState

/-- Client code is running: nothing else is, or a callback is on top. -/
def client (s : GovernorState) : Bool :=
  match s.stack with
  | [] => true
  | .body _ :: _ => true
  | _ => false

/-- What a variable points to; `none` for a variable that does not exist. -/
def impl (s : GovernorState) (v : Var) : Option (Option Impl) := s.vars.lookup v

/-- Call a callback: its parameter holds the permit, and its body starts. -/
def callBack (s : GovernorState) (permit : Option Impl) (stack : List Frame) : GovernorState :=
  { s with
    vars := s.vars.insert (.param s.nextCallback) permit
    nextCallback := s.nextCallback + 1
    stack := .body (.param s.nextCallback) :: stack }

/-- `onAdmit(Admit::Go, issue(...))`, after `take`. -/
def onAdmitGo (s : GovernorState) (gov : LocalGovernor ℕ) (n : ℕ) (key : ToolKey) (agentId : String)
    (waited : Option (UInt64 × UInt64)) (stack : List Frame) : GovernorState :=
  { s with gov := gov, log := .go n key agentId waited :: s.log }.callBack
    (some ⟨key, agentId, true, n⟩) stack

/-- `onAdmit(Admit::Reject, Permit{})`. -/
def onAdmitReject (s : GovernorState) (gov : LocalGovernor ℕ) (n : ℕ) (stack : List Frame) :
    GovernorState :=
  { s with gov := gov, log := .reject n :: s.log }.callBack none stack

/-- `impl_->gov->releaseSlot(...)`, up to the loop of `tryDequeue`, which is pushed. -/
def release (s : GovernorState) (i : Impl) (stack : List Frame) : GovernorState :=
  { s with
    gov := s.gov.releaseSlot i.key i.agentId
    log := .release i.serial i.key i.agentId :: s.log
    stack := .dequeue i.key.str :: stack }

/-- The destructor of a permit variable. -/
def destruct (s : GovernorState) (v : Var) (old : Option Impl) (stack : List Frame) :
    GovernorState :=
  let s := { s with vars := s.vars.erase v, stack := stack }
  match old with
  | some i => if i.held then s.release i stack else s
  | none => s

/-- `impl_ = std::move(o.impl_)`: the target's old `Impl` is freed, not returned. -/
def moveImpl (s : GovernorState) (dst src : Var) (moved : Option Impl) (stack : List Frame) :
    GovernorState :=
  { s with vars := (s.vars.insert dst moved).insert src none, stack := stack }

/-- `operator=` between different variables, up to its last statement, which is pushed. -/
def assign (s : GovernorState) (dst src : Var) (old : Option Impl) : GovernorState :=
  let tail := .assignTail dst src :: s.stack
  match old with
  | some i =>
    if i.held then
      { s with vars := s.vars.insert dst (some { i with held := false }) }.release i tail
    else { s with stack := tail }
  | none => { s with stack := tail }

/-- A variable that a suspended `operator=` refers to. -/
def pinned (s : GovernorState) (v : Var) : Bool :=
  s.stack.any fun f =>
    match f with
    | .assignTail dst src => v = dst || v = src
    | _ => false

/-- The governor's own code on top of the stack goes on. -/
def runTop (s : GovernorState) (now : UInt64) : Option GovernorState :=
  match s.stack with
  | .dequeue ts :: below =>
    match s.gov.tryDequeueTurn ts now with
    | (_, .stop) => some { s with stack := below }
    -- after a rejection the loop goes on; after an admission it is left
    | (gov, .reject w) => some (s.onAdmitReject gov w.cb (.dequeue ts :: below))
    | (gov, .go w) =>
      some (s.onAdmitGo gov w.cb w.key w.who.agentId (some (w.deadlineMs, now)) below)
  | .assignTail dst src :: below =>
    match s.impl dst, s.impl src with
    | some _, some moved => some (s.moveImpl dst src moved below)
    | _, _ => none
  | .rejectAll [] :: below => some { s with stack := below }
  | .rejectAll (ts :: tools) :: below =>
    match s.gov.rejectTurn ts with
    | (_, none) => some { s with stack := .rejectAll tools :: below }
    | (gov, some w) => some (s.onAdmitReject gov w.cb (.rejectAll (ts :: tools) :: below))
  | _ => none

/-- One step. Client steps need a client to be running, and a timer fires when nothing is. -/
def step (s : GovernorState) : GovernorInput → Option GovernorState
  | .declare name =>
    if s.client && (s.impl (.user name)).isNone then
      some { s with vars := s.vars.insert (.user name) none }
    else none
  | .construct dst src =>
    match s.client && (s.impl (.user dst)).isNone, s.impl src with
    | true, some moved => some (s.moveImpl (.user dst) src moved s.stack)
    | _, _ => none
  | .assign dst src =>
    -- `operator=` does nothing between a variable and itself
    match s.client, s.impl dst, s.impl src with
    | true, some old, some _ => if dst = src then some s else some (s.assign dst src old)
    | _, _, _ => none
  | .destroy name =>
    -- what a suspended `operator=` refers to is still in scope
    match s.client && !s.pinned (.user name), s.impl (.user name) with
    | true, some old => some (s.destruct (.user name) old s.stack)
    | _, _ => none
  | .acquire who key waitDeadlineMs now =>
    if s.client then
      -- the callback goes by the number of its call
      let n := s.nextAcquire
      let s := { s with
        nextAcquire := n + 1, log := .acquire n key who.agentId :: s.log }
      match s.gov.acquire who key waitDeadlineMs n now with
      | (gov, .go) => some (s.onAdmitGo gov n key who.agentId none s.stack)
      | (gov, .queued) => some { s with gov := gov }
      | (gov, .reject) => some (s.onAdmitReject gov n s.stack)
    else none
  | .toolsListed backend tools =>
    if s.client then some { s with gov := s.gov.onToolsListed backend tools } else none
  | .rejectAll order =>
    -- the queues stand in a hash map, which may be walked in any order
    if s.client && decide (order.Perm s.gov.queues.keys) then
      some { s with stack := .rejectAll order :: s.stack }
    else none
  | .timer id =>
    -- the event loop runs a timer when nothing else runs
    if s.stack.isEmpty then
      match s.gov.expire id with
      | some (gov, some w) => some (s.onAdmitReject gov w.cb [])
      | some (gov, none) => some { s with gov := gov }
      | none => none
    else none
  | .ret =>
    match s.stack with
    -- the parameter of a callback is destroyed when its body returns
    | .body v :: below =>
      match s.impl v with
      | some old => some (s.destruct v old below)
      | none => none
    | _ => none
  | .run now => s.runTop now

end GovernorState

/-! ## What a step can do -/

/-- A permit variable that does not hold a slot. -/
def Free (old : Option Impl) : Prop := ∀ i, old = some i → i.held = false

/-- The step runs the destructor of the variable `v` and goes on with `stack`: the end of a
declared variable, or the return of a callback that has it as its parameter. -/
def GovernorState.Drops (s : GovernorState) (input : GovernorInput) (v : Var)
    (stack : List Frame) : Prop :=
  (∃ name, input = .destroy name ∧ v = .user name ∧ stack = s.stack) ∨
    (input = .ret ∧ s.stack = .body v :: stack)

theorem GovernorState.Drops.mem {s : GovernorState} {input : GovernorInput} {v : Var}
    {stack : List Frame} {f : Frame} (drops : s.Drops input v stack) (member : f ∈ stack) :
    f ∈ s.stack := by
  rcases drops with ⟨-, -, -, rfl⟩ | ⟨-, top⟩
  · exact member
  · rw [top]
    exact List.mem_cons_of_mem _ member

/-- The rules of the machine: everything one step can do. -/
inductive GovernorState.Effect (s : GovernorState) : GovernorInput → GovernorState → Prop
  | declare {name} (new : s.impl (.user name) = none) :
      Effect s (.declare name) { s with vars := s.vars.insert (.user name) none }
  | construct {dst src moved} (new : s.impl (.user dst) = none)
      (source : s.impl src = some moved) :
      Effect s (.construct dst src) (s.moveImpl (.user dst) src moved s.stack)
  | assignSelf {v} : Effect s (.assign v v) s
  | assignFree {dst src old} (apart : dst ≠ src) (target : s.impl dst = some old)
      (free : Free old) :
      Effect s (.assign dst src) { s with stack := .assignTail dst src :: s.stack }
  | assignHeld {dst src i} (apart : dst ≠ src) (target : s.impl dst = some (some i))
      (held : i.held = true) :
      Effect s (.assign dst src)
        ({ s with vars := s.vars.insert dst (some { i with held := false }) }.release i
          (.assignTail dst src :: s.stack))
  | dropFree {input v old stack} (drops : s.Drops input v stack)
      (target : s.impl v = some old) (free : Free old) :
      Effect s input { s with vars := s.vars.erase v, stack := stack }
  | dropHeld {input v i stack} (drops : s.Drops input v stack)
      (target : s.impl v = some (some i)) (held : i.held = true) :
      Effect s input ({ s with vars := s.vars.erase v, stack := stack }.release i stack)
  | acquireGo {who key waitDeadlineMs now} (free : s.gov.canTake key.str who.agentId = true) :
      Effect s (.acquire who key waitDeadlineMs now)
        (({ s with
            nextAcquire := s.nextAcquire + 1
            log := .acquire s.nextAcquire key who.agentId :: s.log }).onAdmitGo
          (s.gov.take key.str who.agentId) s.nextAcquire key who.agentId none s.stack)
  | acquireQueued {who key waitDeadlineMs now deadline}
      (full : s.gov.canTake key.str who.agentId = false) :
      Effect s (.acquire who key waitDeadlineMs now)
        { s with
          nextAcquire := s.nextAcquire + 1
          log := .acquire s.nextAcquire key who.agentId :: s.log
          gov := s.gov.enqueue who key deadline s.nextAcquire }
  | acquireReject {who key waitDeadlineMs now} :
      Effect s (.acquire who key waitDeadlineMs now)
        (({ s with
            nextAcquire := s.nextAcquire + 1
            log := .acquire s.nextAcquire key who.agentId :: s.log }).onAdmitReject
          s.gov s.nextAcquire s.stack)
  | toolsListed {backend tools} :
      Effect s (.toolsListed backend tools) { s with gov := s.gov.onToolsListed backend tools }
  | rejectAll {order} (all : order.Perm s.gov.queues.keys) :
      Effect s (.rejectAll order) { s with stack := .rejectAll order :: s.stack }
  | timer {id r} (idle : s.stack = []) (fired : s.gov.expire id = some r) :
      Effect s (.timer id)
        (match r with
          | (gov, some w) => s.onAdmitReject gov w.cb []
          | (gov, none) => { s with gov := gov })
  | stop {now ts below} (top : s.stack = .dequeue ts :: below)
      (blocked : ∀ w rest, s.gov.queue ts = w :: rest → s.gov.canTake ts w.who.agentId = false) :
      Effect s (.run now) { s with stack := below }
  | dequeueReject {now ts below w rest} (top : s.stack = .dequeue ts :: below)
      (front : s.gov.queue ts = w :: rest) (late : w.deadlineMs ≤ now) :
      Effect s (.run now) (s.onAdmitReject (s.gov.unqueue ts w rest) w.cb s.stack)
  | dequeueGo {now ts below w rest} (top : s.stack = .dequeue ts :: below)
      (front : s.gov.queue ts = w :: rest) (free : s.gov.canTake ts w.who.agentId = true)
      (early : now < w.deadlineMs) :
      Effect s (.run now)
        (s.onAdmitGo ((s.gov.unqueue ts w rest).take w.key.str w.who.agentId) w.cb w.key
          w.who.agentId (some (w.deadlineMs, now)) below)
  | assignTail {now dst src old moved below} (top : s.stack = .assignTail dst src :: below)
      (target : s.impl dst = some old) (source : s.impl src = some moved) :
      Effect s (.run now) (s.moveImpl dst src moved below)
  | rejectDone {now below} (top : s.stack = .rejectAll [] :: below) :
      Effect s (.run now) { s with stack := below }
  | rejectNext {now ts tools below} (top : s.stack = .rejectAll (ts :: tools) :: below)
      (empty : s.gov.queue ts = []) :
      Effect s (.run now) { s with stack := .rejectAll tools :: below }
  | rejectHead {now ts tools below w rest} (top : s.stack = .rejectAll (ts :: tools) :: below)
      (front : s.gov.queue ts = w :: rest) :
      Effect s (.run now) (s.onAdmitReject (s.gov.unqueue ts w rest) w.cb s.stack)

namespace GovernorState

variable {s s' : GovernorState} {input : GovernorInput}

private theorem destruct_effect {v : Var} {old : Option Impl} {stack : List Frame}
    (drops : s.Drops input v stack) (target : s.impl v = some old) :
    Effect s input (s.destruct v old stack) := by
  cases old with
  | none => exact .dropFree drops target fun i h => by cases h
  | some i =>
    cases held : i.held with
    | true => simpa [destruct, held] using Effect.dropHeld drops target held
    | false =>
      have free : Free (some i) := fun j same => Option.some.inj same ▸ held
      simpa [destruct, held] using Effect.dropFree drops target free

private theorem assign_effect {dst src : Var} {old : Option Impl} (apart : dst ≠ src)
    (target : s.impl dst = some old) : Effect s (.assign dst src) (s.assign dst src old) := by
  cases old with
  | none => exact .assignFree apart target fun i h => by cases h
  | some i =>
    cases held : i.held with
    | true => simpa [assign, held] using Effect.assignHeld apart target held
    | false =>
      have free : Free (some i) := fun j same => Option.some.inj same ▸ held
      simpa [assign, held] using Effect.assignFree apart target free

private theorem runTop_effect {now : UInt64} (h : s.runTop now = some s') :
    Effect s (.run now) s' := by
  unfold runTop at h
  split at h
  · next ts below top =>
    rcases s.gov.tryDequeueTurn_cases ts now with
      ⟨turn, blocked⟩ | ⟨w, rest, front, free, ⟨late, turn⟩ | ⟨early, turn⟩⟩
    · rw [turn] at h
      cases h
      exact .stop top blocked
    · rw [turn, ← top] at h
      cases h
      exact .dequeueReject top front late
    · rw [turn] at h
      cases h
      exact .dequeueGo top front free early
  · next dst src below top =>
    split at h
    · next old moved target source =>
      cases h
      exact .assignTail top target source
    · cases h
  · next below top =>
    cases h
    exact .rejectDone top
  · next ts tools below top =>
    rcases s.gov.rejectTurn_cases ts with ⟨turn, empty⟩ | ⟨w, rest, front, turn⟩
    · rw [turn] at h
      cases h
      exact .rejectNext top empty
    · rw [turn, ← top] at h
      cases h
      exact .rejectHead top front
  · cases h

/-- Every step follows one of the rules. -/
theorem step_effect (h : s.step input = some s') : Effect s input s' := by
  cases input with
  | declare name =>
    simp only [step, Option.ite_none_right_eq_some, Bool.and_eq_true, Option.isNone_iff_eq_none,
      Option.some.injEq] at h
    obtain ⟨⟨-, new⟩, rfl⟩ := h
    exact .declare new
  | construct dst src =>
    simp only [step] at h
    split at h
    · next moved allowed source =>
      rw [Bool.and_eq_true, Option.isNone_iff_eq_none] at allowed
      cases h
      exact .construct allowed.2 source
    · cases h
  | assign dst src =>
    simp only [step] at h
    split at h
    · next target source =>
      split at h
      · next same =>
        cases h
        cases same
        exact .assignSelf
      · next apart =>
        cases h
        exact assign_effect apart target
    · cases h
  | destroy name =>
    simp only [step] at h
    split at h
    · next target =>
      cases h
      exact destruct_effect (.inl ⟨name, rfl, rfl, rfl⟩) target
    · cases h
  | acquire who key waitDeadlineMs now =>
    simp only [step, Option.ite_none_right_eq_some] at h
    obtain ⟨-, h⟩ := h
    rcases s.gov.acquire_cases who key waitDeadlineMs s.nextAcquire now with
      ⟨free, outcome⟩ | ⟨full, deadline, -, outcome⟩ | ⟨-, outcome⟩
    · rw [outcome] at h
      cases h
      exact .acquireGo free
    · rw [outcome] at h
      cases h
      exact .acquireQueued full
    · rw [outcome] at h
      cases h
      exact .acquireReject
  | toolsListed backend tools =>
    simp only [step, Option.ite_none_right_eq_some, Option.some.injEq] at h
    obtain ⟨-, rfl⟩ := h
    exact .toolsListed
  | rejectAll order =>
    simp only [step, Option.ite_none_right_eq_some, Bool.and_eq_true, decide_eq_true_eq,
      Option.some.injEq] at h
    obtain ⟨⟨-, all⟩, rfl⟩ := h
    exact .rejectAll all
  | timer id =>
    simp only [step, Option.ite_none_right_eq_some, List.isEmpty_iff] at h
    obtain ⟨idle, h⟩ := h
    split at h
    · next fired =>
      cases h
      exact .timer idle fired
    · next fired =>
      cases h
      exact .timer idle fired
    · cases h
  | ret =>
    simp only [step] at h
    split at h
    · next v below top =>
      split at h
      · next target =>
        cases h
        exact destruct_effect (.inr ⟨rfl, top⟩) target
      · cases h
    · cases h
  | run now => exact runTop_effect h

end GovernorState

/-- The events that a step logged. -/
def Governor.logged (t : TransitionSystem.Step GovernorState GovernorInput) :
    List GovernorEvent :=
  t.post.log.take (t.post.log.length - t.pre.log.length)

/-- The governor with any configuration, started idle. -/
def Governor.machine : TransitionSystem GovernorState GovernorInput where
  init s := ∃ cfg, s = { gov := { cfg := cfg } }
  step := GovernorState.step

end Perfacet
