import Mathlib.Logic.Function.Basic
import Perfacet.Netlib.Timers

/-!
# The event loop

One thread runs `EventLoop::loop`. It waits for events, handles them, calls what other threads have
handed to it with `queueInLoop`, and flushes its connections; then it starts over. All other
threads may call `runInLoop`, `queueInLoop`, `runAfter`, `runEvery`, `cancel` and `quit` at any
time, and so may the callbacks that the loop calls. Such a call has several parts, and the other
threads go on between any two of them: it asks whether it is on the loop thread, whether the loop
is running, puts a task into the queue and writes to the eventfd.

The timers are those of `TimerLoop`. Only the loop thread touches them.

## Main definitions

* `EventLoop` — the members of an event loop, where `loop` stands, and how far each thread has come
* `EventLoop.machine` — an event loop under all interleavings of its threads
* `EventLoop.Taken` — what a step does
-/

namespace Perfacet

/-- What is called on the loop thread. -/
inductive LoopTask (κ : Type*)
  | call (cb : κ)
  | insertTimer (t : Timer) (cb : κ)
  | cancelInLoop (id : TimerId)
  deriving DecidableEq

/-- How far a thread has come in a call. -/
inductive LoopCall (κ : Type*)
  | none
  | asking (task : LoopTask κ)
  | asked (inLoopThread : Bool) (task : LoopTask κ)
  | queueing (task : LoopTask κ)
  | waking

/-- What a thread may call, with the times that are read. -/
inductive LoopRequest (κ : Type*)
  | runInLoop (cb : κ)
  | queueInLoop (cb : κ)
  | runAfter (now : ℤ) (sec : Seconds) (cb : κ)
  | runEvery (now : ℤ) (sec : Seconds) (cb : κ)
  | cancel (id : TimerId)
  | quit

/-- A callback of an owner that it does not keep alive. -/
structure FlushEntry (κ : Type*) where
  owner : ℕ
  fn : κ
  deriving DecidableEq

/-- A channel that `poll` has found ready: the eventfd, the timerfd, or another. -/
inductive ReadyChannel
  | wakeup | timer
  | channel (fd : ℕ)
  deriving DecidableEq

/-- Where `loop` stands: before its first line, between its first two lines, at its condition,
around and in `processExpiredTimers`, in `poll`, in the handlers of the channels that are left, in
`handleTimerExpired`, in `doPending`, in `flushAll`, and behind its end. -/
inductive LoopPhase (κ : Type*)
  | outside | entering | top | due | expiring | ready
  | polling (deadline : Option ℤ)
  | dispatching (active : List ReadyChannel)
  | timing (active : List ReadyChannel)
  | pending
  | flushing (cbs : List (FlushEntry κ)) (running : Option (FlushEntry κ))
  | left

/-- The event loop. The expiry that the timerfd is set to, the counter of the eventfd, the owners
that are gone and the thread that runs `loop` are outside it. Beside them are what has been put
into the queue, what has been called from it, what had been put into it when `doPending` last
began, and what has been called without the queue; the entries that have been registered, those
that have been dropped, those there were when `flushAll` last began, and which of them it has
called. -/
structure EventLoop (τ κ : Type*) where
  tid : τ
  looping : Bool := false
  quit : Bool := false
  pending : List (LoopTask κ) := []
  fns : List (LoopTask κ) := []
  flushCbs : List (FlushEntry κ) := []
  timers : TimerLoop κ := {}
  armed : Option ℤ := none
  wakeup : ℕ := 0
  dead : Finset ℕ := ∅
  runner : Option τ := none
  phase : LoopPhase κ := .outside
  calls : τ → LoopCall κ := fun _ => .none
  posted : List (τ × LoopTask κ) := []
  served : List (LoopTask κ) := []
  round : List (τ × LoopTask κ) := []
  inlined : List (τ × LoopTask κ) := []
  registered : List (FlushEntry κ) := []
  dropped : List (FlushEntry κ) := []
  flushDue : List (FlushEntry κ) := []
  flushed : List (FlushEntry κ) := []

/-- The next part of what the loop thread does, with the times that are read. -/
inductive LoopMove
  | start
  | check (now : ℤ)
  | expire (now : ℤ) (expired : List Timer)
  | next | returns
  | finish (now : ℤ)
  | wait (now : ℤ)
  | poll (now : ℤ) (active : List ReadyChannel)
  | handle
  | handleTimer (now : ℤ) (expired : List Timer)
  | doPending
  | serve (now : ℤ)
  | flushAll
  | flush | flushReturns
  | again

/-- A thread begins a call or goes on with one; the loop thread registers a callback; an owner is
destroyed; a thread calls `loop` or goes on with it. -/
inductive LoopInput (τ κ : Type*)
  | request (th : τ) (r : LoopRequest κ)
  | proceed (th : τ) (now : ℤ)
  | registerFlush (e : FlushEntry κ)
  | release (owner : ℕ)
  | loop (th : τ)
  | move (m : LoopMove)

/-- An eventfd does not count further. -/
def eventfdMax : ℕ := 2 ^ 64 - 2

/-- An id is drawn for a timer. -/
def TimerLoop.create {κ : Type*} (s : TimerLoop κ) (now : ℤ) (sec interval : Seconds) (cb : κ) :
    TimerLoop κ :=
  { s with
    nextTimerId := s.nextTimerId + 1
    clock := now
    log := .created s.nextTimerId (now + sec.ns) interval cb :: s.log }

def LoopCall.isNone {κ : Type*} : LoopCall κ → Bool
  | .none => true
  | _ => false

/-- The loop thread makes calls from its callbacks, or when it has left the loop. -/
def LoopPhase.mayCall {κ : Type*} : LoopPhase κ → Bool
  | .expiring | .dispatching _ | .timing _ | .pending | .flushing _ _ | .left => true
  | _ => false

namespace EventLoop

variable {τ κ : Type*}

/-! ## The code -/

/-- When the first of the timers is due. -/
def top (s : EventLoop τ κ) : Option ℤ := (s.timers.timers.map (·.due)).min?

/-- Milliseconds, cut off and put into 32 bits. -/
def nextTimeoutMs (s : EventLoop τ κ) (now : ℤ) : ℤ :=
  match s.top with
  | none => -1
  | some due => (max 0 ((due - now).tdiv 1000000)).bmod (2 ^ 32)

/-- The timerfd is not set to a time that is over. -/
def resetTimerfd (s : EventLoop τ κ) (now : ℤ) : EventLoop τ κ :=
  { s with armed := s.top.map fun due => max due (now + 1) }

/-- A task is called. What a callback does beside that are calls of its own. -/
def exec (s : EventLoop τ κ) (now : ℤ) : LoopTask κ → EventLoop τ κ
  | .call _ => s
  | .insertTimer t cb =>
    resetTimerfd { s with timers := { s.timers.insertTimer t (some cb) with clock := now } } now
  | .cancelInLoop id => { s with timers := s.timers.cancelInLoop id }

section Calls

variable [DecidableEq τ]

def goOn (s : EventLoop τ κ) (th : τ) (c : LoopCall κ) : EventLoop τ κ :=
  { s with calls := Function.update s.calls th c }

/-- The thread is in no call, and if it is the loop thread, it is not in the loop's own code. -/
def mayCall (s : EventLoop τ κ) (th : τ) : Bool :=
  (s.calls th).isNone && (decide (s.runner ≠ some th) || s.phase.mayCall)

/-- The first part of a call, up to `inLoopThread`. -/
def request (s : EventLoop τ κ) (th : τ) : LoopRequest κ → Option (EventLoop τ κ)
  | .runInLoop cb => some (s.goOn th (.asking (.call cb)))
  | .queueInLoop cb => some (s.goOn th (.queueing (.call cb)))
  | .runAfter now sec cb =>
    if s.timers.clock ≤ now then
      some (goOn { s with timers := s.timers.create now sec .zero cb } th
        (.asking (.insertTimer ⟨now + sec.ns, .zero, s.timers.nextTimerId⟩ cb)))
    else none
  | .runEvery now sec cb =>
    if s.timers.clock ≤ now then
      some (goOn { s with timers := s.timers.create now sec sec cb } th
        (.asking (.insertTimer ⟨now + sec.ns, sec, s.timers.nextTimerId⟩ cb)))
    else none
  | .cancel id => some (s.goOn th (.asking (.cancelInLoop id)))
  | .quit => some (goOn { s with quit := true } th .waking)

/-- The next part of a call. -/
def proceed (s : EventLoop τ κ) (th : τ) (now : ℤ) : Option (EventLoop τ κ) :=
  match s.calls th with
  | .none => none
  | .asking task => some (s.goOn th (.asked (decide (s.tid = th)) task))
  | .asked inLoopThread task =>
    if inLoopThread && s.looping then
      some (exec { s.goOn th .none with inlined := s.inlined ++ [(th, task)] } now task)
    else some (s.goOn th (.queueing task))
  | .queueing task =>
    some { s.goOn th .waking with
      pending := s.pending ++ [task]
      posted := s.posted ++ [(th, task)] }
  | .waking => some { s.goOn th .none with wakeup := min (s.wakeup + 1) eventfdMax }

end Calls

/-- A step of `processExpiredTimers`. -/
def timersStep (s : EventLoop τ κ) (i : TimerInput κ) : Option (EventLoop τ κ) :=
  (s.timers.step i).map fun timers => { s with timers := timers }

/-- Its end, where the timerfd is set. -/
def finish (s : EventLoop τ κ) (now : ℤ) (phase : LoopPhase κ) : Option (EventLoop τ κ) :=
  if s.timers.clock ≤ now then
    (s.timers.step .finish).map fun timers =>
      resetTimerfd { s with timers := { timers with clock := now }, phase := phase } now
  else none

/-- Whether a channel is ready. -/
def isReady (s : EventLoop τ κ) (now : ℤ) : ReadyChannel → Bool
  | .wakeup => decide (0 < s.wakeup)
  | .timer => s.armed.any fun expiry => decide (expiry ≤ now)
  | .channel _ => true

/-- `poll` comes back with channels that are ready, or empty-handed when its time is over. -/
def poll (s : EventLoop τ κ) (now : ℤ) (active : List ReadyChannel) (deadline : Option ℤ) :
    Option (EventLoop τ κ) :=
  if s.timers.clock ≤ now ∧ active.all (s.isReady now) ∧
      (active ≠ [] ∨ deadline.any fun deadline => decide (deadline ≤ now)) then
    some { s with timers := { s.timers with clock := now }, phase := .dispatching active }
  else none

/-- The next part of `loop`. -/
def moved (s : EventLoop τ κ) : LoopMove → Option (EventLoop τ κ)
  | .start =>
    match s.phase with
    | .entering => some { s with looping := true, phase := .top }
    | _ => none
  | .check now =>
    match s.phase with
    | .top =>
      if s.quit then some { s with phase := .left }
      else if s.timers.clock ≤ now then
        some { s with
          timers := { s.timers with clock := now }
          phase := if s.nextTimeoutMs now = 0 then .due else .ready }
      else none
    | _ => none
  | .expire now expired =>
    match s.phase with
    | .due => timersStep { s with phase := .expiring } (.processExpired now expired)
    | _ => none
  | .next =>
    match s.phase with
    | .expiring | .timing _ => s.timersStep .next
    | _ => none
  | .returns =>
    match s.phase with
    | .expiring | .timing _ => s.timersStep .returns
    | _ => none
  | .finish now =>
    match s.phase with
    | .expiring => s.finish now .ready
    | .timing active => s.finish now (.dispatching active)
    | _ => none
  | .wait now =>
    match s.phase with
    | .ready =>
      if s.timers.clock ≤ now then
        let timeout := s.nextTimeoutMs now
        -- `epoll_wait` takes any negative number for no limit
        let deadline := if timeout < 0 then none else some (now + timeout * 1000000)
        some { s with timers := { s.timers with clock := now }, phase := .polling deadline }
      else none
    | _ => none
  | .poll now active =>
    match s.phase with
    | .polling deadline => s.poll now active deadline
    | _ => none
  | .handle =>
    match s.phase with
    | .dispatching (.wakeup :: active) => some { s with wakeup := 0, phase := .dispatching active }
    | .dispatching (.channel _ :: active) => some { s with phase := .dispatching active }
    | _ => none
  | .handleTimer now expired =>
    match s.phase with
    | .dispatching (.timer :: active) =>
      let armed := s.armed.filter fun expiry => decide (now < expiry)
      timersStep { s with armed := armed, phase := .timing active } (.processExpired now expired)
    | _ => none
  | .doPending =>
    match s.phase with
    | .dispatching [] =>
      some { s with pending := [], fns := s.pending, round := s.posted, phase := .pending }
    | _ => none
  | .serve now =>
    match s.phase, s.fns with
    | .pending, task :: fns =>
      if s.timers.clock ≤ now then
        some (exec { s with fns := fns, served := s.served ++ [task] } now task)
      else none
    | _, _ => none
  | .flushAll =>
    match s.phase, s.fns with
    | .pending, [] =>
      some { s with
        flushCbs := []
        flushDue := s.flushCbs
        flushed := []
        phase := .flushing s.flushCbs none }
    | _, _ => none
  | .flush =>
    match s.phase with
    | .flushing (e :: cbs) none =>
      if e.owner ∈ s.dead then
        some { s with dropped := s.dropped ++ [e], phase := .flushing cbs none }
      else some { s with flushed := s.flushed ++ [e], phase := .flushing cbs (some e) }
    | _ => none
  | .flushReturns =>
    match s.phase with
    | .flushing cbs (some e) =>
      some { s with flushCbs := s.flushCbs ++ [e], phase := .flushing cbs none }
    | _ => none
  | .again =>
    match s.phase with
    | .flushing [] none => some { s with phase := .top }
    | _ => none

/-- Calling a task changes nothing but the timers and what the timerfd is set to. -/
theorem exec_eq (s : EventLoop τ κ) (now : ℤ) (task : LoopTask κ) :
    ∃ timers armed, s.exec now task = { s with timers := timers, armed := armed } := by
  cases task with
  | call cb => exact ⟨s.timers, s.armed, rfl⟩
  | insertTimer t cb => exact ⟨_, _, rfl⟩
  | cancelInLoop id => exact ⟨s.timers.cancelInLoop id, s.armed, rfl⟩

variable [DecidableEq τ]

/-- The loop thread is in none of its calls. -/
def free (s : EventLoop τ κ) : Bool := s.runner.any fun th => (s.calls th).isNone

/-- An owner may go at any time, also while its callback is running: the `shared_ptr` that
`flushAll` tests is gone before the call. -/
def step (s : EventLoop τ κ) : LoopInput τ κ → Option (EventLoop τ κ)
  | .request th r => if s.mayCall th then s.request th r else none
  | .proceed th now => if s.timers.clock ≤ now then s.proceed th now else none
  | .registerFlush e =>
    if s.free && s.phase.mayCall && decide (e.owner ∉ s.dead) then
      some { s with flushCbs := s.flushCbs ++ [e], registered := s.registered ++ [e] }
    else none
  | .release owner => some { s with dead := insert owner s.dead }
  | .loop th =>
    match s.phase, (s.calls th).isNone with
    | .outside, true => some { s with tid := th, runner := some th, phase := .entering }
    | _, _ => none
  | .move m => if s.free then s.moved m else none

/-- An event loop that a thread has made. -/
def machine : TransitionSystem (EventLoop τ κ) (LoopInput τ κ) where
  init s := ∃ th clock, s = { tid := th, timers := { clock := clock } }
  step := step

/-! ## What a step does -/

/-- The effects of a step. -/
inductive Taken (s : EventLoop τ κ) : LoopInput τ κ → EventLoop τ κ → Prop
  | ran (th : τ) (cb : κ) : s.mayCall th = true →
      Taken s (.request th (.runInLoop cb)) (s.goOn th (.asking (.call cb)))
  | began (th : τ) (cb : κ) : s.mayCall th = true →
      Taken s (.request th (.queueInLoop cb)) (s.goOn th (.queueing (.call cb)))
  | created (th : τ) (r : LoopRequest κ) (now : ℤ) (sec interval : Seconds) (cb : κ) :
      s.mayCall th = true → s.timers.clock ≤ now →
      r = .runAfter now sec cb ∧ interval = .zero ∨ r = .runEvery now sec cb ∧ interval = sec →
      Taken s (.request th r)
        (goOn { s with timers := s.timers.create now sec interval cb } th
          (.asking (.insertTimer ⟨now + sec.ns, interval, s.timers.nextTimerId⟩ cb)))
  | cancelled (th : τ) (id : TimerId) : s.mayCall th = true →
      Taken s (.request th (.cancel id)) (s.goOn th (.asking (.cancelInLoop id)))
  | quitted (th : τ) : s.mayCall th = true →
      Taken s (.request th .quit) (goOn { s with quit := true } th .waking)
  | answered (th : τ) (now : ℤ) (task : LoopTask κ) : s.calls th = .asking task →
      Taken s (.proceed th now) (s.goOn th (.asked (decide (s.tid = th)) task))
  | inlined (th : τ) (now : ℤ) (task : LoopTask κ) : s.timers.clock ≤ now →
      s.calls th = .asked true task → s.looping = true →
      Taken s (.proceed th now)
        (exec { s.goOn th .none with inlined := s.inlined ++ [(th, task)] } now task)
  | declined (th : τ) (now : ℤ) (inLoopThread : Bool) (task : LoopTask κ) :
      s.calls th = .asked inLoopThread task →
      Taken s (.proceed th now) (s.goOn th (.queueing task))
  | queued (th : τ) (now : ℤ) (task : LoopTask κ) : s.calls th = .queueing task →
      Taken s (.proceed th now)
        { s.goOn th .waking with
          pending := s.pending ++ [task]
          posted := s.posted ++ [(th, task)] }
  | woke (th : τ) (now : ℤ) : s.calls th = .waking →
      Taken s (.proceed th now) { s.goOn th .none with wakeup := min (s.wakeup + 1) eventfdMax }
  | registered (e : FlushEntry κ) : s.free = true → s.phase.mayCall = true → e.owner ∉ s.dead →
      Taken s (.registerFlush e)
        { s with flushCbs := s.flushCbs ++ [e], registered := s.registered ++ [e] }
  | released (owner : ℕ) : Taken s (.release owner) { s with dead := insert owner s.dead }
  | entered (th : τ) : s.phase = .outside → (s.calls th).isNone = true →
      Taken s (.loop th) { s with tid := th, runner := some th, phase := .entering }
  | started : s.free = true → s.phase = .entering →
      Taken s (.move .start) { s with looping := true, phase := .top }
  | left (now : ℤ) : s.free = true → s.phase = .top → s.quit = true →
      Taken s (.move (.check now)) { s with phase := .left }
  | checked (now : ℤ) (phase : LoopPhase κ) : s.free = true → s.phase = .top → s.quit = false →
      s.timers.clock ≤ now → phase = .due ∨ phase = .ready →
      Taken s (.move (.check now))
        { s with timers := { s.timers with clock := now }, phase := phase }
  | expired (now : ℤ) (expired : List Timer) (timers : TimerLoop κ) : s.free = true →
      s.phase = .due → TimerLoop.Taken s.timers (.processExpired now expired) timers →
      Taken s (.move (.expire now expired)) { s with timers := timers, phase := .expiring }
  | timed (m : LoopMove) (i : TimerInput κ) (timers : TimerLoop κ) : s.free = true →
      (s.phase = .expiring ∨ ∃ active, s.phase = .timing active) →
      m = .next ∧ i = .next ∨ m = .returns ∧ i = .returns →
      TimerLoop.Taken s.timers i timers →
      Taken s (.move m) { s with timers := timers }
  | finished (now : ℤ) (timers : TimerLoop κ) (phase : LoopPhase κ) : s.free = true →
      (s.phase = .expiring ∧ phase = .ready ∨
        ∃ active, s.phase = .timing active ∧ phase = .dispatching active) →
      s.timers.clock ≤ now → TimerLoop.Taken s.timers .finish timers →
      Taken s (.move (.finish now))
        (resetTimerfd { s with timers := { timers with clock := now }, phase := phase } now)
  | waited (now : ℤ) (deadline : Option ℤ) : s.free = true → s.phase = .ready →
      s.timers.clock ≤ now →
      Taken s (.move (.wait now))
        { s with timers := { s.timers with clock := now }, phase := .polling deadline }
  | polled (now : ℤ) (active : List ReadyChannel) (deadline : Option ℤ) : s.free = true →
      s.phase = .polling deadline → s.timers.clock ≤ now →
      Taken s (.move (.poll now active))
        { s with timers := { s.timers with clock := now }, phase := .dispatching active }
  | awoke (active : List ReadyChannel) : s.free = true →
      s.phase = .dispatching (.wakeup :: active) →
      Taken s (.move .handle) { s with wakeup := 0, phase := .dispatching active }
  | handled (fd : ℕ) (active : List ReadyChannel) : s.free = true →
      s.phase = .dispatching (.channel fd :: active) →
      Taken s (.move .handle) { s with phase := .dispatching active }
  | handledTimer (now : ℤ) (expired : List Timer) (active : List ReadyChannel) (armed : Option ℤ)
      (timers : TimerLoop κ) : s.free = true →
      s.phase = .dispatching (.timer :: active) →
      TimerLoop.Taken s.timers (.processExpired now expired) timers →
      Taken s (.move (.handleTimer now expired))
        { s with timers := timers, armed := armed, phase := .timing active }
  | swapped : s.free = true → s.phase = .dispatching [] →
      Taken s (.move .doPending)
        { s with pending := [], fns := s.pending, round := s.posted, phase := .pending }
  | served (now : ℤ) (task : LoopTask κ) (fns : List (LoopTask κ)) : s.free = true →
      s.phase = .pending → s.fns = task :: fns → s.timers.clock ≤ now →
      Taken s (.move (.serve now))
        (exec { s with fns := fns, served := s.served ++ [task] } now task)
  | gathered : s.free = true → s.phase = .pending → s.fns = [] →
      Taken s (.move .flushAll)
        { s with
          flushCbs := []
          flushDue := s.flushCbs
          flushed := []
          phase := .flushing s.flushCbs none }
  | dropped (e : FlushEntry κ) (cbs : List (FlushEntry κ)) : s.free = true →
      s.phase = .flushing (e :: cbs) none → e.owner ∈ s.dead →
      Taken s (.move .flush) { s with dropped := s.dropped ++ [e], phase := .flushing cbs none }
  | flushed (e : FlushEntry κ) (cbs : List (FlushEntry κ)) : s.free = true →
      s.phase = .flushing (e :: cbs) none → e.owner ∉ s.dead →
      Taken s (.move .flush)
        { s with flushed := s.flushed ++ [e], phase := .flushing cbs (some e) }
  | kept (e : FlushEntry κ) (cbs : List (FlushEntry κ)) : s.free = true →
      s.phase = .flushing cbs (some e) →
      Taken s (.move .flushReturns)
        { s with flushCbs := s.flushCbs ++ [e], phase := .flushing cbs none }
  | repeated : s.free = true → s.phase = .flushing [] none →
      Taken s (.move .again) { s with phase := .top }

variable {s s' : EventLoop τ κ} {i : LoopInput τ κ}

theorem taken_of_request {th : τ} {r : LoopRequest κ} (may : s.mayCall th = true)
    (taken : s.request th r = some s') : Taken s (.request th r) s' := by
  cases r with
  | runInLoop cb =>
    obtain rfl := Option.some.inj taken
    exact .ran th cb may
  | queueInLoop cb =>
    obtain rfl := Option.some.inj taken
    exact .began th cb may
  | runAfter now sec cb =>
    obtain ⟨later, same⟩ := Option.ite_none_right_eq_some.mp taken
    obtain rfl := Option.some.inj same
    exact .created th _ now sec .zero cb may later (.inl ⟨rfl, rfl⟩)
  | runEvery now sec cb =>
    obtain ⟨later, same⟩ := Option.ite_none_right_eq_some.mp taken
    obtain rfl := Option.some.inj same
    exact .created th _ now sec sec cb may later (.inr ⟨rfl, rfl⟩)
  | cancel id =>
    obtain rfl := Option.some.inj taken
    exact .cancelled th id may
  | quit =>
    obtain rfl := Option.some.inj taken
    exact .quitted th may

theorem taken_of_proceed {th : τ} {now : ℤ} (later : s.timers.clock ≤ now)
    (taken : s.proceed th now = some s') : Taken s (.proceed th now) s' := by
  rw [proceed] at taken
  split at taken
  · cases taken
  · next task here =>
    obtain rfl := Option.some.inj taken
    exact .answered th now task here
  · next inLoopThread task here =>
    split at taken
    · next own =>
      obtain rfl := Option.some.inj taken
      obtain ⟨rfl, looping⟩ := Bool.and_eq_true _ _ |>.mp own
      exact .inlined th now task later here looping
    · obtain rfl := Option.some.inj taken
      exact .declined th now inLoopThread task here
  · next task here =>
    obtain rfl := Option.some.inj taken
    exact .queued th now task here
  · next here =>
    obtain rfl := Option.some.inj taken
    exact .woke th now here

omit [DecidableEq τ] in
theorem exists_of_timersStep {j : TimerInput κ} (taken : s.timersStep j = some s') :
    ∃ timers, TimerLoop.Taken s.timers j timers ∧ s' = { s with timers := timers } := by
  obtain ⟨timers, step, rfl⟩ := Option.map_eq_some_iff.mp taken
  exact ⟨timers, TimerLoop.taken_of_step step, rfl⟩

theorem taken_of_finish {now : ℤ} {phase : LoopPhase κ} (free : s.free = true)
    (place : s.phase = .expiring ∧ phase = .ready ∨
      ∃ active, s.phase = .timing active ∧ phase = .dispatching active)
    (taken : s.finish now phase = some s') : Taken s (.move (.finish now)) s' := by
  obtain ⟨later, same⟩ := Option.ite_none_right_eq_some.mp taken
  obtain ⟨timers, step, rfl⟩ := Option.map_eq_some_iff.mp same
  exact .finished now timers phase free place later (TimerLoop.taken_of_step step)

theorem taken_of_moved {m : LoopMove} (free : s.free = true) (taken : s.moved m = some s') :
    Taken s (.move m) s' := by
  cases m with
  | start =>
    simp only [moved] at taken
    split at taken
    · next here =>
      obtain rfl := Option.some.inj taken
      exact .started free here
    · cases taken
  | check now =>
    simp only [moved] at taken
    split at taken
    · next here =>
      split at taken
      · next quit =>
        obtain rfl := Option.some.inj taken
        exact .left now free here quit
      · next stay =>
        obtain ⟨later, same⟩ := Option.ite_none_right_eq_some.mp taken
        obtain rfl := Option.some.inj same
        refine .checked now _ free here (Bool.eq_false_iff.mpr stay) later ?_
        split
        · exact .inl rfl
        · exact .inr rfl
    · cases taken
  | expire now expired =>
    simp only [moved] at taken
    split at taken
    · next here =>
      obtain ⟨timers, step, rfl⟩ := exists_of_timersStep taken
      exact .expired now expired timers free here step
    · cases taken
  | next =>
    simp only [moved] at taken
    split at taken
    · next here =>
      obtain ⟨timers, step, rfl⟩ := exists_of_timersStep taken
      exact .timed _ _ timers free (.inl here) (.inl ⟨rfl, rfl⟩) step
    · next active here =>
      obtain ⟨timers, step, rfl⟩ := exists_of_timersStep taken
      exact .timed _ _ timers free (.inr ⟨active, here⟩) (.inl ⟨rfl, rfl⟩) step
    · cases taken
  | returns =>
    simp only [moved] at taken
    split at taken
    · next here =>
      obtain ⟨timers, step, rfl⟩ := exists_of_timersStep taken
      exact .timed _ _ timers free (.inl here) (.inr ⟨rfl, rfl⟩) step
    · next active here =>
      obtain ⟨timers, step, rfl⟩ := exists_of_timersStep taken
      exact .timed _ _ timers free (.inr ⟨active, here⟩) (.inr ⟨rfl, rfl⟩) step
    · cases taken
  | finish now =>
    simp only [moved] at taken
    split at taken
    · next here => exact taken_of_finish free (.inl ⟨here, rfl⟩) taken
    · next active here => exact taken_of_finish free (.inr ⟨active, here, rfl⟩) taken
    · cases taken
  | wait now =>
    simp only [moved] at taken
    split at taken
    · next here =>
      obtain ⟨later, same⟩ := Option.ite_none_right_eq_some.mp taken
      obtain rfl := Option.some.inj same
      exact .waited now _ free here later
    · cases taken
  | poll now active =>
    simp only [moved] at taken
    split at taken
    · next deadline here =>
      obtain ⟨⟨later, -, -⟩, same⟩ := Option.ite_none_right_eq_some.mp taken
      obtain rfl := Option.some.inj same
      exact .polled now active deadline free here later
    · cases taken
  | handle =>
    simp only [moved] at taken
    split at taken
    · next active here =>
      obtain rfl := Option.some.inj taken
      exact .awoke active free here
    · next fd active here =>
      obtain rfl := Option.some.inj taken
      exact .handled fd active free here
    · cases taken
  | handleTimer now expired =>
    simp only [moved] at taken
    split at taken
    · next active here =>
      obtain ⟨timers, step, rfl⟩ := exists_of_timersStep taken
      exact .handledTimer now expired active _ timers free here step
    · cases taken
  | doPending =>
    simp only [moved] at taken
    split at taken
    · next here =>
      obtain rfl := Option.some.inj taken
      exact .swapped free here
    · cases taken
  | serve now =>
    simp only [moved] at taken
    split at taken
    · next task fns here first =>
      obtain ⟨later, same⟩ := Option.ite_none_right_eq_some.mp taken
      obtain rfl := Option.some.inj same
      exact .served now task fns free here first later
    · cases taken
  | flushAll =>
    simp only [moved] at taken
    split at taken
    · next here empty =>
      obtain rfl := Option.some.inj taken
      exact .gathered free here empty
    · cases taken
  | flush =>
    simp only [moved] at taken
    split at taken
    · next e cbs here =>
      split at taken
      · next gone =>
        obtain rfl := Option.some.inj taken
        exact .dropped e cbs free here gone
      · next alive =>
        obtain rfl := Option.some.inj taken
        exact .flushed e cbs free here alive
    · cases taken
  | flushReturns =>
    simp only [moved] at taken
    split at taken
    · next cbs e here =>
      obtain rfl := Option.some.inj taken
      exact .kept e cbs free here
    · cases taken
  | again =>
    simp only [moved] at taken
    split at taken
    · next here =>
      obtain rfl := Option.some.inj taken
      exact .repeated free here
    · cases taken

theorem taken_of_step (taken : s.step i = some s') : Taken s i s' := by
  cases i with
  | request th r =>
    obtain ⟨may, same⟩ := Option.ite_none_right_eq_some.mp taken
    exact taken_of_request may same
  | proceed th now =>
    obtain ⟨later, same⟩ := Option.ite_none_right_eq_some.mp taken
    exact taken_of_proceed later same
  | registerFlush e =>
    obtain ⟨guard, same⟩ := Option.ite_none_right_eq_some.mp taken
    obtain rfl := Option.some.inj same
    simp only [Bool.and_eq_true, decide_eq_true_eq] at guard
    exact .registered e guard.1.1 guard.1.2 guard.2
  | release owner =>
    obtain rfl := Option.some.inj taken
    exact .released owner
  | loop th =>
    simp only [step] at taken
    split at taken
    · next outside idle =>
      obtain rfl := Option.some.inj taken
      exact .entered th outside idle
    · cases taken
  | move m =>
    obtain ⟨free, same⟩ := Option.ite_none_right_eq_some.mp taken
    exact taken_of_moved free same

end EventLoop

end Perfacet
