import Mathlib.Data.List.Perm.Basic
import Perfacet.Netlib.EventLoop

/-!
# What is handed to an event loop

Any thread may hand a task to the loop thread, and any number of threads may do so at once. The
tasks are called in the order in which they have come into the queue. What comes into it while
`doPending` is at work waits for the next round, so that a task that queues itself again does not
keep the loop from its channels.

Before the loop goes to sleep in `poll`, it has not looked at the queue for a while. The eventfd
tells it what has happened since: it is written after a task has come into the queue, and after
`quit_` has been set, and it is read before the queue is emptied.

## Main definitions

* `EventLoop.Handed` — the queue, what has been called from it, and what has come into it
* `EventLoop.requested` — the tasks that a thread has asked for
* `EventLoop.Settled` — the thread that made the loop is not about to take itself for its thread

## Main results

* `EventLoop.handed_of_run` — every task is called once, in order, or is still to be called
* `EventLoop.not_asleep_of_run` — the loop does not sleep while something waits for it
* `EventLoop.inlined_of_run` — what is called without the queue is called on the loop thread
* `EventLoop.flushes_of_run` — every round flushes every connection once
-/

namespace Perfacet

/-- The task of a call that is neither in the queue nor called. -/
def LoopCall.task {κ : Type*} : LoopCall κ → List (LoopTask κ)
  | .none | .waking => []
  | .asking task | .asked _ task | .queueing task => [task]

theorem LoopCall.task_of_isNone {κ : Type*} {c : LoopCall κ} (none : c.isNone = true) :
    c.task = [] := by
  cases c <;> first | rfl | cases none

/-- The eventfd may have been read since the queue was last emptied. -/
def LoopPhase.reading {κ : Type*} : LoopPhase κ → Bool
  | .dispatching _ | .timing _ => true
  | _ => false

/-- The loop has looked at `quit_`, and goes to sleep before it looks again. -/
def LoopPhase.committed {κ : Type*} : LoopPhase κ → Bool
  | .due | .expiring | .ready | .polling _ => true
  | _ => false

namespace EventLoop

variable {τ κ : Type*} [DecidableEq τ] {s s' : EventLoop τ κ} {i : LoopInput τ κ} {th : τ}
  {h : List (TransitionSystem.Step (EventLoop τ κ) (LoopInput τ κ))}

theorem isNone_of_mayCall (may : s.mayCall th = true) : (s.calls th).isNone = true :=
  (Bool.and_eq_true _ _ |>.mp may).1

/-! ## The queue -/

/-- What had been put into the queue when `doPending` last began has been called in this order, or
is about to be, and nothing of it is left behind. -/
structure Handed (s : EventLoop τ κ) : Prop where
  called : s.served ++ s.fns = s.round.map (·.2)
  waiting : s.round.map (·.2) ++ s.pending = s.posted.map (·.2)
  done : s.phase ≠ .pending → s.fns = []

theorem Handed.step (handed : Handed s) (taken : Taken s i s') : Handed s' := by
  cases taken with
  | inlined th now task _ _ _ =>
    obtain ⟨timers, armed, same⟩ :=
      exec_eq { s.goOn th .none with inlined := s.inlined ++ [(th, task)] } now task
    rw [same]
    exact ⟨handed.called, handed.waiting, handed.done⟩
  | queued th now task _ =>
    refine ⟨handed.called, ?_, handed.done⟩
    show s.round.map (·.2) ++ (s.pending ++ [task]) = (s.posted ++ [(th, task)]).map (·.2)
    rw [← List.append_assoc, handed.waiting, List.map_append]
    rfl
  | swapped _ here =>
    -- the tasks of the last round have all been called
    have empty := handed.done (by rw [here]; simp)
    have called := handed.called
    rw [empty, List.append_nil] at called
    refine ⟨?_, List.append_nil _, fun other => absurd rfl other⟩
    show s.served ++ s.pending = s.posted.map (·.2)
    rw [called]
    exact handed.waiting
  | served now task fns _ here first _ =>
    obtain ⟨timers, armed, same⟩ :=
      exec_eq { s with fns := fns, served := s.served ++ [task] } now task
    rw [same]
    refine ⟨?_, handed.waiting, fun other => absurd here other⟩
    show s.served ++ [task] ++ fns = s.round.map (·.2)
    rw [List.append_assoc, ← handed.called, first]
    rfl
  | gathered _ _ empty => exact ⟨handed.called, handed.waiting, fun _ => empty⟩
  | entered th outside _ =>
    exact ⟨handed.called, handed.waiting, fun _ => handed.done (by rw [outside]; simp)⟩
  | started _ here | left _ _ here _ | checked _ _ _ here _ _ _ | expired _ _ _ _ here _
  | waited _ _ _ here _ | polled _ _ _ _ here _ | awoke _ _ here | handled _ _ _ here
  | handledTimer _ _ _ _ _ _ here _ | dropped _ _ _ here _ | flushed _ _ _ here _
  | kept _ _ _ here | repeated _ here =>
    exact ⟨handed.called, handed.waiting, fun _ => handed.done (by rw [here]; simp)⟩
  | finished now timers phase _ place _ _ =>
    refine ⟨handed.called, handed.waiting, fun _ => handed.done ?_⟩
    rcases place with ⟨here, -⟩ | ⟨active, here, -⟩ <;> rw [here] <;> simp
  | _ => exact ⟨handed.called, handed.waiting, handed.done⟩

/-! ## The calls of a thread -/

/-- The tasks of one thread. -/
def ofThread (th : τ) (l : List (τ × LoopTask κ)) : List (LoopTask κ) :=
  (l.filter fun p => decide (p.1 = th)).map (·.2)

theorem ofThread_append (th : τ) (l l' : List (τ × LoopTask κ)) :
    ofThread th (l ++ l') = ofThread th l ++ ofThread th l' := by
  rw [ofThread, List.filter_append, List.map_append]
  rfl

theorem ofThread_singleton (th th' : τ) (task : LoopTask κ) :
    ofThread th [(th', task)] = if th' = th then [task] else [] := by
  by_cases same : th' = th <;> simp [ofThread, same]

/-- The task that a request of the thread asks for. -/
def asks (th : τ) (i : LoopInput τ κ) (s' : EventLoop τ κ) : List (LoopTask κ) :=
  match i with
  | .request th' _ => if th' = th then (s'.calls th).task else []
  | _ => []

@[simp] theorem asks_proceed (th th' : τ) (now : ℤ) : asks th (.proceed th' now) s' = [] := rfl

@[simp] theorem asks_move (th : τ) (m : LoopMove) : asks th (.move m) s' = [] := rfl

/-- The tasks that a thread has asked for, in order. -/
def requested (th : τ) : List (TransitionSystem.Step (EventLoop τ κ) (LoopInput τ κ)) →
    List (LoopTask κ)
  | [] => []
  | t :: h => requested th h ++ asks th t.input t.post

/-- The tasks that a thread has put into the queue, that it has called, and that its call has still
to do one of the two with. -/
def accounted (s : EventLoop τ κ) (th : τ) : List (LoopTask κ) :=
  ofThread th s.posted ++ ofThread th s.inlined ++ (s.calls th).task

theorem goOn_calls (s : EventLoop τ κ) (th th' : τ) (c : LoopCall κ) :
    (s.goOn th c).calls th' = if th' = th then c else s.calls th' := Function.update_apply ..

/-- A call that goes on with its task still has it. -/
theorem accounted_goOn {c : LoopCall κ} (same : c.task = (s.calls th).task) (th' : τ) :
    (s.goOn th c).accounted th' = s.accounted th' := by
  show ofThread th' s.posted ++ ofThread th' s.inlined ++ ((s.goOn th c).calls th').task = _
  rw [goOn_calls]
  split
  · next own => rw [own, same]; rfl
  · rfl

/-- A call that has done with its task leaves it behind. -/
theorem accounted_perm {task : LoopTask κ} {c : LoopCall κ} (held : (s.calls th).task = [task])
    (finished : c.task = []) (rest : List (LoopTask κ)) (th' : τ) :
    (rest ++ ofThread th' [(th, task)] ++ ((s.goOn th c).calls th').task).Perm
      (rest ++ (s.calls th').task) := by
  rw [ofThread_singleton, goOn_calls]
  by_cases own : th = th'
  · rw [if_pos own, if_pos own.symm, finished, List.append_nil, ← own, held]
  · rw [if_neg own, if_neg (Ne.symm own), List.append_nil]

/-- The task of a new call is accounted for, and no other task is lost or made twice. -/
theorem accounted_step (taken : Taken s i s') (th : τ) :
    (s'.accounted th).Perm (s.accounted th ++ asks th i s') := by
  have asked (th' : τ) (c : LoopCall κ) (s₁ : EventLoop τ κ) (posted : s₁.posted = s.posted)
      (inlined : s₁.inlined = s.inlined) (calls : s₁.calls = s.calls)
      (none : (s.calls th').isNone = true) (r : LoopRequest κ) :
      ((s₁.goOn th' c).accounted th).Perm
        (s.accounted th ++ asks th (.request th' r) (s₁.goOn th' c)) := by
    show (ofThread th s₁.posted ++ ofThread th s₁.inlined ++ ((s₁.goOn th' c).calls th).task).Perm
      (s.accounted th ++ if th' = th then ((s₁.goOn th' c).calls th).task else [])
    rw [posted, inlined, goOn_calls, accounted]
    by_cases own : th' = th
    · rw [if_pos own, if_pos own.symm, ← own, LoopCall.task_of_isNone none, List.append_nil]
    · rw [if_neg own, if_neg (Ne.symm own), List.append_nil, calls]
  cases taken with
  | ran th' cb may => exact asked th' _ s rfl rfl rfl (isNone_of_mayCall may) _
  | began th' cb may => exact asked th' _ s rfl rfl rfl (isNone_of_mayCall may) _
  | created th' r now sec interval cb may _ _ =>
    exact asked th' _ { s with timers := s.timers.create now sec interval cb } rfl rfl rfl
      (isNone_of_mayCall may) _
  | cancelled th' id may => exact asked th' _ s rfl rfl rfl (isNone_of_mayCall may) _
  | quitted th' may =>
    exact asked th' _ { s with quit := true } rfl rfl rfl (isNone_of_mayCall may) _
  | answered th' now task here =>
    rw [asks_proceed, List.append_nil, accounted_goOn (by rw [here]; rfl)]
  | declined th' now inLoopThread task here =>
    rw [asks_proceed, List.append_nil, accounted_goOn (by rw [here]; rfl)]
  | inlined th' now task _ here _ =>
    obtain ⟨timers, armed, same⟩ :=
      exec_eq { s.goOn th' .none with inlined := s.inlined ++ [(th', task)] } now task
    rw [asks_proceed, List.append_nil, same]
    show (ofThread th s.posted ++ ofThread th (s.inlined ++ [(th', task)]) ++ _).Perm _
    rw [ofThread_append, ← List.append_assoc]
    exact accounted_perm (by rw [here]; rfl) rfl _ th
  | queued th' now task here =>
    rw [asks_proceed, List.append_nil]
    show (ofThread th (s.posted ++ [(th', task)]) ++ ofThread th s.inlined ++ _).Perm _
    -- the task comes before what has been called without the queue
    have moved : (ofThread th (s.posted ++ [(th', task)]) ++ ofThread th s.inlined).Perm
        (ofThread th s.posted ++ ofThread th s.inlined ++ ofThread th [(th', task)]) := by
      rw [ofThread_append, List.append_assoc, List.append_assoc]
      exact List.perm_append_comm.append_left _
    exact (moved.append_right _).trans (accounted_perm (by rw [here]; rfl) rfl _ th)
  | woke th' now here =>
    rw [asks_proceed, List.append_nil]
    show ((s.goOn th' .none).accounted th).Perm (s.accounted th)
    rw [accounted_goOn (by rw [here]; rfl)]
  | served now task fns _ _ _ _ =>
    obtain ⟨timers, armed, same⟩ :=
      exec_eq { s with fns := fns, served := s.served ++ [task] } now task
    rw [asks_move, List.append_nil, same]
    exact .refl _
  | _ => exact List.Perm.of_eq (List.append_nil _).symm

/-- In every run, the tasks are called in the order in which they have come into the queue, and
what there was when `doPending` began has been called when it ends; each task that a thread has
asked for has come into the queue once, or been called at once, or its call is still under way. -/
theorem handed_of_run (run : machine.Run h s) :
    Handed s ∧ ∀ th, (requested th h).Perm (s.accounted th) := by
  induction run with
  | start first =>
    obtain ⟨th, clock, rfl⟩ := first
    exact ⟨⟨rfl, rfl, fun _ => rfl⟩, fun _ => .refl _⟩
  | next _ step ih =>
    have taken := taken_of_step step
    refine ⟨ih.1.step taken, fun th => ?_⟩
    exact ((ih.2 th).append_right _).trans (accounted_step taken th).symm

/-- A task that another thread queues while the loop sleeps. -/
def wokenUp : List (LoopInput Bool ℕ) :=
  [.loop false, .move .start, .move (.check 0), .move (.wait 0), .request true (.queueInLoop 7),
    .proceed true 0, .proceed true 0, .move (.poll 0 [.wakeup]), .move .handle, .move .doPending,
    .move (.serve 0), .move .flushAll, .move .again, .move (.check 0), .move (.wait 0)]

/-- It is called in the next round. -/
theorem handed_of_run_wokenUp :
    ∃ s : EventLoop Bool ℕ, s.served = [.call 7] ∧ Handed s := by
  obtain ⟨h, s, run, -, reached⟩ := machine.exists_run wokenUp (fun _ _ => true)
    (fun s => s.served = [.call 7]) ⟨false, 0, rfl⟩ (by decide)
  exact ⟨s, of_decide_eq_true reached, (handed_of_run run).1⟩

/-! ## The eventfd -/

/-- The eventfd is readable, or a thread is about to write to it. -/
def Signal (s : EventLoop τ κ) : Prop := 0 < s.wakeup ∨ ∃ th, s.calls th = .waking

/-- A thread that is about to write to the eventfd is not disturbed. -/
theorem Signal.goOn (signal : Signal s) {c : LoopCall κ} (other : s.calls th ≠ .waking) :
    Signal (s.goOn th c) := by
  refine signal.imp_right fun ⟨th', waking⟩ => ⟨th', ?_⟩
  have apart : th' ≠ th := by
    rintro rfl
    exact other waking
  rw [goOn_calls, if_neg apart]
  exact waking

theorem signal_woke (s : EventLoop τ κ) (th : τ) :
    Signal { s.goOn th .none with wakeup := min (s.wakeup + 1) eventfdMax } :=
  .inl (lt_min (Nat.succ_pos _) (by decide))

theorem signal_waking (s : EventLoop τ κ) (th : τ) : Signal (s.goOn th .waking) :=
  .inr ⟨th, by rw [goOn_calls, if_pos rfl]⟩

/-- A loop that may go to sleep without another look has been told what there is to do. -/
structure Signalled (s : EventLoop τ κ) : Prop where
  pending : s.phase.reading = false → s.pending ≠ [] → Signal s
  quit : s.phase.committed = true → s.quit = true → Signal s

theorem ne_waking_of_mayCall (may : s.mayCall th = true) : s.calls th ≠ .waking := by
  intro waking
  have none := isNone_of_mayCall may
  rw [waking] at none
  cases none

/-- A call that goes on, and does not end in the queue, leaves the signals alone. -/
theorem Signalled.goOn (signalled : Signalled s) {c : LoopCall κ} (other : s.calls th ≠ .waking) :
    Signalled (s.goOn th c) where
  pending phase some := (signalled.pending phase some).goOn other
  quit phase quit := (signalled.quit phase quit).goOn other

theorem Signalled.step (signalled : Signalled s) (taken : Taken s i s') : Signalled s' := by
  cases taken with
  | ran th cb may | began th cb may | cancelled th id may =>
    exact signalled.goOn (ne_waking_of_mayCall may)
  | created th r now sec interval cb may _ _ =>
    have signalled' : Signalled { s with timers := s.timers.create now sec interval cb } :=
      ⟨signalled.pending, signalled.quit⟩
    exact signalled'.goOn (ne_waking_of_mayCall may)
  | quitted th may =>
    have signal := signal_waking { s with quit := true } th
    exact ⟨fun _ _ => signal, fun _ _ => signal⟩
  | answered th now task here => exact signalled.goOn (by rw [here]; simp)
  | declined th now inLoopThread task here => exact signalled.goOn (by rw [here]; simp)
  | inlined th now task _ here _ =>
    have signalled' : Signalled (s.goOn th .none) := signalled.goOn (by rw [here]; simp)
    obtain ⟨timers, armed, same⟩ :=
      exec_eq { s.goOn th .none with inlined := s.inlined ++ [(th, task)] } now task
    rw [same]
    exact ⟨signalled'.pending, signalled'.quit⟩
  -- the eventfd is written after the queue
  | queued th now task _ =>
    have signal := signal_waking s th
    exact ⟨fun _ _ => signal, fun _ _ => signal⟩
  | woke th now _ =>
    have signal := signal_woke s th
    exact ⟨fun _ _ => signal, fun _ _ => signal⟩
  | entered th here _ | started _ here | left _ _ here _ | dropped _ _ _ here _
  | flushed _ _ _ here _ | kept _ _ _ here | repeated _ here | gathered _ here _ =>
    refine ⟨fun _ some => signalled.pending (by rw [here]; rfl) some, fun committed => ?_⟩
    cases committed
  | checked now phase _ here stay _ next =>
    refine ⟨fun _ some => signalled.pending (by rw [here]; rfl) some, fun _ quit => ?_⟩
    exact absurd (stay.symm.trans quit) Bool.false_ne_true
  | expired now expired timers _ here _ | waited now deadline _ here _ =>
    exact ⟨fun _ some => signalled.pending (by rw [here]; rfl) some,
      fun _ quit => signalled.quit (by rw [here]; rfl) quit⟩
  | finished now timers phase _ place _ _ =>
    rcases place with ⟨here, rfl⟩ | ⟨active, -, rfl⟩
    · exact ⟨fun _ some => signalled.pending (by rw [here]; rfl) some,
        fun _ quit => signalled.quit (by rw [here]; rfl) quit⟩
    · exact ⟨fun reading => (by cases reading), fun committed => by cases committed⟩
  | polled _ _ _ _ _ _ | awoke _ _ _ | handled _ _ _ _ | handledTimer _ _ _ _ _ _ _ _ =>
    exact ⟨fun reading => (by cases reading), fun committed => by cases committed⟩
  -- what the eventfd has told is done, and there is nothing new
  | swapped _ _ => exact ⟨fun _ some => absurd rfl some, fun committed => by cases committed⟩
  | served now task fns _ here _ _ =>
    obtain ⟨timers, armed, same⟩ :=
      exec_eq { s with fns := fns, served := s.served ++ [task] } now task
    rw [same]
    exact ⟨signalled.pending, signalled.quit⟩
  | _ => exact ⟨signalled.pending, signalled.quit⟩

/-- If the loop sleeps, nothing readable would wake it up, and no thread is about to, there is
nothing in the queue and the loop has not been told to quit. -/
theorem not_asleep_of_run (run : machine.Run h s) {deadline : Option ℤ}
    (sleeps : s.phase = .polling deadline) (unreadable : s.wakeup = 0)
    (quiet : ∀ th, s.calls th ≠ .waking) : s.pending = [] ∧ s.quit = false := by
  have signalled : Signalled s := run.invariant
    (by
      rintro _ ⟨th, clock, rfl⟩
      exact ⟨fun _ some => absurd rfl some, fun committed => by cases committed⟩)
    fun _ _ _ step signalled => signalled.step (taken_of_step step)
  have silent : ¬ Signal s := by
    rintro (readable | ⟨th, waking⟩)
    · exact readable.ne' unreadable
    · exact quiet th waking
  constructor
  · by_contra some
    exact silent (signalled.pending (by rw [sleeps]; rfl) some)
  · by_contra quit
    exact silent (signalled.quit (by rw [sleeps]; rfl) (Bool.eq_true_of_not_eq_false quit))

/-- Until when the loop sleeps, if it does. -/
def sleepsUntil (s : EventLoop τ κ) : Option (Option ℤ) :=
  match s.phase with
  | .polling deadline => some deadline
  | _ => none

omit [DecidableEq τ] in
theorem phase_of_sleepsUntil {deadline : Option ℤ} (sleeps : s.sleepsUntil = some deadline) :
    s.phase = .polling deadline := by
  unfold sleepsUntil at sleeps
  split at sleeps
  · next here =>
    obtain rfl := Option.some.inj sleeps
    exact here
  · cases sleeps

/-- The loop sleeps again when it has called what was queued. -/
theorem not_asleep_of_run_wokenUp :
    ∃ s : EventLoop Bool ℕ, s.phase = .polling none ∧ s.pending = [] ∧ s.quit = false := by
  obtain ⟨h, s, run, -, reached⟩ := machine.exists_run wokenUp (fun _ _ => true)
    (fun s => s.sleepsUntil = some none && s.wakeup = 0 && (s.calls false).isNone &&
      (s.calls true).isNone) ⟨false, 0, rfl⟩ (by decide)
  simp only [Bool.and_eq_true, decide_eq_true_eq] at reached
  obtain ⟨⟨⟨sleeps, unreadable⟩, idle⟩, idle'⟩ := reached
  have sleeps := phase_of_sleepsUntil sleeps
  refine ⟨s, sleeps, not_asleep_of_run run sleeps unreadable fun th waking => ?_⟩
  cases th with
  | false => rw [waking] at idle; cases idle
  | true => rw [waking] at idle'; cases idle'

/-! ## The loop thread -/

/-- If another thread than the one that made the loop enters it, the latter is not between its look
at `tid_` and its look at `looping_`. -/
def Settled (t : TransitionSystem.Step (EventLoop τ κ) (LoopInput τ κ)) : Prop :=
  ∀ th task, t.input = .loop th → t.pre.calls t.pre.tid = .asked true task → t.pre.tid = th

/-- The thread that runs `loop` is the one that `tid_` names, as is every thread that has found
itself to be the loop thread. -/
structure Owned (s : EventLoop τ κ) : Prop where
  outside : s.phase = .outside → s.looping = false ∧ s.inlined = []
  runner : s.phase ≠ .outside → s.runner = some s.tid
  asked : ∀ th task, s.calls th = .asked true task → s.tid = th
  inlined : ∀ p ∈ s.inlined, s.runner = some p.1

/-- A call that goes on is not about to call its task, unless it is on the loop thread. -/
theorem Owned.goOn (owned : Owned s) {c : LoopCall κ}
    (asked : ∀ task, c = .asked true task → s.tid = th) : Owned (s.goOn th c) where
  outside := owned.outside
  runner := owned.runner
  asked th' task here := by
    rw [goOn_calls] at here
    split at here
    · next own => exact (asked task here).trans own.symm
    · exact owned.asked th' task here
  inlined := owned.inlined

theorem Owned.step (owned : Owned s) (taken : Taken s i s') (settled : Settled ⟨s, i, s'⟩) :
    Owned s' := by
  cases taken with
  | ran th cb may | began th cb may | cancelled th id may | declined th _ _ _ may =>
    exact owned.goOn fun task asked => by cases asked
  | created th r now sec interval cb _ _ _ =>
    have owned' : Owned { s with timers := s.timers.create now sec interval cb } :=
      ⟨owned.outside, owned.runner, owned.asked, owned.inlined⟩
    exact owned'.goOn fun task asked => by cases asked
  | quitted th _ =>
    have owned' : Owned { s with quit := true } :=
      ⟨owned.outside, owned.runner, owned.asked, owned.inlined⟩
    exact owned'.goOn fun task asked => by cases asked
  | answered th now task here =>
    refine owned.goOn fun task' asked => ?_
    obtain ⟨own, -⟩ := LoopCall.asked.inj asked
    exact of_decide_eq_true own
  | inlined th now task _ here looping =>
    obtain ⟨timers, armed, same⟩ :=
      exec_eq { s.goOn th .none with inlined := s.inlined ++ [(th, task)] } now task
    have owned' : Owned (s.goOn th .none) := owned.goOn fun task asked => by cases asked
    have inside : s.phase ≠ .outside := fun outside =>
      Bool.false_ne_true ((owned.outside outside).1.symm.trans looping)
    rw [same]
    refine ⟨fun outside => absurd outside inside, owned'.runner, owned'.asked, fun p member => ?_⟩
    rcases List.mem_append.mp member with before | now
    · exact owned.inlined p before
    · rw [List.mem_singleton.mp now]
      show s.runner = some th
      rw [← owned.asked th task here]
      exact owned.runner inside
  | queued th now task _ =>
    have owned' : Owned (s.goOn th .waking) := owned.goOn fun task asked => by cases asked
    exact ⟨owned'.outside, owned'.runner, owned'.asked, owned'.inlined⟩
  | woke th now _ =>
    have owned' : Owned (s.goOn th .none) := owned.goOn fun task asked => by cases asked
    exact ⟨owned'.outside, owned'.runner, owned'.asked, owned'.inlined⟩
  | entered th outside _ =>
    refine ⟨fun outside => (by cases outside), fun _ => rfl, fun th' task asked => ?_, ?_⟩
    -- a thread that has asked too early is the one that has just entered
    · have own := owned.asked th' task asked
      rw [← own] at asked ⊢
      exact (settled th task rfl asked).symm
    · intro p member
      have none : p ∈ s.inlined := member
      rw [(owned.outside outside).2] at none
      cases none
  -- once `loop` has begun, its thread does not change
  | started _ here | left _ _ here _ | expired _ _ _ _ here _ | waited _ _ _ here _
  | polled _ _ _ _ here _ | awoke _ _ here | handled _ _ _ here | handledTimer _ _ _ _ _ _ here _
  | swapped _ here | gathered _ here _ | dropped _ _ _ here _ | flushed _ _ _ here _
  | kept _ _ _ here | repeated _ here =>
    exact ⟨fun outside => (by cases outside), fun _ => owned.runner (by rw [here]; simp),
      owned.asked, owned.inlined⟩
  | checked now phase _ here _ _ next =>
    refine ⟨fun outside => ?_, fun _ => owned.runner (by rw [here]; simp), owned.asked,
      owned.inlined⟩
    rcases next with rfl | rfl <;> cases outside
  | finished now timers phase _ place _ _ =>
    have inside : s.phase ≠ .outside ∧ phase ≠ .outside := by
      rcases place with ⟨here, rfl⟩ | ⟨active, here, rfl⟩ <;> rw [here] <;> simp
    exact ⟨fun outside => absurd outside inside.2, fun _ => owned.runner inside.1, owned.asked,
      owned.inlined⟩
  | served now task fns _ _ _ _ =>
    obtain ⟨timers, armed, same⟩ :=
      exec_eq { s with fns := fns, served := s.served ++ [task] } now task
    rw [same]
    exact ⟨owned.outside, owned.runner, owned.asked, owned.inlined⟩
  | _ => exact ⟨owned.outside, owned.runner, owned.asked, owned.inlined⟩

/-- If the loop is entered by the thread that made it, or while that thread is not just asking
whether it is the loop thread, every task that is called without the queue is called on the loop
thread. -/
theorem inlined_of_run (run : machine.Run h s) (steps : ∀ t ∈ h, Settled t)
    {task : LoopTask κ} (called : (th, task) ∈ s.inlined) : s.runner = some th := by
  have owned : Owned s := by
    refine run.invariant_where (C := Settled) (I := Owned) ?_ ?_ steps
    · rintro _ ⟨th, clock, rfl⟩
      exact ⟨fun _ => ⟨rfl, rfl⟩, fun inside => absurd rfl inside, fun th task asked => (by
        cases asked), fun p member => by cases member⟩
    · intro t step settled owned
      exact owned.step (taken_of_step step) settled
  exact owned.inlined _ called

/-- The loop is run by the thread that has made it, and a callback of that thread runs another. -/
theorem inlined_of_run_nested :
    ∃ s : EventLoop Bool ℕ, s.inlined = [(false, .call 8)] ∧ s.runner = some false := by
  obtain ⟨h, s, run, own, reached⟩ := machine.exists_run
    [.request false (.queueInLoop 7), .proceed false 0, .proceed false 0, .loop false,
      .move .start, .move (.check 0), .move (.wait 0), .move (.poll 0 [.wakeup]), .move .handle,
      .move .doPending, .move (.serve 0), .request false (.runInLoop 8), .proceed false 0,
      .proceed false 0]
    (fun s i => match i with | .loop th => decide (s.tid = th) | _ => true)
    (fun s => s.inlined = [(false, .call 8)]) ⟨false, 0, rfl⟩ (by decide)
  have inlined := of_decide_eq_true reached
  refine ⟨s, inlined, inlined_of_run run (fun t member th task enters _ => ?_)
    (inlined ▸ List.mem_singleton_self _)⟩
  have checked := own t member
  rw [enters] at checked
  exact of_decide_eq_true checked

/-- The thread that has made the loop asks whether it is the loop thread, and another thread enters
the loop: both take themselves for the loop thread. -/
theorem inlined_elsewhere :
    ∃ h, ∃ s : EventLoop Bool ℕ, machine.Run h s ∧ s.runner = some true ∧
      (false, .call 7) ∈ s.inlined := by
  obtain ⟨h, s, run, -, reached⟩ := machine.exists_run
    [.request false (.runInLoop 7), .proceed false 0, .loop true, .move .start, .proceed false 0]
    (fun _ _ => true) (fun s => s.runner = some true && s.inlined = [(false, .call 7)])
    ⟨false, 0, rfl⟩ (by decide)
  simp only [Bool.and_eq_true, decide_eq_true_eq] at reached
  exact ⟨h, s, run, reached.1, reached.2 ▸ List.mem_singleton_self _⟩

/-! ## The connections -/

/-- The entries that `flushAll` has still to look at. -/
def todo (s : EventLoop τ κ) : List (FlushEntry κ) :=
  match s.phase with
  | .flushing cbs _ => cbs
  | _ => []

/-- The entry whose callback is running. -/
def running (s : EventLoop τ κ) : List (FlushEntry κ) :=
  match s.phase with
  | .flushing _ (some e) => [e]
  | _ => []

omit [DecidableEq τ] in
theorem todo_of_flushing {cbs : List (FlushEntry κ)} {e : Option (FlushEntry κ)}
    (here : s.phase = .flushing cbs e) : s.todo = cbs := by
  rw [todo, here]

omit [DecidableEq τ] in
theorem running_of_flushing {cbs : List (FlushEntry κ)} {e : Option (FlushEntry κ)}
    (here : s.phase = .flushing cbs e) : s.running = e.toList := by
  rw [running, here]
  cases e <;> rfl

/-- No entry is lost or made twice, and only those whose owners are gone are dropped. Of those
there were when `flushAll` last began, in their order, each has been called once if its owner is
still there, unless it is still to be looked at. -/
structure FlushBook (registered flushCbs running todo dropped flushed due : List (FlushEntry κ))
    (dead : Finset ℕ) : Prop where
  kept : registered.Perm (flushCbs ++ (running ++ todo) ++ dropped)
  gone : ∀ e ∈ dropped, e.owner ∈ dead
  order : (flushed ++ todo).Sublist due
  all : ∀ e ∈ due, e ∈ flushed ∨ e ∈ todo ∨ e.owner ∈ dead

/-- The entries of an event loop. -/
def Flushes (s : EventLoop τ κ) : Prop :=
  FlushBook s.registered s.flushCbs s.running s.todo s.dropped s.flushed s.flushDue s.dead

/-- An entry is added at the end of the first part. -/
theorem perm_append_entry {l l₁ l₂ : List (FlushEntry κ)} (e : FlushEntry κ)
    (same : l.Perm (l₁ ++ l₂)) : (l ++ [e]).Perm (l₁ ++ [e] ++ l₂) := by
  have moved : (l₁ ++ [e] ++ l₂).Perm (e :: (l₁ ++ l₂)) := by
    rw [List.append_assoc]
    exact List.perm_middle
  exact (List.perm_append_singleton e l).trans ((same.cons e).trans moved.symm)

theorem Flushes.step (flushes : Flushes s) (taken : Taken s i s') : Flushes s' := by
  have outside {phase : LoopPhase κ} (here : s.phase = phase)
      (other : ∀ cbs e, phase ≠ .flushing cbs e) : s.running = [] ∧ s.todo = [] := by
    rw [running, todo, here]
    cases phase <;> first | exact ⟨rfl, rfl⟩ | exact absurd rfl (other _ _)
  have idle {phase : LoopPhase κ} (here : s.phase = phase)
      (other : ∀ cbs e, phase ≠ .flushing cbs e) :
      FlushBook s.registered s.flushCbs [] [] s.dropped s.flushed s.flushDue s.dead := by
    obtain ⟨running, todo⟩ := outside here other
    rw [Flushes, running, todo] at flushes
    exact flushes
  cases taken with
  | inlined th now task _ _ _ =>
    obtain ⟨timers, armed, same⟩ :=
      exec_eq { s.goOn th .none with inlined := s.inlined ++ [(th, task)] } now task
    rw [same]
    exact flushes
  | served now task fns _ _ _ _ =>
    obtain ⟨timers, armed, same⟩ :=
      exec_eq { s with fns := fns, served := s.served ++ [task] } now task
    rw [same]
    exact flushes
  | registered e _ _ _ =>
    obtain ⟨kept, gone, order, all⟩ := flushes
    rw [List.append_assoc] at kept
    refine ⟨?_, gone, order, all⟩
    show (s.registered ++ [e]).Perm (s.flushCbs ++ [e] ++ (s.running ++ s.todo) ++ s.dropped)
    rw [List.append_assoc (s.flushCbs ++ [e])]
    exact perm_append_entry e kept
  | released owner =>
    refine ⟨flushes.kept, fun e member => ?_, flushes.order, fun e member => ?_⟩
    · exact Finset.mem_insert_of_mem (flushes.gone e member)
    · exact (flushes.all e member).imp_right (Or.imp_right Finset.mem_insert_of_mem)
  | gathered _ here _ =>
    have kept := (idle here (by simp)).kept
    rw [List.append_nil, List.append_nil] at kept
    exact ⟨kept, flushes.gone, List.Sublist.refl _, fun e member => .inr (.inl member)⟩
  | dropped e cbs _ here dead =>
    rw [Flushes, running_of_flushing here, todo_of_flushing here] at flushes
    obtain ⟨kept, gone, order, all⟩ := flushes
    refine ⟨?_, fun e' member => ?_, ?_, fun e' member => ?_⟩
    · show s.registered.Perm (s.flushCbs ++ cbs ++ (s.dropped ++ [e]))
      have moved : (s.flushCbs ++ (e :: cbs) ++ s.dropped).Perm
          (s.flushCbs ++ cbs ++ (s.dropped ++ [e])) := by
        rw [← List.append_assoc (s.flushCbs ++ cbs), List.append_assoc, List.cons_append]
        refine List.perm_middle.trans ?_
        rw [← List.append_assoc]
        exact (List.perm_append_singleton e _).symm
      exact kept.trans moved
    · rcases List.mem_append.mp member with before | now
      · exact gone e' before
      · rw [List.mem_singleton.mp now]
        exact dead
    · exact ((List.sublist_cons_self e cbs).append_left _).trans order
    · rcases all e' member with done | todo | gone
      · exact .inl done
      · rcases List.mem_cons.mp todo with rfl | later
        · exact .inr (.inr dead)
        · exact .inr (.inl later)
      · exact .inr (.inr gone)
  | flushed e cbs _ here _ =>
    rw [Flushes, running_of_flushing here, todo_of_flushing here] at flushes
    obtain ⟨kept, gone, order, all⟩ := flushes
    refine ⟨kept, gone, ?_, fun e' member => ?_⟩
    · show (s.flushed ++ [e] ++ cbs).Sublist s.flushDue
      rw [List.append_assoc]
      exact order
    · rcases all e' member with done | todo | gone
      · exact .inl (List.mem_append_left _ done)
      · rcases List.mem_cons.mp todo with rfl | later
        · exact .inl (List.mem_append_right _ (List.mem_singleton_self _))
        · exact .inr (.inl later)
      · exact .inr (.inr gone)
  | kept e cbs _ here =>
    rw [Flushes, running_of_flushing here, todo_of_flushing here] at flushes
    obtain ⟨kept, gone, order, all⟩ := flushes
    refine ⟨?_, gone, order, all⟩
    show s.registered.Perm (s.flushCbs ++ [e] ++ ([] ++ cbs) ++ s.dropped)
    rw [List.append_assoc s.flushCbs]
    exact kept
  | repeated _ here =>
    rw [Flushes, running_of_flushing here, todo_of_flushing here] at flushes
    exact flushes
  | entered _ here _ | started _ here | left _ _ here _ | expired _ _ _ _ here _
  | waited _ _ _ here _ | polled _ _ _ _ here _ | awoke _ _ here | handled _ _ _ here
  | handledTimer _ _ _ _ _ _ here _ | swapped _ here => exact idle here (by simp)
  | checked now phase _ here _ _ next => rcases next with rfl | rfl <;> exact idle here (by simp)
  | finished now timers phase _ place _ _ =>
    rcases place with ⟨here, rfl⟩ | ⟨active, here, rfl⟩ <;> exact idle here (by simp)
  | _ => exact flushes

/-- In every run, a connection that is not destroyed is flushed once in each round that begins after
it was registered. -/
theorem flushes_of_run (run : machine.Run h s) : Flushes s :=
  run.invariant
    (by
      rintro _ ⟨th, clock, rfl⟩
      exact ⟨.refl _, fun e member => (by cases member), .refl _, fun e member => by cases member⟩)
    fun _ _ _ step flushes => flushes.step (taken_of_step step)

/-- Two connections are flushed in the first round; one of them is destroyed, and the other is
flushed alone in the second round. -/
theorem flushes_of_run_destroyed :
    ∃ s : EventLoop Bool ℕ, s.flushed = [⟨2, 20⟩] ∧ s.dropped = [⟨1, 10⟩] ∧ Flushes s := by
  obtain ⟨h, s, run, -, reached⟩ := machine.exists_run
    [.loop false, .move .start, .move (.check 0), .move (.wait 0), .move (.poll 0 [.channel 3]),
      .registerFlush ⟨1, 10⟩, .registerFlush ⟨2, 20⟩, .move .handle, .move .doPending,
      .move .flushAll, .move .flush, .move .flushReturns, .move .flush, .move .flushReturns,
      .move .again, .release 1, .move (.check 0), .move (.wait 0), .move (.poll 0 [.channel 3]),
      .move .handle, .move .doPending, .move .flushAll, .move .flush, .move .flush]
    (fun _ _ => true) (fun s => s.flushed = [⟨2, 20⟩] && s.dropped = [⟨1, 10⟩]) ⟨false, 0, rfl⟩
    (by decide)
  simp only [Bool.and_eq_true, decide_eq_true_eq] at reached
  exact ⟨s, reached.1, reached.2, flushes_of_run run⟩

end EventLoop

end Perfacet
