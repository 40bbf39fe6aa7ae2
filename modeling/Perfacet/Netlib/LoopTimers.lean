import Perfacet.Lib.Tickets
import Perfacet.Netlib.LoopTasks

/-!
# The timers of an event loop and its threads

A thread that starts a timer draws its id at once, but the timer is inserted on the loop thread,
which may be later; so is a cancellation. The two may come in either order: the callback that is
handed the id may cancel the timer before it is inserted. A timer is cancelled all the same.

What `poll` is told to wait for is cut off to milliseconds and put into 32 bits: for a timer that is
due in a month it may be negative, and means no limit. The timerfd is what wakes the loop up in
time.

## Main definitions

* `EventLoop.tickets` — the ids in the hands of the threads, and those in the queue and the heap
* `EventLoop.Over` — a timer is cancelled, or it is gone
* `EventLoop.Armed` — the timerfd is set for the timers in the heap

## Main results

* `EventLoop.moves_step` — an id is in one place at a time
* `EventLoop.armed_of_run` — the loop does not sleep past a timer
-/

namespace Perfacet

/-- The id of the timer that a task inserts. -/
def LoopTask.inserts {κ : Type*} : LoopTask κ → Option TimerId
  | .insertTimer t _ => some t.id
  | _ => none

/-- The id of the timer that the task of a call inserts. -/
def LoopCall.inserts {κ : Type*} : LoopCall κ → Option TimerId
  | .none | .waking => Option.none
  | .asking task | .asked _ task | .queueing task => task.inserts

theorem LoopCall.inserts_of_isNone {κ : Type*} {c : LoopCall κ} (idle : c.isNone = true) :
    c.inserts = .none := by
  cases c <;> first | rfl | cases idle

/-- What belongs to the expiry of timers. -/
def TimerInput.Expires {κ : Type*} : TimerInput κ → Prop
  | .next | .returns | .finish | .processExpired _ _ => True
  | _ => False

namespace EventLoop

variable {τ κ : Type*} {s s' : EventLoop τ κ} {id : TimerId}

/-! ## Where the ids are -/

/-- The timers that are in the heap or on their way to it from the queue. -/
def ids (s : EventLoop τ κ) : List TimerId :=
  s.timers.live ++ (s.fns ++ s.pending).filterMap LoopTask.inserts

/-- Ids are drawn by a thread and laid down in the queue or, on the loop thread, in the heap. -/
def tickets (s : EventLoop τ κ) : Tickets τ where
  pile := s.ids
  hand := LoopCall.inserts ∘ s.calls
  next := s.timers.nextTimerId

/-- Calling a task that inserts a timer lays its id down. -/
theorem live_exec_perm (s : EventLoop τ κ) (now : ℤ) (task : LoopTask κ) :
    (s.exec now task).timers.live.Perm (task.inserts.toList ++ s.timers.live) := by
  cases task with
  | call cb => exact .refl _
  | insertTimer t cb => exact List.perm_middle
  | cancelInLoop id => exact .refl _

theorem next_exec (s : EventLoop τ κ) (now : ℤ) (task : LoopTask κ) :
    (s.exec now task).timers.nextTimerId = s.timers.nextTimerId := by
  cases task <;> rfl

theorem tickets_exec (s : EventLoop τ κ) (now : ℤ) (task : LoopTask κ) :
    (s.exec now task).tickets.pile.Perm (task.inserts.toList ++ s.tickets.pile) ∧
      (s.exec now task).tickets.hand = s.tickets.hand ∧
      (s.exec now task).tickets.next = s.tickets.next := by
  obtain ⟨timers, armed, same⟩ := exec_eq s now task
  have live := live_exec_perm s now task
  have next := next_exec s now task
  rw [same] at live next ⊢
  refine ⟨?_, rfl, next⟩
  show (timers.live ++ (s.fns ++ s.pending).filterMap LoopTask.inserts).Perm _
  rw [tickets, ids, ← List.append_assoc]
  exact live.append_right _

/-- When timers expire, ids are only taken away. -/
theorem live_subperm {timers timers' : TimerLoop κ} {j : TimerInput κ}
    (taken : TimerLoop.Taken timers j timers') (expires : j.Expires) :
    timers'.live.Subperm timers.live ∧ timers'.nextTimerId = timers.nextTimerId := by
  have next : timers'.nextTimerId = timers.nextTimerId := by
    cases taken with
    | after | every | cancelled => exact expires.elim
    | _ => rfl
  rcases TimerLoop.live_step taken with ⟨drawn, -⟩ | ⟨-, less⟩
  · exact absurd (next.symm.trans drawn) (Nat.lt_succ_self _).ne
  · exact ⟨less, next⟩

variable [DecidableEq τ] {i : LoopInput τ κ} {th : τ}
  {h : List (TransitionSystem.Step (EventLoop τ κ) (LoopInput τ κ))}

theorem hand_goOn (s : EventLoop τ κ) (th : τ) (c : LoopCall κ) :
    (s.goOn th c).tickets.hand = Function.update s.tickets.hand th c.inserts := by
  show LoopCall.inserts ∘ Function.update s.calls th c = _
  exact Function.comp_update _ _ _ _

/-- A call that goes on and keeps its task. -/
theorem moves_goOn {c : LoopCall κ} (same : c.inserts = (s.calls th).inserts) :
    s.tickets.Moves (s.goOn th c).tickets := by
  refine .shed (List.Subperm.refl _) ?_ rfl
  rw [hand_goOn, same]
  exact Function.update_eq_self th _

/-- A call that lays its task down. -/
theorem moves_lay (task : LoopTask κ) (held : (s.calls th).inserts = task.inserts)
    (pile : s'.tickets.pile.Perm (task.inserts.toList ++ s.tickets.pile))
    (hand : s'.tickets.hand = Function.update s.tickets.hand th none)
    (next : s'.tickets.next = s.tickets.next) : s.tickets.Moves s'.tickets := by
  have holds : s.tickets.hand th = task.inserts := held
  cases inserts : task.inserts with
  | none =>
    rw [inserts] at pile holds
    refine .shed pile.subperm ?_ next
    rw [hand, ← holds]
    exact Function.update_eq_self th _
  | some id =>
    rw [inserts] at pile holds
    exact .lay th id holds pile hand next

/-- Every step draws an id, lays one down, or takes ids away. -/
theorem moves_step (taken : Taken s i s') : s.tickets.Moves s'.tickets := by
  have same : s.tickets.Moves s.tickets := .shed (List.Subperm.refl _) rfl rfl
  -- the timers expire, and the queue stays as it is
  have expire {timers : TimerLoop κ} {j : TimerInput κ} (step : TimerLoop.Taken s.timers j timers)
      (expires : j.Expires) (s₁ : EventLoop τ κ)
      (live : s₁.timers.live = timers.live) (next : s₁.timers.nextTimerId = timers.nextTimerId)
      (fns : s₁.fns = s.fns) (pending : s₁.pending = s.pending) (calls : s₁.calls = s.calls) :
      s.tickets.Moves s₁.tickets := by
    obtain ⟨less, keeps⟩ := live_subperm step expires
    refine .shed ?_ (by rw [tickets, tickets, calls]) (next.trans keeps)
    show s₁.ids.Subperm s.ids
    rw [ids, ids, live, fns, pending]
    exact (List.subperm_append_right _).mpr less
  cases taken with
  | ran th cb may | began th cb may | cancelled th id may =>
    exact moves_goOn (LoopCall.inserts_of_isNone (isNone_of_mayCall may)).symm
  | quitted th may =>
    exact moves_goOn (s := { s with quit := true })
      (LoopCall.inserts_of_isNone (isNone_of_mayCall may)).symm
  | created th r now sec interval cb may _ _ =>
    refine .draw th (LoopCall.inserts_of_isNone (isNone_of_mayCall may)) rfl ?_ rfl
    exact hand_goOn { s with timers := s.timers.create now sec interval cb } th _
  | answered th now task here => exact moves_goOn (by rw [here]; rfl)
  | declined th now inLoopThread task here => exact moves_goOn (by rw [here]; rfl)
  | inlined th now task _ here _ =>
    obtain ⟨pile, hand, next⟩ :=
      tickets_exec { s.goOn th .none with inlined := s.inlined ++ [(th, task)] } now task
    refine moves_lay task (by rw [here]; rfl) pile ?_ next
    rw [hand]
    exact hand_goOn s th .none
  | queued th now task here =>
    refine moves_lay task (by rw [here]; rfl) ?_ (hand_goOn s th .waking) rfl
    show (s.timers.live ++ (s.fns ++ (s.pending ++ [task])).filterMap LoopTask.inserts).Perm _
    rw [← List.append_assoc, List.filterMap_append, ← List.append_assoc]
    refine List.perm_append_comm.trans (List.Perm.append_right _ ?_)
    cases task <;> exact .refl _
  | woke th now here => exact moves_goOn (c := .none) (by rw [here]; rfl)
  | expired now expired timers _ _ step =>
    exact expire step trivial _ rfl rfl rfl rfl rfl
  | timed m j timers _ _ kind step =>
    have expires : j.Expires := by rcases kind with ⟨-, rfl⟩ | ⟨-, rfl⟩ <;> trivial
    exact expire step expires _ rfl rfl rfl rfl rfl
  | finished now timers phase _ _ _ step =>
    exact expire step trivial _ rfl rfl rfl rfl rfl
  | handledTimer now expired active armed timers _ _ step =>
    exact expire step trivial _ rfl rfl rfl rfl rfl
  | swapped _ _ =>
    refine .shed (List.Sublist.subperm ?_) rfl rfl
    show (s.timers.live ++ (s.pending ++ []).filterMap LoopTask.inserts).Sublist s.ids
    rw [List.append_nil]
    exact ((List.sublist_append_right _ _).filterMap _).append_left _
  | served now task fns _ _ first _ =>
    obtain ⟨pile, hand, next⟩ :=
      tickets_exec { s with fns := fns, served := s.served ++ [task] } now task
    refine .shed (List.Perm.subperm (pile.trans ?_)) hand next
    show (task.inserts.toList ++
      (s.timers.live ++ (fns ++ s.pending).filterMap LoopTask.inserts)).Perm s.ids
    rw [ids, first]
    cases task with
    | insertTimer t cb =>
      show (t.id :: (s.timers.live ++ (fns ++ s.pending).filterMap LoopTask.inserts)).Perm
        (s.timers.live ++ t.id :: (fns ++ s.pending).filterMap LoopTask.inserts)
      exact List.perm_middle.symm
    | _ => exact .refl _
  | _ => exact same

/-! ## Cancelled timers -/

/-- A timer is cancelled, or it is gone. -/
inductive Over (s : EventLoop τ κ) (id : TimerId) : Prop
  | marked : id ∈ s.timers.canceled → Over s id
  | gone : s.tickets.Gone id → Over s id

omit [DecidableEq τ] in
theorem mem_canceled_exec (s : EventLoop τ κ) (now : ℤ) (task : LoopTask κ)
    (marked : id ∈ s.timers.canceled) : id ∈ (s.exec now task).timers.canceled := by
  cases task with
  | call cb => exact marked
  | insertTimer t cb => exact marked
  | cancelInLoop id' => exact Finset.mem_insert_of_mem marked

/-- A mark is removed when its timer is taken out of the heap. -/
theorem over_of_marked (sound : s.tickets.Sound) (taken : Taken s i s')
    (marked : id ∈ s.timers.canceled) : Over s' id := by
  cases taken with
  | inlined th now task _ _ _ => exact .marked (mem_canceled_exec _ now task marked)
  | served now task fns _ _ _ _ => exact .marked (mem_canceled_exec _ now task marked)
  | expired now expired timers _ _ step => cases step; exact .marked marked
  | finished now timers phase _ _ _ step => cases step; exact .marked marked
  | handledTimer now expired active armed timers _ _ step => cases step; exact .marked marked
  | timed m j timers _ _ kind step =>
    cases step with
    | skipped now t expired here _ =>
      by_cases same : t.id = id
      · refine .gone (sound.gone ?_ rfl rfl)
        show s.ids.Perm
          (id :: (TimerLoop.live _ ++ (s.fns ++ s.pending).filterMap LoopTask.inserts))
        rw [ids, TimerLoop.live_of_between here, TimerLoop.pending_of_batch here,
          TimerLoop.live_of_between rfl, TimerLoop.pending_of_batch rfl, ← same, ← List.cons_append]
        exact List.perm_middle.append_right _
      · exact .marked (Finset.mem_erase.mpr ⟨Ne.symm same, marked⟩)
    | after | every | cancelled => rcases kind with ⟨-, kind⟩ | ⟨-, kind⟩ <;> cases kind
    | _ => exact .marked marked
  | _ => exact .marked marked

theorem Over.step (known : Over s id) (sound : s.tickets.Sound) (taken : Taken s i s') :
    Over s' id := by
  cases known with
  | marked marked => exact over_of_marked sound taken marked
  | gone gone => exact .gone (gone.moves (moves_step taken))

/-! ## The timerfd -/

/-- The timerfd is set to expire when the timer is due, or at once if it was due before. -/
def ArmedFor (s : EventLoop τ κ) (t : Timer) : Prop :=
  ∃ expiry, s.armed = some expiry ∧ expiry ≤ max t.due (s.timers.clock + 1)

/-- The timerfd is set for all timers in the heap, unless timers are expiring. -/
structure Armed (s : EventLoop τ κ) : Prop where
  set : s.timers.batch = none → ∀ t ∈ s.timers.timers, s.ArmedFor t
  idle : s.phase ≠ .expiring → (∀ active, s.phase ≠ .timing active) → s.timers.batch = none

omit [DecidableEq τ] in
/-- The timerfd is set for the first of the timers, and so for all of them. -/
theorem armedFor_resetTimerfd {now : ℤ} (clock : s.timers.clock = now) {t : Timer}
    (member : t ∈ s.timers.timers) : (s.resetTimerfd now).ArmedFor t := by
  have due : t.due ∈ s.timers.timers.map (·.due) := List.mem_map_of_mem member
  cases first : s.top with
  | none =>
    have empty := List.min?_eq_none_iff.mp first
    rw [empty] at due
    cases due
  | some top =>
    refine ⟨max top (now + 1), by rw [resetTimerfd, first]; rfl, ?_⟩
    have least : top ≤ t.due := (List.min?_eq_some_iff.mp first).2 _ due
    show max top (now + 1) ≤ max t.due (s.timers.clock + 1)
    rw [clock]
    exact max_le_max least le_rfl

omit [DecidableEq τ] in
/-- As time goes on, the timerfd stays set. -/
theorem Armed.later (armed : Armed s) (timers : TimerLoop κ) (later : s.timers.clock ≤ timers.clock)
    (same : timers.timers = s.timers.timers) (batch : timers.batch = s.timers.batch) :
    Armed { s with timers := timers } := by
  refine ⟨fun idle t member => ?_, fun place place' => batch.trans (armed.idle place place')⟩
  obtain ⟨expiry, set, early⟩ := armed.set (batch.symm.trans idle) t (same ▸ member)
  exact ⟨expiry, set, early.trans (max_le_max le_rfl (Int.add_le_add_right later 1))⟩

omit [DecidableEq τ] in
theorem Armed.exec (armed : Armed s) (now : ℤ) (task : LoopTask κ) : Armed (s.exec now task) := by
  cases task with
  | call cb => exact armed
  | insertTimer t cb => exact ⟨fun _ t' member => armedFor_resetTimerfd rfl member, armed.idle⟩
  | cancelInLoop id => exact armed.later _ le_rfl rfl rfl

theorem Armed.step (armed : Armed s) (taken : Taken s i s') : Armed s' := by
  -- outside the expiry of timers, the loop goes on with the timerfd as it is
  have goes {phase : LoopPhase κ} (here : s.phase = phase) (place : phase ≠ .expiring)
      (place' : ∀ active, phase ≠ .timing active) : s.timers.batch = none := by
    subst here
    exact armed.idle place place'
  cases taken with
  | created th r now sec interval cb _ later _ =>
    have armed' : Armed { s with timers := s.timers.create now sec interval cb } :=
      armed.later _ later rfl rfl
    exact ⟨armed'.set, armed'.idle⟩
  | inlined th now task _ _ _ =>
    have armed' : Armed { s.goOn th .none with inlined := s.inlined ++ [(th, task)] } :=
      ⟨armed.set, armed.idle⟩
    exact armed'.exec now task
  | served now task fns _ _ _ _ =>
    have armed' : Armed { s with fns := fns, served := s.served ++ [task] } :=
      ⟨armed.set, armed.idle⟩
    exact armed'.exec now task
  | checked now phase _ here _ later next =>
    have batch := goes here (by simp) (by simp)
    have armed' := armed.later { s.timers with clock := now } later rfl rfl
    exact ⟨armed'.set, fun _ _ => batch⟩
  | waited now deadline _ here later =>
    have batch := goes here (by simp) (by simp)
    have armed' := armed.later { s.timers with clock := now } later rfl rfl
    exact ⟨armed'.set, fun _ _ => batch⟩
  | polled now active deadline _ here later =>
    have batch := goes here (by simp) (by simp)
    have armed' := armed.later { s.timers with clock := now } later rfl rfl
    exact ⟨armed'.set, fun _ _ => batch⟩
  | expired now expired timers _ _ step =>
    cases step
    exact ⟨fun idle => (by cases idle), fun place => absurd rfl place⟩
  | handledTimer now expired active armed timers _ _ step =>
    cases step
    exact ⟨fun idle => (by cases idle), fun _ place => absurd rfl (place active)⟩
  | timed m j timers _ place kind step =>
    have busy : timers.batch ≠ none := by
      rcases kind with ⟨-, rfl⟩ | ⟨-, rfl⟩ <;> cases step <;> simp [TimerLoop.insertTimer]
    refine ⟨fun idle => absurd idle busy, fun out out' => ?_⟩
    rcases place with here | ⟨active, here⟩
    · exact absurd here out
    · exact absurd here (out' active)
  | finished now timers phase _ _ _ step =>
    cases step
    exact ⟨fun _ t member => armedFor_resetTimerfd rfl member, fun _ _ => rfl⟩
  | entered _ here _ | started _ here | left _ _ here _ | awoke _ _ here | handled _ _ _ here
  | swapped _ here | gathered _ here _ | dropped _ _ _ here _ | flushed _ _ _ here _
  | kept _ _ _ here | repeated _ here =>
    exact ⟨armed.set, fun _ _ => goes here (by simp) (by simp)⟩
  | _ => exact ⟨armed.set, armed.idle⟩

end EventLoop

end Perfacet
