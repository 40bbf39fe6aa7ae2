import Perfacet.Govern.Accounting

/-!
# Who is admitted first

The queue of a tool is in the order in which requests were made, and a slot that is returned
goes to its front. But `acquire` does not look at the queue: who finds a slot free takes it, also
past a request that waits for a slot of its own principal.

## Main definitions

* `GovernorState.Ordered` — every queue is in the order of the requests
* `Fifo` — a step admits nobody before an earlier request whose deadline has not passed
* `GovernorState.Overtakes` — `acquire` finds a slot free while somebody waits for the tool

## Main results

* `fifo_iff` — when every step of a run is first in, first out
-/

namespace Perfacet

/-- What the clock shows during a step that may read it. -/
def GovernorInput.clock : GovernorInput → Option UInt64
  | .acquire _ _ _ now => some now
  | .run now => some now
  | _ => none

/-- Nobody is admitted by the step before an earlier request for the same tool that still waits
and whose deadline has not passed. -/
def Fifo (t : TransitionSystem.Step GovernorState GovernorInput) : Prop :=
  ∀ n key agentId waited, .go n key agentId waited ∈ Governor.logged t →
    ∀ now, t.input.clock = some now →
      ∀ w ∈ t.pre.gov.queue key.str, now < w.deadlineMs → ¬ w.cb < n

namespace GovernorState

variable {s s' : GovernorState} {input : GovernorInput} {ts : String} {w : Waiter ℕ}

/-- `acquire` finds a slot free for its tool and principal while a request waits for the tool
whose deadline has not passed. -/
def Overtakes (s : GovernorState) : GovernorInput → Prop
  | .acquire who key _ now => s.gov.canTake key.str who.agentId = true ∧
      ∃ w ∈ s.gov.queue key.str, now < w.deadlineMs
  | _ => False

/-! ## The order of the queues -/

/-- Every queue is in the order in which the requests were made. -/
structure Ordered (s : GovernorState) : Prop where
  sorted : ∀ ts, (s.gov.queue ts).Pairwise fun w w' => w.cb < w'.cb
  issued : ∀ {ts w}, w ∈ s.gov.queue ts → w.cb < s.nextAcquire

namespace Ordered

/-- Steps that leave the queues alone. -/
theorem quiet (inv : s.Ordered) (same : s'.gov.queues = s.gov.queues)
    (later : s.nextAcquire ≤ s'.nextAcquire) : s'.Ordered := by
  have queue : ∀ ts, s'.gov.queue ts = s.gov.queue ts := by
    intro ts
    rw [LocalGovernor.queue, same, LocalGovernor.queue]
  constructor
  · intro ts
    rw [queue]
    exact inv.sorted ts
  · intro ts w member
    rw [queue] at member
    exact (inv.issued member).trans_le later

/-- Steps that take a waiter out. -/
theorem leave (inv : s.Ordered) {l₁ l₂ : List (Waiter ℕ)}
    (split : s.gov.queue ts = l₁ ++ w :: l₂)
    (left : s'.gov.queues = (s.gov.unqueue ts w (l₁ ++ l₂)).queues)
    (counter : s'.nextAcquire = s.nextAcquire) : s'.Ordered := by
  have queue : ∀ ts', s'.gov.queue ts' = if ts' = ts then l₁ ++ l₂ else s.gov.queue ts' := by
    intro ts'
    rw [← LocalGovernor.queue_unqueue (w := w), LocalGovernor.queue, left, LocalGovernor.queue]
  have within : ∀ ts', (s'.gov.queue ts').Sublist (s.gov.queue ts') := by
    intro ts'
    rw [queue]
    split
    · next same =>
      rw [same, split]
      exact (List.sublist_cons_self w l₂).append_left l₁
    · exact .refl _
  constructor
  · exact fun ts' => (inv.sorted ts').sublist (within ts')
  · intro ts' w' member
    rw [counter]
    exact inv.issued ((within ts').mem member)

/-- A request goes to the back of its queue. -/
theorem enqueue (inv : s.Ordered) (who : Principal) (key : ToolKey) (deadline : UInt64) :
    Ordered { s with
      nextAcquire := s.nextAcquire + 1
      log := .acquire s.nextAcquire key who.agentId :: s.log
      gov := s.gov.enqueue who key deadline s.nextAcquire } := by
  constructor
  · intro ts
    rw [LocalGovernor.queue_enqueue]
    split
    · refine List.pairwise_append.mpr ⟨inv.sorted ts, List.pairwise_singleton _ _, ?_⟩
      intro w old w' new
      obtain rfl := List.mem_singleton.mp new
      exact inv.issued old
    · exact inv.sorted ts
  · intro ts w member
    rw [LocalGovernor.queue_enqueue] at member
    split at member
    · rcases List.mem_append.mp member with old | new
      · exact Nat.lt_succ_of_lt (inv.issued old)
      · obtain rfl := List.mem_singleton.mp new
        exact Nat.lt_succ_self _
    · exact Nat.lt_succ_of_lt (inv.issued member)

theorem step (inv : s.Ordered) (queues : s.Queueing) (e : Effect s input s') : s'.Ordered := by
  cases e with
  | declare | construct | assignSelf | assignFree | assignHeld | dropFree | dropHeld | toolsListed
  | rejectAll | stop | assignTail | rejectDone | rejectNext => exact inv.quiet rfl le_rfl
  | acquireGo | acquireReject => exact inv.quiet rfl (Nat.le_succ _)
  | acquireQueued => exact inv.enqueue ..
  | timer idle fired =>
    obtain ⟨ts, l₁, w, l₂, split, -, rfl⟩ := LocalGovernor.expire_cases queues.queues fired
    exact inv.leave split rfl rfl
  | dequeueReject top front | rejectHead top front | dequeueGo top front =>
    exact inv.leave (LocalGovernor.split_front front) rfl rfl

theorem of_run {h : List (TransitionSystem.Step GovernorState GovernorInput)}
    (run : Governor.machine.Run h s) : s.Ordered := by
  have both : s.Queueing ∧ s.Ordered := by
    refine run.invariant (I := fun s => s.Queueing ∧ s.Ordered) ?_ ?_
    · rintro _ ⟨cfg, rfl⟩
      exact ⟨.initial cfg, fun ts => List.Pairwise.nil, fun member => by cases member⟩
    · rintro s input s' step ⟨queues, inv⟩
      have e := step_effect step
      exact ⟨queues.step e, inv.step queues e⟩
  exact both.2

end Ordered

/-! ## Who is admitted -/

/-- A step admits the request that it makes, or the one at the front of a queue. -/
theorem Effect.admits (e : Effect s input s') (queues : s.Queueing) :
    ∃ new, s'.log = new ++ s.log ∧ ∀ n key agentId waited, .go n key agentId waited ∈ new →
      (∃ who waitDeadlineMs now, input = .acquire who key waitDeadlineMs now ∧
        n = s.nextAcquire ∧ s.gov.canTake key.str who.agentId = true) ∨
      ∃ w rest, s.gov.queue key.str = w :: rest ∧ w.cb = n := by
  cases e with
  | declare | construct | assignSelf | assignFree | dropFree | toolsListed | rejectAll | stop
  | assignTail | rejectDone | rejectNext => exact ⟨[], rfl, fun _ _ _ _ h => by cases h⟩
  | assignHeld | dropHeld | acquireQueued | dequeueReject | rejectHead =>
    exact ⟨[_], rfl, fun _ _ _ _ h => by cases List.mem_singleton.mp h⟩
  | acquireGo free =>
    refine ⟨[_, _], rfl, fun n key agentId waited h => ?_⟩
    rcases List.mem_cons.mp h with h | h
    · cases h
      exact .inl ⟨_, _, _, rfl, rfl, free⟩
    · cases List.mem_singleton.mp h
  | acquireReject =>
    refine ⟨[_, _], rfl, fun n key agentId waited h => ?_⟩
    rcases List.mem_cons.mp h with h | h
    · cases h
    · cases List.mem_singleton.mp h
  | timer idle fired =>
    obtain ⟨ts, l₁, w, l₂, split, -, rfl⟩ := LocalGovernor.expire_cases queues.queues fired
    exact ⟨[_], rfl, fun _ _ _ _ h => by cases List.mem_singleton.mp h⟩
  | @dequeueGo _ ts _ w rest top front free early =>
    refine ⟨[_], rfl, fun n key agentId waited h => ?_⟩
    cases List.mem_singleton.mp h
    obtain rfl : w.key.str = ts := queues.queues.key (by rw [front]; exact List.mem_cons_self)
    exact .inr ⟨w, rest, front, rfl⟩

end GovernorState

open GovernorState

variable {t : TransitionSystem.Step GovernorState GovernorInput}

/-- A step is first in, first out if and only if it does not overtake. -/
theorem fifo_step_iff (queues : t.pre.Queueing) (order : t.pre.Ordered)
    (step : t.pre.step t.input = some t.post) : Fifo t ↔ ¬ t.pre.Overtakes t.input := by
  obtain ⟨pre, input, post⟩ := t
  dsimp only at queues order step ⊢
  constructor
  · intro fifo overtakes
    cases input with
    | acquire who key waitDeadlineMs now =>
      obtain ⟨free, w, waits, early⟩ := overtakes
      -- The slot is free, so the request is admitted at once.
      simp only [GovernorState.step, Option.ite_none_right_eq_some] at step
      obtain ⟨-, step⟩ := step
      rw [LocalGovernor.acquire_go free] at step
      obtain rfl := Option.some.inj step
      refine fifo pre.nextAcquire key who.agentId none ?_ now rfl w waits early (order.issued waits)
      rw [@logged_append _ [_, _] rfl]
      exact List.mem_cons_self
    | _ => exact overtakes
  · intro none n key agentId waited logged now clock w waits early earlier
    obtain ⟨new, log, admits⟩ := (step_effect step).admits queues
    rw [logged_append log] at logged
    rcases admits n key agentId waited logged with
      ⟨who, d, now', rfl, rfl, free⟩ | ⟨w', rest, front, rfl⟩
    · obtain rfl := Option.some.inj clock
      exact none ⟨free, w, waits, early⟩
    · -- The front of the queue is the earliest request in it.
      have sorted := order.sorted key.str
      rw [front] at sorted waits
      rcases List.mem_cons.mp waits with rfl | behind
      · exact lt_irrefl _ earlier
      · exact lt_asymm earlier ((List.pairwise_cons.mp sorted).1 w behind)

/-- Every step of a run is first in, first out if and only if no `acquire` finds a slot free while
an earlier request for its tool waits whose deadline has not passed. -/
theorem fifo_iff {h : List (TransitionSystem.Step GovernorState GovernorInput)}
    {s : GovernorState} (run : Governor.machine.Run h s) :
    (∀ t ∈ h, Fifo t) ↔ ∀ t ∈ h, ¬ t.pre.Overtakes t.input := by
  refine forall₂_congr fun t taken => ?_
  obtain ⟨earlier, before, step, -⟩ := run.of_mem taken
  exact fifo_step_iff (.of_run before) (.of_run before) step

/-! ## An example -/

namespace GovernorExample

/-- Two slots for each tool and one for each principal. -/
def double : GovernorState :=
  { gov := { cfg := { perToolConcurrency := 2, perPrincipalConcurrency := 1 } } }

/-- The requests of `queueing` overtake nobody. -/
def straight (s : GovernorState) : GovernorInput → Bool
  | .acquire who key _ now => !(s.gov.canTake key.str who.agentId &&
      (s.gov.queue key.str).any fun w => decide (now < w.deadlineMs))
  | _ => true

theorem not_overtakes_of_straight {s : GovernorState} {input : GovernorInput}
    (kept : straight s input = true) : ¬ s.Overtakes input := by
  cases input with
  | acquire who key waitDeadlineMs now =>
    rintro ⟨free, w, waits, early⟩
    simp only [straight, free, Bool.true_and, Bool.not_eq_true', List.any_eq_false,
      decide_eq_true_eq] at kept
    exact kept w waits early
  | _ => exact id

/-- A principal with a slot waits for a second one; another principal comes later. -/
def overtaking : List GovernorInput :=
  [.acquire (client "ann") ⟨"b", "t"⟩ 100 0, .construct 0 (.param 0), .ret,
    .acquire (client "ann") ⟨"b", "t"⟩ 100 0, .acquire (client "bob") ⟨"b", "t"⟩ 100 1]

end GovernorExample

open GovernorExample in
/-- A run in which a request waits and nobody overtakes. -/
theorem fifo_iff_queueing : ∃ h s, Governor.machine.Run h s ∧
    (s.gov.queue "b__t").length = 1 ∧ ∀ t ∈ h, Fifo t := by
  obtain ⟨h, s, run, kept, reached⟩ := TransitionSystem.exists_run (M := Governor.machine)
    queueing straight (fun s => decide ((s.gov.queue "b__t").length = 1)) (s := single)
    ⟨_, rfl⟩ (by decide +kernel)
  exact ⟨h, s, run, of_decide_eq_true reached,
    (fifo_iff run).mpr fun t taken => not_overtakes_of_straight (kept t taken)⟩

open GovernorExample in
/-- The later principal is admitted while the earlier request still waits. -/
theorem overtaken : ∃ h s, Governor.machine.Run h s ∧
    .go 2 ⟨"b", "t"⟩ "bob" none ∈ s.log ∧
      ∃ w ∈ s.gov.queue "b__t", w.cb = 1 ∧ 1 < w.deadlineMs := by
  obtain ⟨h, s, run, -, reached⟩ := TransitionSystem.exists_run (M := Governor.machine)
    overtaking (fun _ _ => true)
    (fun s => decide (.go 2 ⟨"b", "t"⟩ "bob" none ∈ s.log) &&
      (s.gov.queue "b__t").any fun w => decide (w.cb = 1 ∧ 1 < w.deadlineMs))
    (s := double) ⟨_, rfl⟩ (by decide +kernel)
  obtain ⟨admitted, waits⟩ := (Bool.and_eq_true _ _).mp reached
  obtain ⟨w, member, waiting⟩ := List.any_eq_true.mp waits
  exact ⟨h, s, run, of_decide_eq_true admitted, w, member, of_decide_eq_true waiting⟩

end Perfacet
