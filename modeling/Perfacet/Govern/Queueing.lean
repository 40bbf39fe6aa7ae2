import Perfacet.Govern.Machine

/-!
# No waiter is lost or answered twice

Three paths take a waiter out of a queue: its timer, a returned slot, and the bulk
rejection at shutdown. The invariant behind this file balances the books for every
`acquire` number: the answers it got and the queue entries it has add up to the one time it
was called.

## Main results

* `GovernorState.Queueing` — the invariant
* `waiters_answered_once` — every `acquire` is answered once or waits in the queue of its
  tool with a timer that will reject it, and a waiter is only admitted before its deadline
-/

namespace Perfacet

namespace GovernorEvent

/-- The event answers `acquire` number `n`. -/
def answers (n : ℕ) : GovernorEvent → Bool
  | .go m _ _ _ => m = n
  | .reject m => m = n
  | _ => false

/-- The event is the call of `acquire` number `n`. -/
def acquires (n : ℕ) : GovernorEvent → Bool
  | .acquire m _ _ => m = n
  | _ => false

end GovernorEvent

namespace GovernorState

variable {s s' : GovernorState} {input : GovernorInput} {ts : String} {w : Waiter ℕ}
  {l₁ l₂ : List (Waiter ℕ)}

/-- How often `onAdmit` of `acquire` number `n` was called. -/
def answers (s : GovernorState) (n : ℕ) : ℕ := s.log.countP (·.answers n)

/-- How often `acquire` number `n` happened. -/
def acquires (s : GovernorState) (n : ℕ) : ℕ := s.log.countP (·.acquires n)

/-- Every `acquire` so far was called once, and was answered or is waiting. -/
structure Queueing (s : GovernorState) : Prop where
  queues : s.gov.QueuesOk
  asked : ∀ n, s.acquires n = if n < s.nextAcquire then 1 else 0
  settled : ∀ n, s.answers n + s.gov.waiting (· = n) = s.acquires n
  origin : ∀ {ts w}, w ∈ s.gov.queue ts → .acquire w.cb w.key w.who.agentId ∈ s.log

namespace Queueing

/-- Steps that neither ask nor answer. -/
theorem quiet (inv : s.Queueing) (queues : s'.gov.QueuesOk) (same : s'.gov.queues = s.gov.queues)
    (counter : s'.nextAcquire = s.nextAcquire) (log : ∃ new, s'.log = new ++ s.log ∧
      ∀ e ∈ new, ∀ n, e.answers n = false ∧ e.acquires n = false) : s'.Queueing := by
  obtain ⟨new, appended, silent⟩ := log
  have acquires : ∀ n, s'.acquires n = s.acquires n := by
    intro n
    rw [GovernorState.acquires, appended, List.countP_append,
      List.countP_eq_zero.mpr fun e he => by simp [(silent e he n).2], Nat.zero_add]
    rfl
  have answers : ∀ n, s'.answers n = s.answers n := by
    intro n
    rw [GovernorState.answers, appended, List.countP_append,
      List.countP_eq_zero.mpr fun e he => by simp [(silent e he n).1], Nat.zero_add]
    rfl
  refine ⟨queues, fun n => ?_, fun n => ?_, fun {ts w} member => ?_⟩
  · rw [acquires, counter]
    exact inv.asked n
  · rw [acquires, answers, LocalGovernor.waiting_congr _ same]
    exact inv.settled n
  · rw [LocalGovernor.queue, same] at member
    rw [appended]
    exact List.mem_append_right _ (inv.origin member)

/-- Steps that take a waiter out of its queue and answer it. -/
theorem settle (inv : s.Queueing) (split : s.gov.queue ts = l₁ ++ w :: l₂)
    (queues : s'.gov.QueuesOk) (left : s'.gov.queues = (s.gov.unqueue ts w (l₁ ++ l₂)).queues)
    (counter : s'.nextAcquire = s.nextAcquire) {e : GovernorEvent} (log : s'.log = e :: s.log)
    (answer : ∀ n, e.answers n = decide (w.cb = n)) (noAsk : ∀ n, e.acquires n = false) :
    s'.Queueing := by
  have acquires : ∀ n, s'.acquires n = s.acquires n := by
    intro n
    rw [GovernorState.acquires, log, List.countP_cons, noAsk]
    rfl
  refine ⟨queues, fun n => ?_, fun n => ?_, fun {ts' w'} member => ?_⟩
  · rw [acquires, counter]
    exact inv.asked n
  · have moved := LocalGovernor.waiting_unqueue (fun cb => decide (cb = n)) split
    have before := inv.settled n
    rw [acquires, LocalGovernor.waiting_congr _ left, GovernorState.answers, log,
      List.countP_cons, answer]
    change s.answers n + _ + _ = _
    have bit : (if decide (w.cb = n) = true then 1 else 0) = (decide (w.cb = n)).toNat := by
      cases decide (w.cb = n) <;> rfl
    omega
  · rw [LocalGovernor.queue, left] at member
    rw [log]
    exact List.mem_cons_of_mem _ (inv.origin (LocalGovernor.mem_queue_unqueue split member))

/-- Steps that ask and answer at once. -/
theorem immediate (inv : s.Queueing) (queues : s'.gov.QueuesOk)
    (same : s'.gov.queues = s.gov.queues) (counter : s'.nextAcquire = s.nextAcquire + 1)
    {e : GovernorEvent} {key : ToolKey} {agentId : String}
    (log : s'.log = e :: .acquire s.nextAcquire key agentId :: s.log)
    (answer : ∀ n, e.answers n = decide (s.nextAcquire = n)) (noAsk : ∀ n, e.acquires n = false) :
    s'.Queueing := by
  have acquires : ∀ n, s'.acquires n = s.acquires n + if s.nextAcquire = n then 1 else 0 := by
    intro n
    rw [GovernorState.acquires, log, List.countP_cons, List.countP_cons, noAsk]
    simp [GovernorEvent.acquires, GovernorState.acquires]
  refine ⟨queues, fun n => ?_, fun n => ?_, fun {ts' w'} member => ?_⟩
  · rw [acquires, inv.asked n, counter]
    split <;> split <;> split <;> omega
  · have before := inv.settled n
    rw [acquires, LocalGovernor.waiting_congr _ same, GovernorState.answers, log,
      List.countP_cons, List.countP_cons, answer]
    simp only [GovernorEvent.answers, decide_eq_true_eq, Bool.false_eq_true, if_false]
    change s.answers n + 0 + _ + _ = _
    omega
  · rw [LocalGovernor.queue, same] at member
    rw [log]
    exact List.mem_cons_of_mem _ (List.mem_cons_of_mem _ (inv.origin member))

/-- Steps that ask and queue. -/
theorem queued (inv : s.Queueing) (who : Principal) (key : ToolKey) (deadline : UInt64) :
    Queueing { s with
      nextAcquire := s.nextAcquire + 1
      log := .acquire s.nextAcquire key who.agentId :: s.log
      gov := s.gov.enqueue who key deadline s.nextAcquire } := by
  refine ⟨inv.queues.enqueue, fun n => ?_, fun n => ?_, fun {ts w} member => ?_⟩
  · have before := inv.asked n
    simp only [acquires, List.countP_cons, GovernorEvent.acquires, decide_eq_true_eq] at before ⊢
    rw [before]
    split <;> split <;> split <;> omega
  · have before := inv.settled n
    have entered := LocalGovernor.waiting_enqueue (fun cb => decide (cb = n)) s.gov who key
      deadline s.nextAcquire
    simp only [answers, acquires, List.countP_cons, GovernorEvent.acquires,
      GovernorEvent.answers, decide_eq_true_eq, Bool.false_eq_true, if_false] at before ⊢
    have bit : (decide (s.nextAcquire = n)).toNat = if s.nextAcquire = n then 1 else 0 := by
      by_cases h : s.nextAcquire = n <;> simp [h]
    omega
  · rw [LocalGovernor.queue_enqueue] at member
    split at member
    · rcases List.mem_append.mp member with old | new
      · exact List.mem_cons_of_mem _ (inv.origin old)
      · obtain rfl := List.mem_singleton.mp new
        exact List.mem_cons_self
    · exact List.mem_cons_of_mem _ (inv.origin member)

/-- One step keeps the books balanced. -/
theorem step (inv : s.Queueing) (e : Effect s input s') : s'.Queueing := by
  cases e with
  | declare | construct | assignSelf | assignFree | dropFree | rejectAll | stop | assignTail
  | rejectDone | rejectNext =>
    exact inv.quiet inv.queues rfl rfl ⟨[], rfl, fun _ h => by cases h⟩
  | assignHeld | dropHeld =>
    exact inv.quiet inv.queues.releaseSlot rfl rfl
      ⟨[_], rfl, fun e h n => by cases List.mem_singleton.mp h; exact ⟨rfl, rfl⟩⟩
  | toolsListed =>
    exact inv.quiet (inv.queues.onToolsListed _ _) rfl rfl ⟨[], rfl, fun _ h => by cases h⟩
  | acquireGo free =>
    exact inv.immediate inv.queues.take rfl rfl rfl (fun _ => rfl) fun _ => rfl
  | acquireReject => exact inv.immediate inv.queues rfl rfl rfl (fun _ => rfl) fun _ => rfl
  | acquireQueued => exact inv.queued ..
  | timer idle fired =>
    obtain ⟨ts, l₁, w, l₂, split, -, rfl⟩ := LocalGovernor.expire_cases inv.queues fired
    exact inv.settle split (inv.queues.unqueue split) rfl rfl rfl (fun _ => rfl) fun _ => rfl
  | @dequeueReject _ _ _ w rest top front late =>
    exact inv.settle (LocalGovernor.split_front front)
      (inv.queues.unqueue (LocalGovernor.split_front front)) rfl rfl rfl
      (fun _ => rfl) fun _ => rfl
  | @dequeueGo _ _ _ w rest top front free early =>
    exact inv.settle (LocalGovernor.split_front front)
      (inv.queues.unqueue (LocalGovernor.split_front front)).take rfl rfl rfl
      (fun _ => rfl) fun _ => rfl
  | @rejectHead _ _ _ _ w rest top front =>
    exact inv.settle (LocalGovernor.split_front front)
      (inv.queues.unqueue (LocalGovernor.split_front front)) rfl rfl rfl
      (fun _ => rfl) fun _ => rfl

theorem initial (cfg : YamlConfig) : Queueing { gov := { cfg := cfg } } :=
  ⟨.initial cfg, fun _ => rfl, fun _ => rfl, fun h => by cases h⟩

/-- The invariant holds in every state a run reaches. -/
theorem of_run {h : List (TransitionSystem.Step GovernorState GovernorInput)}
    (run : Governor.machine.Run h s) : s.Queueing :=
  run.invariant (by rintro _ ⟨cfg, rfl⟩; exact initial cfg)
    fun _ _ _ step inv => inv.step (step_effect step)

/-- At most one callback for each `acquire`. -/
theorem answers_le_one (inv : s.Queueing) (n : ℕ) : s.answers n ≤ 1 := by
  have books := inv.settled n
  have asked := inv.asked n
  split at asked <;> omega

/-- `acquire` numbers are not used twice. -/
theorem acquire_unique (inv : s.Queueing) {n : ℕ} {key key' : ToolKey} {agent agent' : String}
    (h : .acquire n key agent ∈ s.log) (h' : .acquire n key' agent' ∈ s.log) :
    key = key' ∧ agent = agent' := by
  have once : s.acquires n ≤ 1 := by
    have asked := inv.asked n
    split at asked <;> omega
  obtain ⟨l₁, l₂, split⟩ := List.append_of_mem h
  rw [acquires, split, List.countP_append, List.countP_cons,
    if_pos (by simp [GovernorEvent.acquires])] at once
  have others : ∀ e ∈ l₁ ++ l₂, e.acquires n = false := by
    intro e member
    by_contra holds
    rw [Bool.not_eq_false] at holds
    have : 0 < (l₁ ++ l₂).countP (·.acquires n) := List.countP_pos_iff.mpr ⟨e, member, holds⟩
    rw [List.countP_append] at this
    omega
  rw [split, List.mem_append, List.mem_cons] at h'
  rcases h' with h' | same | h'
  · have := others _ (List.mem_append_left _ h')
    simp [GovernorEvent.acquires] at this
  · cases same
    exact ⟨rfl, rfl⟩
  · have := others _ (List.mem_append_right _ h')
    simp [GovernorEvent.acquires] at this

/-- A waiter has not been answered. -/
theorem unanswered (inv : s.Queueing) (member : w ∈ s.gov.queue ts) : s.answers w.cb = 0 := by
  have waits : 0 < s.gov.waiting (· = w.cb) :=
    (LocalGovernor.waiting_pos_iff _).mpr ⟨ts, w, member, decide_eq_true rfl⟩
  have books := inv.settled w.cb
  have asked := inv.asked w.cb
  split at asked <;> omega

/-- Two waiters with the same callback are the same waiter. -/
theorem waiter_unique (inv : s.Queueing) {ts' : String} {w' : Waiter ℕ}
    (member : w ∈ s.gov.queue ts) (member' : w' ∈ s.gov.queue ts') (same : w'.cb = w.cb) :
    ts' = ts ∧ w' = w := by
  obtain ⟨l₁, l₂, split⟩ := List.append_of_mem member
  rcases LocalGovernor.mem_queue_cases split member' with this | other
  · exact this
  · have waits : 0 < (s.gov.unqueue ts w (l₁ ++ l₂)).waiting (· = w.cb) :=
      (LocalGovernor.waiting_pos_iff _).mpr ⟨ts', w', other, decide_eq_true same⟩
    have moved := LocalGovernor.waiting_unqueue (fun cb => decide (cb = w.cb)) split
    have books := inv.settled w.cb
    have asked := inv.asked w.cb
    simp only [decide_true, Bool.toNat_true] at moved
    split at asked <;> omega

/-- Letting the timer of a waiter run out rejects that waiter. -/
theorem timer_rejects (inv : s.Queueing) (idle : s.stack = []) (member : w ∈ s.gov.queue ts) :
    ∃ s', s.step (.timer w.timer) = some s' ∧ s'.log = .reject w.cb :: s.log := by
  obtain ⟨l₁, l₂, split⟩ := List.append_of_mem member
  refine ⟨s.onAdmitReject (s.gov.unqueue ts w (l₁ ++ l₂)) w.cb [], ?_, rfl⟩
  simp only [GovernorState.step, idle, List.isEmpty_nil, if_true, inv.queues.expire split]

/-- A step that admits a waiter does so before its deadline. -/
theorem admitted_in_time (inv : s.Queueing) (e : Effect s input s') (member : w ∈ s.gov.queue ts)
    {key : ToolKey} {agentId : String} {waited : Option (UInt64 × UInt64)}
    (logged : .go w.cb key agentId waited ∈ s'.log) :
    ∃ now, input = .run now ∧ waited = some (w.deadlineMs, now) ∧ now < w.deadlineMs := by
  have notYet : .go w.cb key agentId waited ∉ s.log := by
    intro earlier
    have : 0 < s.answers w.cb :=
      List.countP_pos_iff.mpr ⟨_, earlier, decide_eq_true rfl⟩
    exact absurd (inv.unanswered member) (by omega)
  have old : w.cb < s.nextAcquire := by
    have : 0 < s.acquires w.cb :=
      List.countP_pos_iff.mpr ⟨_, inv.origin member, decide_eq_true rfl⟩
    have asked := inv.asked w.cb
    split at asked <;> omega
  cases e with
  | @dequeueGo now _ _ w' _ _ front _ early =>
    rcases List.mem_cons.mp logged with new | earlier
    · cases inv.waiter_unique (w := w') (by rw [front]; exact List.mem_cons_self) member
        (GovernorEvent.go.inj new).1
      next same =>
      subst same
      exact ⟨now, rfl, (GovernorEvent.go.inj new).2.2.2, early⟩
    · exact absurd earlier notYet
  | acquireGo free =>
    rcases List.mem_cons.mp logged with new | earlier
    · exact absurd (GovernorEvent.go.inj new).1 (Nat.ne_of_lt old)
    · rcases List.mem_cons.mp earlier with new | earlier
      · cases new
      · exact absurd earlier notYet
  | timer idle fired =>
    obtain ⟨ts, l₁, w, l₂, split, -, rfl⟩ := LocalGovernor.expire_cases inv.queues fired
    rcases List.mem_cons.mp logged with new | earlier
    · cases new
    · exact absurd earlier notYet
  | acquireReject =>
    rcases List.mem_cons.mp logged with new | earlier
    · cases new
    · rcases List.mem_cons.mp earlier with new | earlier
      · cases new
      · exact absurd earlier notYet
  | acquireQueued | dequeueReject | rejectHead | assignHeld | dropHeld =>
    rcases List.mem_cons.mp logged with new | earlier
    · cases new
    · exact absurd earlier notYet
  | declare | construct | assignSelf | assignFree | dropFree | toolsListed | rejectAll | stop
  | assignTail | rejectDone | rejectNext => exact absurd logged notYet

end Queueing

/-- What a client of the governor can rely on after the run `h` into `s`. -/
structure WaitersOk (h : List (TransitionSystem.Step GovernorState GovernorInput))
    (s : GovernorState) : Prop where
  /-- Nobody is answered twice. -/
  once : ∀ n, s.answers n ≤ 1
  /-- Who was not answered is in one queue, that of its tool, with an armed timer that
  rejects it once the event loop runs it. -/
  placed : ∀ {n key agentId}, .acquire n key agentId ∈ s.log →
    (s.answers n = 1 ∧ s.gov.waiting (· = n) = 0) ∨
    (s.answers n = 0 ∧ s.gov.waiting (· = n) = 1 ∧
      ∃ w ∈ s.gov.queue key.str, w.cb = n ∧ w.key = key ∧ w.who.agentId = agentId ∧
        s.gov.timers.lookup w.timer = some (key.str, w.id) ∧
        ∃ s', { s with stack := [] }.step (.timer w.timer) = some s' ∧
          s'.log = .reject n :: s.log)
  /-- Who had to queue is let go before its deadline or not at all. -/
  inTime : ∀ t ∈ h, ∀ ts, ∀ w ∈ t.pre.gov.queue ts, ∀ key agentId waited,
    .go w.cb key agentId waited ∈ t.post.log →
      ∃ now, t.input = .run now ∧ waited = some (w.deadlineMs, now) ∧ now < w.deadlineMs

end GovernorState

open GovernorState in
/-- Every `acquire` is answered at most once, and until then it waits where its timer finds
it. -/
theorem waiters_answered_once {h : List (TransitionSystem.Step GovernorState GovernorInput)}
    {s : GovernorState} (run : Governor.machine.Run h s) : WaitersOk h s := by
  have inv := Queueing.of_run run
  refine ⟨inv.answers_le_one, fun {n key agentId} asked => ?_, fun t taken ts w member => ?_⟩
  · have called : s.acquires n = 1 := by
      have : 0 < s.acquires n := List.countP_pos_iff.mpr ⟨_, asked, decide_eq_true rfl⟩
      have asked := inv.asked n
      split at asked <;> omega
    -- a call is answered, or it waits; it never does both
    have books := inv.settled n
    rcases Nat.eq_zero_or_pos (s.gov.waiting (· = n)) with none | some
    · exact .inl ⟨by omega, none⟩
    · obtain ⟨ts, w, member, same⟩ := (LocalGovernor.waiting_pos_iff _).mp some
      obtain rfl := of_decide_eq_true same
      obtain ⟨rfl, rfl⟩ := inv.acquire_unique (inv.origin member) asked
      obtain rfl := inv.queues.key member
      have resting : Queueing { s with stack := [] } := { inv with }
      exact .inr ⟨by omega, by omega, w, member, rfl, rfl, rfl, inv.queues.armed member,
        resting.timer_rejects rfl member⟩
  · intro key agentId waited logged
    obtain ⟨earlier, before, step, -⟩ := run.of_mem taken
    exact (Queueing.of_run before).admitted_in_time (step_effect step) member logged

/-! ## An example -/

namespace GovernorExample

/-- A client with a name and nothing else. -/
def client (agentId : String) : Principal :=
  { agentId := agentId, level := 0, grantBump := 0, hasLevel := true, admin := false,
    levelName := "default" }

/-- One slot for each tool and one for each principal. -/
def single : GovernorState :=
  { gov := { cfg := { perToolConcurrency := 1, perPrincipalConcurrency := 1 } } }

/-- One client keeps its slot, a second one queues for the tool. -/
def queueing : List GovernorInput :=
  [.acquire (client "ann") ⟨"b", "t"⟩ 100 0, .construct 0 (.param 0), .ret,
    .acquire (client "bob") ⟨"b", "t"⟩ 100 0]

end GovernorExample

open GovernorExample in
/-- A run in which one request was admitted and one waits. -/
theorem waiters_answered_once_queueing : ∃ h s, Governor.machine.Run h s ∧
    (s.answers 0 = 1 ∧ s.gov.waiting (· = 1) = 1) ∧ GovernorState.WaitersOk h s := by
  obtain ⟨h, s, run, -, reached⟩ := TransitionSystem.exists_run (M := Governor.machine) queueing
    (fun _ _ => true) (fun s => decide (s.answers 0 = 1 ∧ s.gov.waiting (· = 1) = 1))
    (s := single) ⟨_, rfl⟩ (by decide +kernel)
  exact ⟨h, s, run, of_decide_eq_true reached, waiters_answered_once run⟩

end Perfacet
