import Perfacet.Netlib.LoopTimers
import Perfacet.Netlib.TimerLaws

/-!
# The laws of the timers of an event loop and its threads

Timers obey the same laws when they are started and cancelled by several threads as on the loop
thread, but one: when the loop has looked at its timers, there may still be one that is due and has
not reached the heap yet.

## Main definitions

* `SafeTimerLaw` — the law of timers, without what has to happen
* `EventLoop.OnWay` — a timer that has been started and not been inserted

## Main results

* `EventLoop.timers_of_run` — the timers of an event loop obey the law in every run
* `EventLoop.told_of_run` — what is told of timers that start, and of calls that begin and end
-/

namespace Perfacet

/-- What holds of what happens to timers, but not that every timer that is due has run. -/
def SafeTimerLaw {κ : Type*} (e : TimerEvent κ) (before : List (TimerEvent κ)) : Prop :=
  e = .ended ∨ TimerLaw e before

namespace TimerLoop

variable {κ : Type*} {s s' : TimerLoop κ} {j : TimerInput κ} {id : TimerId} {t : Timer}

/-! ## Timers in the heap -/

/-- What is known of the timers in the heap, and of what has happened. -/
structure Sane (s : TimerLoop κ) : Prop where
  loaded : Loaded s
  marks : ∀ id ∈ s.canceled, .cancelled id ∈ s.log
  due : ∀ t ∈ s.queued, pendingDue s.log t.id = some t.due
  early : ∀ b, s.batch = some b → ∀ t ∈ b.expired, t.due ≤ b.now
  lawful : Lawful SafeTimerLaw s.log

/-- An id is drawn, and nothing is known of it. -/
theorem Sane.create (sane : Sane s) (distinct : Distinct s) (now : ℤ) (sec interval : Seconds)
    (cb : κ) : Sane (s.create now sec interval cb) := by
  have older (t : Timer) (member : t ∈ s.queued) : t.id ≠ s.nextTimerId :=
    (distinct.given _ (mem_live_of_queued member)).ne
  refine ⟨⟨?_, ?_, ?_, ?_, ?_⟩, fun id mark => ?_, fun t member => ?_, sane.early, ?_⟩
  · intro id due interval' cb' member
    rcases List.mem_cons.mp member with same | old
    · cases same
      exact Nat.lt_succ_self _
    · exact (sane.loaded.given id due interval' cb' old).trans (Nat.lt_succ_self _)
  · intro id cb' now' member
    rcases List.mem_cons.mp member with same | old
    · cases same
    · exact (sane.loaded.ranGiven id cb' now' old).trans (Nat.lt_succ_self _)
  · intro t member unmarked
    obtain ⟨due, cb', created, lookup⟩ := sane.loaded.stored t member unmarked
    exact ⟨due, cb', List.mem_cons_of_mem _ created, lookup⟩
  · intro t member single cb' now' ran
    rcases List.mem_cons.mp ran with same | ran
    · cases same
    · exact sane.loaded.once t member single cb' now' ran
  · intro now' expired t cb' here
    obtain ⟨last, due, cb'', some, created⟩ := sane.loaded.running now' expired t cb' here
    exact ⟨last, due, cb'', some, List.mem_cons_of_mem _ created⟩
  · exact List.mem_cons_of_mem _ (sane.marks id mark)
  · exact (if_neg (older t member)).trans (sane.due t member)
  · refine sane.lawful.cons (.inr fun due interval' cb' member => ?_)
    exact Nat.lt_irrefl _ (sane.loaded.given _ due interval' cb' member)

/-- A timer that has been started, and has not run, is inserted. -/
theorem Sane.insertTimer (sane : Sane s) (off : t.id ∉ s.live) {cb : κ} (now : ℤ)
    (created : .created t.id t.due t.interval cb ∈ s.log)
    (due : pendingDue s.log t.id = some t.due) (fresh : ∀ cb now, .ran t.id cb now ∉ s.log) :
    Sane { s.insertTimer t (some cb) with clock := now } := by
  refine ⟨⟨sane.loaded.given, sane.loaded.ranGiven, ?_, ?_, sane.loaded.running⟩, sane.marks, ?_,
    sane.early, sane.lawful⟩
  · intro t' member unmarked
    rcases List.mem_cons.mp member with rfl | old
    · exact ⟨t'.due, cb, created, (UnorderedMap.lookup_insert ..).trans (if_pos rfl)⟩
    · have other : t'.id ≠ t.id := fun same => off (same ▸ mem_live_of_queued old)
      obtain ⟨due', cb', created', lookup⟩ := sane.loaded.stored t' old unmarked
      refine ⟨due', cb', created', ?_⟩
      exact ((UnorderedMap.lookup_insert ..).trans (if_neg other)).trans lookup
  · intro t' member single cb' now' ran
    rcases List.mem_cons.mp member with rfl | old
    · exact fresh cb' now' ran
    · exact sane.loaded.once t' old single cb' now' ran
  · intro t' member
    rcases List.mem_cons.mp member with rfl | old
    · exact due
    · exact sane.due t' old

theorem Sane.cancelInLoop (sane : Sane s) (distinct : Distinct s) (id : TimerId) :
    Sane (s.cancelInLoop id) := by
  refine ⟨sane.loaded.step distinct (.cancelled id), fun id' mark => ?_, sane.due, sane.early,
    sane.lawful.cons (.inr trivial)⟩
  rcases Finset.mem_insert.mp mark with rfl | before
  · exact List.mem_cons_self
  · exact List.mem_cons_of_mem _ (sane.marks id' before)

/-- The timers expire; `over` says that what has been cancelled and is still there is marked. -/
theorem Sane.step (sane : Sane s) (distinct : Distinct s)
    (settled : ∀ id ∈ s.live, .cancelled id ∈ s.log → id ∈ s.canceled) (taken : Taken s j s')
    (expires : j.Expires) : Sane s' := by
  have loaded := sane.loaded.step distinct taken
  -- the callback that returns is the one that was called last
  have back {now : ℤ} {t : Timer} {expired : List Timer} {cb : Option κ}
      (here : s.batch = some ⟨now, expired, some (t, cb)⟩) {again : Option ℤ}
      (first : t.interval.positive = true → .cancelled t.id ∉ s.log →
        again = some (now + t.interval.ns))
      (second : t.interval.positive = false ∨ .cancelled t.id ∈ s.log → again = none) :
      SafeTimerLaw (.returned t.id again) s.log := by
    obtain ⟨last, due, cb', -, created⟩ := sane.loaded.running now expired t cb here
    exact .inr ⟨now, due, t.interval, cb', last, created, first, second⟩
  cases taken with
  | after | every | cancelled => exact expires.elim
  | began now expired idle _ due =>
    have same := queued_began idle due
    refine ⟨loaded, fun id mark => List.mem_cons_of_mem _ (sane.marks id mark), fun t member => ?_,
      ?_, sane.lawful.cons (.inr trivial)⟩
    · rw [queued_of_batch rfl] at member
      exact sane.due t (same.mem_iff.mp member)
    · rintro _ ⟨⟩ t member
      exact of_decide_eq_true (List.mem_filter.mp (due.mem_iff.mp member)).2
  | skipped now t expired here mark =>
    obtain ⟨-, others, -⟩ := queued_looked here distinct
    refine ⟨loaded, fun id mark => sane.marks id (Finset.mem_erase.mp mark).2, fun t' member => ?_,
      ?_, sane.lawful⟩
    · rw [queued_of_batch rfl] at member
      exact sane.due t' (others t' member).1
    · rintro _ ⟨⟩ t' member
      exact sane.early _ here t' (List.mem_cons_of_mem _ member)
  | ran now t expired cb here unmarked looked =>
    obtain ⟨member, others, -⟩ := queued_looked here distinct
    obtain ⟨due, cb, created, lookup⟩ := sane.loaded.stored t member unmarked
    rw [lookup] at looked
    subst looked
    have uncancelled : .cancelled t.id ∉ s.log := fun cancelled =>
      unmarked (settled t.id (mem_live_of_queued member) cancelled)
    refine ⟨loaded, fun id mark => List.mem_cons_of_mem _ (sane.marks id mark), fun t' member => ?_,
      ?_, sane.lawful.cons (.inr ⟨⟨t.due, sane.due t member,
        sane.early _ here t List.mem_cons_self⟩, uncancelled, due, t.interval, created,
        sane.loaded.once t member⟩)⟩
    · rw [queued_of_batch rfl] at member
      obtain ⟨queued, other⟩ := others t' member
      exact (if_neg other).trans (sane.due t' queued)
    · rintro _ ⟨⟩ t' member
      exact sane.early _ here t' (List.mem_cons_of_mem _ member)
  | rearmed now t expired cb here periodic unmarked =>
    have nodup := distinct.nodup
    rw [live_of_running here] at nodup
    refine ⟨loaded, fun id mark => List.mem_cons_of_mem _ (sane.marks id mark), fun t' member => ?_,
      ?_, sane.lawful.cons (back here (fun _ _ => rfl) ?_)⟩
    · rcases List.mem_cons.mp member with rfl | old
      · exact if_pos rfl
      · have queued : t' ∈ s.queued := by rw [queued_of_batch here]; exact old
        have other : t'.id ≠ t.id := fun same =>
          (List.nodup_cons.mp nodup).1 (same ▸ List.mem_map_of_mem queued)
        exact (if_neg other).trans (sane.due t' queued)
    · rintro _ ⟨⟩ t' member
      exact sane.early _ here t' member
    · rintro (single | cancelled)
      · rw [periodic] at single
        cases single
      · have live : t.id ∈ s.live := by
          rw [live_of_running here]
          exact List.mem_cons_self
        exact absurd (settled t.id live cancelled) unmarked
  | retired now t expired cb here last =>
    have nodup := distinct.nodup
    rw [live_of_running here] at nodup
    refine ⟨loaded, fun id mark => List.mem_cons_of_mem _ (sane.marks id mark), fun t' member => ?_,
      ?_, sane.lawful.cons (back here (fun periodic uncancelled => ?_) fun _ => rfl)⟩
    · have queued : t' ∈ s.queued := by
        rw [queued_of_batch rfl] at member
        rw [queued_of_batch here]
        exact member
      have other : t'.id ≠ t.id := fun same =>
        (List.nodup_cons.mp nodup).1 (same ▸ List.mem_map_of_mem queued)
      exact (if_neg other).trans (sane.due t' queued)
    · rintro _ ⟨⟩ t' member
      exact sane.early _ here t' member
    · exact absurd ⟨periodic, fun mark => uncancelled (sane.marks t.id mark)⟩ last
  | ended now here =>
    refine ⟨loaded, fun id mark => List.mem_cons_of_mem _ (sane.marks id mark), fun t member => ?_,
      ?_, sane.lawful.cons (.inl rfl)⟩
    · rw [queued_of_idle rfl] at member
      refine sane.due t ?_
      rw [queued_of_batch here]
      exact List.mem_append_left _ member
    · rintro _ ⟨⟩

/-- The heap knows nothing of the time that is read. -/
theorem Sane.tick (sane : Sane s) (now : ℤ) : Sane { s with clock := now } :=
  ⟨⟨sane.loaded.given, sane.loaded.ranGiven, sane.loaded.stored, sane.loaded.once,
    sane.loaded.running⟩, sane.marks, sane.due, sane.early, sane.lawful⟩

end TimerLoop

namespace EventLoop

variable {τ κ : Type*} {s s' : EventLoop τ κ} {id : TimerId} {t : Timer} {cb : κ}

/-! ## Timers on their way -/

/-- The task that inserts the timer is in the queue, or a thread is about to put it there. -/
def OnWay (s : EventLoop τ κ) (t : Timer) (cb : κ) : Prop :=
  .insertTimer t cb ∈ s.fns ++ s.pending ∨ ∃ th, .insertTimer t cb ∈ (s.calls th).task

theorem inserts_of_mem_task {c : LoopCall κ} (member : .insertTimer t cb ∈ c.task) :
    c.inserts = some t.id := by
  cases c <;> first | cases member; done | (cases List.mem_singleton.mp member; rfl)

/-- The id of a timer on its way is drawn and not in the heap. -/
theorem OnWay.id_lt (onWay : OnWay s t cb) (sound : s.tickets.Sound) :
    t.id < s.timers.nextTimerId ∧ t.id ∉ s.timers.live := by
  rcases onWay with queued | ⟨th, held⟩
  · have there : t.id ∈ (s.fns ++ s.pending).filterMap LoopTask.inserts :=
      List.mem_filterMap.mpr ⟨_, queued, rfl⟩
    refine ⟨sound.pile t.id (List.mem_append_right _ there), fun live => ?_⟩
    exact (List.nodup_append.mp sound.nodup).2.2 t.id live t.id there rfl
  · obtain ⟨drawn, off⟩ := sound.hand th t.id (inserts_of_mem_task held)
    exact ⟨drawn, fun live => off (List.mem_append_left _ live)⟩

theorem distinct_of_sound (sound : s.tickets.Sound) : TimerLoop.Distinct s.timers where
  nodup := (List.nodup_append.mp sound.nodup).1
  given id live := sound.pile id (List.mem_append_left _ live)

variable [DecidableEq τ] {i : LoopInput τ κ} {th : τ}
  {h : List (TransitionSystem.Step (EventLoop τ κ) (LoopInput τ κ))}

/-- A timer on its way has been started and has not run. -/
structure Started (log : List (TimerEvent κ)) (t : Timer) (cb : κ) : Prop where
  created : .created t.id t.due t.interval cb ∈ log
  due : pendingDue log t.id = some t.due
  fresh : ∀ cb now, .ran t.id cb now ∉ log

/-- What is known of the timers in the heap and of those that are on their way to it. -/
structure Known (s : EventLoop τ κ) : Prop where
  sound : s.tickets.Sound
  sane : TimerLoop.Sane s.timers
  settled : ∀ id, .cancelled id ∈ s.timers.log → Over s id
  onWay : ∀ t cb, OnWay s t cb → Started s.timers.log t cb

omit [DecidableEq τ] in
/-- What is cancelled and still in the heap is marked. -/
theorem Known.canceled (known : Known s) (live : id ∈ s.timers.live)
    (cancelled : .cancelled id ∈ s.timers.log) : id ∈ s.timers.canceled := by
  cases known.settled id cancelled with
  | marked marked => exact marked
  | gone gone => exact absurd (List.mem_append_left _ live) gone.pile

/-- An event about other timers does not touch what is known of a timer on its way. -/
theorem Started.cons {log : List (TimerEvent κ)} (started : Started log t cb) {e : TimerEvent κ}
    (due : pendingDue (e :: log) t.id = pendingDue log t.id)
    (silent : ∀ cb now, e ≠ .ran t.id cb now) : Started (e :: log) t cb where
  created := List.mem_cons_of_mem _ started.created
  due := due.trans started.due
  fresh cb now ran := (List.mem_cons.mp ran).elim (fun same => silent cb now same.symm)
    (started.fresh cb now)

/-- A step that leaves the timers alone, but for the time that it reads. -/
theorem Known.keep (known : Known s) (taken : Taken s i s') (clock : ℤ)
    (timers : s'.timers = { s.timers with clock := clock })
    (onWay : ∀ t cb, OnWay s' t cb → OnWay s t cb) : Known s' := by
  refine ⟨known.sound.moves (moves_step taken), ?_, fun id cancelled => ?_, fun t cb on => ?_⟩
  · rw [timers]
    exact known.sane.tick clock
  · rw [timers] at cancelled
    exact (known.settled id cancelled).step known.sound taken
  · rw [timers]
    exact known.onWay t cb (onWay t cb on)

/-- A task is called that was on its way. -/
theorem Known.exec (known : Known s) (taken : Taken s i s') {task : LoopTask κ} {now : ℤ}
    {s₁ : EventLoop τ κ} (same : s' = s₁.exec now task) (before : s₁.timers = s.timers)
    (here : ∀ t cb, task = .insertTimer t cb → OnWay s t cb)
    (onWay : ∀ t cb, OnWay s' t cb → OnWay s t cb) : Known s' := by
  have sound := known.sound.moves (moves_step taken)
  cases task with
  | call cb =>
    refine known.keep taken s.timers.clock ?_ onWay
    rw [same]
    exact before
  | insertTimer t cb =>
    have timers : s'.timers = { s.timers.insertTimer t (some cb) with clock := now } := by
      rw [same, ← before]
      rfl
    obtain ⟨created, due, fresh⟩ := known.onWay t cb (here t cb rfl)
    refine ⟨sound, ?_, fun id cancelled => ?_, fun t' cb' on => ?_⟩
    · rw [timers]
      exact known.sane.insertTimer ((here t cb rfl).id_lt known.sound).2 now created due fresh
    · rw [timers] at cancelled
      exact (known.settled id cancelled).step known.sound taken
    · rw [timers]
      exact known.onWay t' cb' (onWay t' cb' on)
  | cancelInLoop id =>
    have timers : s'.timers = s.timers.cancelInLoop id := by
      rw [same, ← before]
      rfl
    refine ⟨sound, ?_, fun id' cancelled => ?_, fun t cb on => ?_⟩
    · rw [timers]
      exact known.sane.cancelInLoop (distinct_of_sound known.sound) id
    · rw [timers] at cancelled
      rcases List.mem_cons.mp cancelled with new | old
      · cases new
        refine .marked ?_
        rw [timers]
        exact Finset.mem_insert_self id _
      · exact (known.settled id' old).step known.sound taken
    · rw [timers]
      exact (known.onWay t cb (onWay t cb on)).cons rfl fun _ _ => by simp

/-- The timers expire; those that are on their way do not. -/
theorem Known.expire (known : Known s) (taken : Taken s i s') {timers : TimerLoop κ}
    {j : TimerInput κ} (step : TimerLoop.Taken s.timers j timers) (expires : j.Expires)
    (clock : ℤ) (same : s'.timers = { timers with clock := clock })
    (onWay : ∀ t cb, OnWay s' t cb → OnWay s t cb) : Known s' := by
  have sane :=
    known.sane.step (distinct_of_sound known.sound) (fun id => known.canceled) step expires
  refine ⟨known.sound.moves (moves_step taken), by rw [same]; exact sane.tick clock,
    fun id cancelled => ?_, fun t cb on => ?_⟩
  · have old : .cancelled id ∈ s.timers.log := by
      rw [same] at cancelled
      cases step with
      | after | every | cancelled => exact expires.elim
      | skipped now t expired here _ => exact cancelled
      | ran now t expired cb here _ _ =>
        cases cb with
        | none => exact cancelled
        | some cb => exact (List.mem_cons.mp cancelled).resolve_left (by simp)
      | _ => exact (List.mem_cons.mp cancelled).resolve_left (by simp)
    exact (known.settled id old).step known.sound taken
  · have started := known.onWay t cb (onWay t cb on)
    -- what happens to timers in the heap happens to other timers
    have other (id : TimerId) (live : id ∈ s.timers.live) : t.id ≠ id := by
      rintro rfl
      exact ((onWay t cb on).id_lt known.sound).2 live
    rw [same]
    cases step with
    | after | every | cancelled => exact expires.elim
    | began now expired idle _ due => exact started.cons rfl fun _ _ => by simp
    | skipped now t' expired here _ => exact started
    | ran now t' expired cb' here _ _ =>
      cases cb' with
      | none => exact started
      | some cb' =>
        have apart : t.id ≠ t'.id := other t'.id (by
          rw [TimerLoop.live_of_between here, TimerLoop.pending_of_batch here]
          simp)
        exact started.cons (if_neg apart) fun _ _ ran => apart (TimerEvent.ran.inj ran).1.symm
    | rearmed now t' expired cb' here _ _ =>
      have apart : t.id ≠ t'.id := other t'.id (by
        rw [TimerLoop.live_of_running here]
        exact List.mem_cons_self)
      exact started.cons (if_neg apart) fun _ _ => by simp
    | retired now t' expired cb' here _ =>
      have apart : t.id ≠ t'.id := other t'.id (by
        rw [TimerLoop.live_of_running here]
        exact List.mem_cons_self)
      exact started.cons (if_neg apart) fun _ _ => by simp
    | ended now here => exact started.cons rfl fun _ _ => by simp

/-! ## All runs -/

omit [DecidableEq τ] in
/-- Tasks only move on. -/
theorem OnWay.mono (on : OnWay s' t cb) (tasks : ∀ task ∈ s'.fns ++ s'.pending,
      task ∈ s.fns ++ s.pending ∨ ∃ th, task ∈ (s.calls th).task)
    (calls : ∀ th, ∀ task ∈ (s'.calls th).task, ∃ th, task ∈ (s.calls th).task) :
    OnWay s t cb := by
  rcases on with queued | ⟨th, held⟩
  · exact tasks _ queued
  · exact .inr (calls th _ held)

/-- A call that goes on has the task that it had, or none. -/
theorem onWay_goOn {c : LoopCall κ} (less : ∀ task ∈ c.task, task ∈ (s.calls th).task)
    (on : OnWay (s.goOn th c) t cb) : OnWay s t cb := by
  refine on.mono (fun _ member => .inl member) fun th' task member => ?_
  rw [goOn_calls] at member
  split at member
  · exact ⟨th, less task member⟩
  · exact ⟨th', member⟩

/-- A new call that starts no timer. -/
theorem onWay_request {c : LoopCall κ} (none : ∀ t cb, .insertTimer t cb ∉ c.task)
    (on : OnWay (s.goOn th c) t cb) : OnWay s t cb := by
  rcases on with queued | ⟨th', held⟩
  · exact .inl queued
  · rw [goOn_calls] at held
    split at held
    · exact absurd held (none t cb)
    · exact .inr ⟨th', held⟩

theorem Known.step (known : Known s) (taken : Taken s i s') : Known s' := by
  have taken' := taken
  cases taken with
  | ran th cb may | began th cb may | cancelled th id may =>
    exact known.keep taken' s.timers.clock rfl fun _ _ =>
      onWay_request (by simp [LoopCall.task])
  | quitted th may =>
    exact known.keep taken' s.timers.clock rfl fun _ _ =>
      onWay_request (s := { s with quit := true }) (by simp [LoopCall.task])
  | created th r now sec interval cb may _ _ =>
    have distinct := distinct_of_sound known.sound
    refine ⟨known.sound.moves (moves_step taken'), known.sane.create distinct now sec interval cb,
      fun id cancelled => ?_, fun t cb' on => ?_⟩
    · have old := (List.mem_cons.mp cancelled).resolve_left (by simp)
      exact (known.settled id old).step known.sound taken'
    · -- the timer is the new one, or was on its way before
      have before (on' : OnWay s t cb') :
          Started (.created s.timers.nextTimerId (now + sec.ns) interval cb :: s.timers.log) t
            cb' :=
        (known.onWay t cb' on').cons (if_neg (on'.id_lt known.sound).1.ne) fun _ _ => by simp
      rcases on with queued | ⟨th', held⟩
      · exact before (.inl queued)
      · rw [goOn_calls] at held
        split at held
        · cases List.mem_singleton.mp held
          refine ⟨List.mem_cons_self, if_pos rfl, fun cb' now' ran => ?_⟩
          have old := (List.mem_cons.mp ran).resolve_left (by simp)
          exact Nat.lt_irrefl _ (known.sane.loaded.ranGiven _ cb' now' old)
        · exact before (.inr ⟨th', held⟩)
  | answered th now task here =>
    exact known.keep taken' s.timers.clock rfl fun _ _ =>
      onWay_goOn (by rw [here]; exact fun _ member => member)
  | declined th now inLoopThread task here =>
    exact known.keep taken' s.timers.clock rfl fun _ _ =>
      onWay_goOn (by rw [here]; exact fun _ member => member)
  | inlined th now task _ here _ =>
    refine known.exec taken' rfl rfl (fun t cb same => .inr ⟨th, ?_⟩) fun t cb on => ?_
    · rw [here, same]
      exact List.mem_singleton_self _
    · obtain ⟨timers, armed, same⟩ :=
        exec_eq { s.goOn th .none with inlined := s.inlined ++ [(th, task)] } now task
      rw [same] at on
      have on' : OnWay (s.goOn th .none) t cb := on
      exact onWay_goOn (by simp [LoopCall.task]) on'
  | queued th now task here =>
    refine known.keep taken' s.timers.clock rfl fun t cb on => on.mono (fun task' member => ?_) ?_
    · rw [← List.append_assoc] at member
      refine (List.mem_append.mp member).imp_right fun new => ⟨th, ?_⟩
      rw [List.mem_singleton.mp new, here]
      exact List.mem_singleton_self _
    · intro th' task' member
      have member' : task' ∈ ((s.goOn th .waking).calls th').task := member
      rw [goOn_calls] at member'
      split at member'
      · cases member'
      · exact ⟨th', member'⟩
  | woke th now here =>
    refine known.keep taken' s.timers.clock rfl fun t cb on => ?_
    have on' : OnWay (s.goOn th .none) t cb := on
    exact onWay_goOn (by simp [LoopCall.task]) on'
  | checked now phase _ _ _ _ _ | waited now deadline _ _ _ | polled now active deadline _ _ _ =>
    exact known.keep taken' now rfl fun _ _ on => on
  | expired now expired timers _ _ step =>
    exact known.expire taken' step trivial timers.clock rfl fun _ _ on => on
  | timed m j timers _ _ kind step =>
    have expires : j.Expires := by rcases kind with ⟨-, rfl⟩ | ⟨-, rfl⟩ <;> trivial
    exact known.expire taken' step expires timers.clock rfl fun _ _ on => on
  | finished now timers phase _ _ _ step =>
    exact known.expire taken' step trivial now rfl fun _ _ on => on
  | handledTimer now expired active armed timers _ _ step =>
    exact known.expire taken' step trivial timers.clock rfl fun _ _ on => on
  | swapped _ _ =>
    refine known.keep taken' s.timers.clock rfl fun _ _ on => on.mono (fun task member => ?_)
      fun th task member => ⟨th, member⟩
    rw [List.append_nil] at member
    exact .inl (List.mem_append_right _ member)
  | served now task fns _ _ first _ =>
    refine known.exec taken' rfl rfl (fun t cb same => .inl ?_) fun t cb on => ?_
    · rw [first, same]
      exact List.mem_cons_self
    · obtain ⟨timers, armed, same⟩ :=
        exec_eq { s with fns := fns, served := s.served ++ [task] } now task
      rw [same] at on
      refine on.mono (fun task' member => .inl ?_) fun th task' member => ⟨th, member⟩
      rw [first]
      exact List.mem_cons_of_mem _ member
  | _ => exact known.keep taken' s.timers.clock rfl fun _ _ on => on

/-- Timers obey the law, whichever threads start and cancel them, and in whichever order this
reaches the loop: a callback that runs is that of its timer, which is due and not cancelled, and has
not run before unless it is periodic. -/
theorem timers_of_run (run : machine.Run h s) : Lawful SafeTimerLaw s.timers.log := by
  have known : Known s := run.invariant
    (by
      rintro _ ⟨th, clock, rfl⟩
      refine ⟨⟨List.nodup_nil, ?_, ?_, ?_⟩, ⟨⟨?_, ?_, ?_, ?_, ?_⟩, ?_, ?_, ?_, .nil⟩, ?_, ?_⟩
      · rintro _ ⟨⟩
      · rintro _ _ ⟨⟩
      · rintro _ _ _ ⟨⟩
      · rintro _ _ _ _ ⟨⟩
      · rintro _ _ _ ⟨⟩
      · rintro _ ⟨⟩
      · rintro _ ⟨⟩
      · rintro _ _ _ _ ⟨⟩
      · intro id mark
        exact absurd mark (Finset.notMem_empty id)
      · rintro _ ⟨⟩
      · rintro _ ⟨⟩
      · rintro _ ⟨⟩
      · rintro t cb (queued | ⟨th, held⟩)
        · cases queued
        · cases held)
    fun _ _ _ step known => known.step (taken_of_step step)
  exact known.sane.lawful

/-- What a call is told in the log of the timers as. -/
def told (s : EventLoop τ κ) : LoopInput τ κ → List (TimerEvent κ)
  | .request _ (.runAfter now sec cb) => [.created s.timers.nextTimerId (now + sec.ns) .zero cb]
  | .request _ (.runEvery now sec cb) => [.created s.timers.nextTimerId (now + sec.ns) sec cb]
  | .move (.expire now _) | .move (.handleTimer now _) => [.began now]
  | .move (.finish _) => [.ended]
  | _ => []

omit [DecidableEq τ] in
/-- A task changes nothing that is told. -/
theorem log_exec (s : EventLoop τ κ) (now : ℤ) (task : LoopTask κ) :
    (s.exec now task).timers.log.filter TimerEvent.isCall =
      s.timers.log.filter TimerEvent.isCall := by
  cases task <;> rfl

theorem told_of_taken (taken : Taken s i s') :
    s'.timers.log.filter TimerEvent.isCall =
      s.told i ++ s.timers.log.filter TimerEvent.isCall := by
  cases taken with
  | created th r now sec interval cb _ _ kind =>
    rcases kind with ⟨rfl, rfl⟩ | ⟨rfl, rfl⟩ <;> rfl
  | inlined th now task _ _ _ => exact log_exec _ now task
  | served now task fns _ _ _ _ => exact log_exec _ now task
  | expired now expired timers _ _ step => exact TimerLoop.told_of_taken step
  | handledTimer now expired active armed timers _ _ step => exact TimerLoop.told_of_taken step
  | finished now timers phase _ _ _ step => exact TimerLoop.told_of_taken step
  | timed m j timers _ _ kind step =>
    have told := TimerLoop.told_of_taken step
    rcases kind with ⟨rfl, rfl⟩ | ⟨rfl, rfl⟩ <;> exact told
  | _ => rfl

/-- The log of the timers has an event for every timer that a thread starts, and for every call of
`processExpiredTimers` that begins or ends, in their order. -/
theorem told_of_run (run : machine.Run h s) :
    s.timers.log.filter TimerEvent.isCall = h.flatMap fun t => t.pre.told t.input := by
  induction run with
  | start first =>
    obtain ⟨th, clock, rfl⟩ := first
    rfl
  | next _ taken ih => rw [told_of_taken (taken_of_step taken), ih, List.flatMap_cons]

/-- A thread starts a timer and, before it has reached the loop, hands its id to the loop thread,
which cancels it. The timer is inserted, expires, and does not run. -/
theorem timers_of_run_cancelledEarly :
    ∃ s : EventLoop Bool ℕ, s.served = [.insertTimer ⟨5, .zero, 1⟩ 7] ∧
      s.timers.log = [.ended, .began 9, .cancelled 1, .created 1 5 .zero 7] ∧
      Lawful SafeTimerLaw s.timers.log := by
  obtain ⟨h, s, run, -, reached⟩ := machine.exists_run
    [.loop false, .move .start, .move (.check 0), .move (.wait 0),
      .request true (.runAfter 0 ⟨5, true, by decide⟩ 7), .move (.poll 0 [.channel 3]),
      .request false (.cancel 1), .proceed false 0, .proceed false 0, .move .handle,
      .proceed true 0, .proceed true 0, .proceed true 0, .move .doPending, .move (.serve 0),
      .move .flushAll, .move .again, .move (.check 9), .move (.expire 9 [⟨5, .zero, 1⟩]),
      .move .next, .move (.finish 9)]
    (fun _ _ => true)
    (fun s => s.served = [.insertTimer ⟨5, .zero, 1⟩ 7] &&
      s.timers.log = [.ended, .began 9, .cancelled 1, .created 1 5 .zero 7]) ⟨false, 0, rfl⟩
    (by decide)
  simp only [Bool.and_eq_true, decide_eq_true_eq] at reached
  exact ⟨s, reached.1, reached.2, timers_of_run run⟩

end EventLoop

end Perfacet
