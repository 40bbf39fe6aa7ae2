import Perfacet.Lib.History
import Perfacet.Netlib.Timers

/-!
# What timers do

Those who start a timer want its callback to run when it is due, not earlier, once or again and
again, and not at all once it is cancelled. That is a law about what happens, in whatever order
timers are started, cancelled and looked at. It needs no assumption on which ids are cancelled.

## Main definitions

* `pendingDue` — when a timer is due that has been started and has not run since
* `TimerLaw` — what holds whenever a timer is created, runs or has run, or a call ends

## Main results

* `TimerLoop.lawful_of_run` — the log of every run obeys the law
-/

namespace Perfacet

variable {κ : Type*}

/-! ## The law -/

/-- When the timer is due that has been started, or started again, and has not run since. -/
def pendingDue : List (TimerEvent κ) → TimerId → Option ℤ
  | [], _ => none
  | .created id' due _ _ :: log, id => if id = id' then some due else pendingDue log id
  | .ran id' _ _ :: log, id => if id = id' then none else pendingDue log id
  | .returned id' again :: log, id => if id = id' then again else pendingDue log id
  | _ :: log, id => pendingDue log id

/-- In which call of `processExpiredTimers` a timer ran last, by the time that the call has read. -/
def lastRun : List (TimerEvent κ) → TimerId → Option ℤ
  | [], _ => none
  | .ran id' _ now :: log, id => if id = id' then some now else lastRun log id
  | _ :: log, id => lastRun log id

/-- The last call of `processExpiredTimers`: the time that it has read, what has happened since, and
what had happened before. -/
def lastCall : List (TimerEvent κ) → Option (ℤ × List (TimerEvent κ) × List (TimerEvent κ))
  | [] => none
  | .began now :: log => some (now, [], log)
  | e :: log => (lastCall log).map fun (now, during, before) => (now, e :: during, before)

/-- What holds of what happens, given what has happened before.

* The ids of timers are new.
* A callback that runs is that of its timer. The timer is due, has not been cancelled and, unless it
  is periodic, has not run before.
* When the callback of a timer returns, the timer is due again, after its interval, if and only if
  it is periodic and has not been cancelled.
* When a call ends, every timer has run in it that was due when it began and is not cancelled. -/
def TimerLaw : TimerEvent κ → List (TimerEvent κ) → Prop
  | .created id _ _ _, before => ∀ due interval cb, .created id due interval cb ∉ before
  | .ran id cb now, before =>
    (∃ due, pendingDue before id = some due ∧ due ≤ now) ∧ .cancelled id ∉ before ∧
      ∃ due interval, .created id due interval cb ∈ before ∧
        (interval.positive = false → ∀ cb now, .ran id cb now ∉ before)
  | .returned id again, before => ∃ now due interval cb, lastRun before id = some now ∧
    .created id due interval cb ∈ before ∧
      (interval.positive = true → .cancelled id ∉ before → again = some (now + interval.ns)) ∧
      (interval.positive = false ∨ .cancelled id ∈ before → again = none)
  | .ended, before => ∃ now during older, lastCall before = some (now, during, older) ∧
    ∀ id due, pendingDue older id = some due → due ≤ now → .cancelled id ∉ before →
      ∃ cb, .ran id cb now ∈ during
  | _, _ => True

namespace TimerLoop

variable {s s' : TimerLoop κ} {i : TimerInput κ} {id : TimerId}
  {h : List (TransitionSystem.Step (TimerLoop κ) (TimerInput κ))}

/-! ## Steps and the queue -/

/-- The timer that is looked at leaves the queue. -/
theorem queued_looked {now : ℤ} {t : Timer} {expired : List Timer}
    (here : s.batch = some ⟨now, t :: expired, none⟩) (distinct : Distinct s) :
    t ∈ s.queued ∧ (∀ t' ∈ s.timers ++ expired, t' ∈ s.queued ∧ t'.id ≠ t.id) ∧
      ∀ id ∈ s.pending, id ≠ t.id → id ∈ (s.timers ++ expired).map (·.id) := by
  have nodup := distinct.nodup
  rw [live_of_between here, pending, queued_of_batch here] at nodup
  have moved : (s.timers ++ t :: expired).Perm (t :: (s.timers ++ expired)) := List.perm_middle
  have last : t.id ∉ (s.timers ++ expired).map (·.id) :=
    (List.nodup_cons.mp ((moved.map (·.id)).nodup_iff.mp nodup)).1
  rw [pending, queued_of_batch here]
  refine ⟨moved.mem_iff.mpr List.mem_cons_self, fun t' member => ⟨?_, fun same => ?_⟩, ?_⟩
  · exact moved.mem_iff.mpr (List.mem_cons_of_mem _ member)
  · exact last (List.mem_map.mpr ⟨t', member, same⟩)
  · intro id member other
    rcases List.mem_cons.mp ((moved.map (·.id)).mem_iff.mp member) with rfl | rest
    · exact absurd rfl other
    · exact rest

theorem mem_pending_iff : id ∈ s.pending ↔ ∃ t ∈ s.queued, t.id = id := List.mem_map

theorem mem_live_of_queued {t : Timer} (member : t ∈ s.queued) : t.id ∈ s.live :=
  List.mem_append_right _ (List.mem_map_of_mem member)

/-! ## Cancelled timers -/

/-- The timers that have been cancelled: their ids are in the set until they have been looked at. -/
structure Marks (s : TimerLoop κ) : Prop where
  cancelled : ∀ id ∈ s.canceled, .cancelled id ∈ s.log
  gone : ∀ id, .cancelled id ∈ s.log → id ∈ s.canceled ∨ id ∉ s.live ∧ id < s.nextTimerId

theorem Marks.of_mem_live (marks : Marks s) (live : id ∈ s.live) :
    id ∈ s.canceled ↔ .cancelled id ∈ s.log := by
  constructor
  · exact marks.cancelled id
  · intro cancelled
    exact (marks.gone id cancelled).resolve_right fun gone => gone.1 live

theorem Marks.step (marks : Marks s) (distinct : Distinct s) (taken : Taken s i s') :
    Marks s' := by
  -- A timer that is gone does not come back.
  have away (id : TimerId) (gone : id ∉ s.live ∧ id < s.nextTimerId) :
      id ∉ s'.live ∧ id < s'.nextTimerId := by
    rcases live_step taken with ⟨next, perm⟩ | ⟨next, less⟩
    · rw [perm.mem_iff, List.mem_cons, not_or, next]
      exact ⟨⟨gone.2.ne, gone.1⟩, gone.2.trans (Nat.lt_succ_self _)⟩
    · rw [next]
      exact ⟨fun member => gone.1 (less.subset member), gone.2⟩
  -- An event that is no cancellation.
  have keep (e : TimerEvent κ) (other : ∀ id, e ≠ .cancelled id) (same : s'.canceled = s.canceled)
      (log : s'.log = e :: s.log) : Marks s' := by
    have mem (id : TimerId) : .cancelled id ∈ s'.log ↔ .cancelled id ∈ s.log := by
      rw [log, List.mem_cons]
      exact or_iff_right (other id).symm
    refine ⟨fun id mark => ?_, fun id cancelled => ?_⟩
    · exact (mem id).mpr (marks.cancelled id (same ▸ mark))
    · rw [same]
      exact (marks.gone id ((mem id).mp cancelled)).imp_right (away id)
  cases taken with
  | after now sec cb _ => exact keep _ (by simp) rfl rfl
  | every now sec cb _ => exact keep _ (by simp) rfl rfl
  | cancelled id =>
    refine ⟨fun id' mark => ?_, fun id' cancelled => ?_⟩
    · rcases Finset.mem_insert.mp mark with rfl | before
      · exact List.mem_cons_self
      · exact List.mem_cons_of_mem _ (marks.cancelled id' before)
    · rcases List.mem_cons.mp cancelled with same | before
      · cases same
        exact .inl (Finset.mem_insert_self ..)
      · exact (marks.gone id' before).imp Finset.mem_insert_of_mem (away id')
  | began now expired idle _ due => exact keep _ (by simp) rfl rfl
  | skipped now t expired here mark =>
    refine ⟨fun id' mark' => marks.cancelled id' (Finset.mem_erase.mp mark').2,
      fun id' cancelled => ?_⟩
    by_cases same : id' = t.id
    -- The timer that is dropped is gone.
    · obtain ⟨member, others, -⟩ := queued_looked here distinct
      refine .inr ⟨fun live => ?_, ?_⟩
      · rw [live_of_between rfl, mem_pending_iff, queued_of_batch rfl] at live
        obtain ⟨t', member', here'⟩ := live
        exact (others t' member').2 (here'.trans same)
      · rw [same]
        exact distinct.given _ (mem_live_of_queued member)
    · refine (marks.gone id' cancelled).imp (fun before => ?_) (away id')
      exact Finset.mem_erase.mpr ⟨same, before⟩
  | ran now t expired cb here mark looked =>
    cases cb with
    | some cb => exact keep _ (by simp) rfl rfl
    | none => exact ⟨marks.cancelled, fun id c => (marks.gone id c).imp_right (away id)⟩
  | rearmed now t expired cb here _ _ => exact keep _ (by simp) rfl rfl
  | retired now t expired cb here _ => exact keep _ (by simp) rfl rfl
  | ended now here => exact keep _ (by simp) rfl rfl

/-! ## Callbacks -/

/-- The timers that are still to be looked at have their callbacks, and so has the one that is
running; only periodic timers have run before. -/
structure Loaded (s : TimerLoop κ) : Prop where
  given : ∀ id due interval cb, .created id due interval cb ∈ s.log → id < s.nextTimerId
  ranGiven : ∀ id cb now, .ran id cb now ∈ s.log → id < s.nextTimerId
  stored : ∀ t ∈ s.queued, t.id ∉ s.canceled → ∃ due cb,
    .created t.id due t.interval cb ∈ s.log ∧ s.timerCbs.lookup t.id = some (some cb)
  once : ∀ t ∈ s.queued, t.interval.positive = false → ∀ cb now, .ran t.id cb now ∉ s.log
  running : ∀ now expired t cb, s.batch = some ⟨now, expired, some (t, cb)⟩ →
    lastRun s.log t.id = some now ∧
      ∃ due cb', cb = some cb' ∧ .created t.id due t.interval cb' ∈ s.log

theorem Loaded.start (loaded : Loaded s) (distinct : Distinct s) (now : ℤ)
    (sec interval : Seconds) (cb : κ) : Loaded (s.start now sec interval cb) := by
  constructor
  · intro id due interval' cb' member
    rcases List.mem_cons.mp member with same | old
    · cases same
      exact Nat.lt_succ_self _
    · exact (loaded.given id due interval' cb' old).trans (Nat.lt_succ_self _)
  · intro id cb' now' member
    rcases List.mem_cons.mp member with same | old
    · cases same
    · exact (loaded.ranGiven id cb' now' old).trans (Nat.lt_succ_self _)
  · intro t member unmarked
    rcases List.mem_cons.mp member with rfl | old
    · refine ⟨now + sec.ns, cb, List.mem_cons_self, ?_⟩
      exact (UnorderedMap.lookup_insert ..).trans (if_pos rfl)
    · have older : t.id ≠ s.nextTimerId := (distinct.given _ (mem_live_of_queued old)).ne
      obtain ⟨due, cb', created, lookup⟩ := loaded.stored t old unmarked
      refine ⟨due, cb', List.mem_cons_of_mem _ created, ?_⟩
      exact ((UnorderedMap.lookup_insert ..).trans (if_neg older)).trans lookup
  · intro t member single cb' now' ran
    rcases List.mem_cons.mp ran with same | ran
    · cases same
    rcases List.mem_cons.mp member with rfl | old
    · exact Nat.lt_irrefl _ (loaded.ranGiven _ cb' now' ran)
    · exact loaded.once t old single cb' now' ran
  · intro now' expired t cb' here
    obtain ⟨last, due, cb'', some, created⟩ := loaded.running now' expired t cb' here
    exact ⟨last, due, cb'', some, List.mem_cons_of_mem _ created⟩

/-- The timer whose callback has returned starts again. -/
theorem Loaded.rearm (loaded : Loaded s) (distinct : Distinct s) {now : ℤ} {t : Timer}
    {expired : List Timer} {cb : Option κ} (here : s.batch = some ⟨now, expired, some (t, cb)⟩)
    (periodic : t.interval.positive = true) :
    Loaded (insertTimer
      { s with
        batch := some ⟨now, expired, none⟩
        log := .returned t.id (some (now + t.interval.ns)) :: s.log }
      { t with due := now + t.interval.ns } cb) := by
  obtain ⟨last, due, cb, rfl, created⟩ := loaded.running now expired t cb here
  have nodup := distinct.nodup
  rw [live_of_running here] at nodup
  constructor
  · intro id due interval cb member
    rcases List.mem_cons.mp member with same | old
    · cases same
    · exact loaded.given id due interval cb old
  · intro id cb now member
    rcases List.mem_cons.mp member with same | old
    · cases same
    · exact loaded.ranGiven id cb now old
  · intro t' member unmarked
    rcases List.mem_cons.mp member with rfl | old
    · refine ⟨due, cb, List.mem_cons_of_mem _ created, ?_⟩
      exact (UnorderedMap.lookup_insert ..).trans (if_pos rfl)
    · have queued : t' ∈ s.queued := by rw [queued_of_batch here]; exact old
      have other : t'.id ≠ t.id := fun same =>
        (List.nodup_cons.mp nodup).1 (same ▸ List.mem_map_of_mem queued)
      obtain ⟨due', cb', created', lookup⟩ := loaded.stored t' queued unmarked
      refine ⟨due', cb', List.mem_cons_of_mem _ created', ?_⟩
      exact ((UnorderedMap.lookup_insert ..).trans (if_neg other)).trans lookup
  · intro t' member single cb' now' ran
    rcases List.mem_cons.mp ran with same | ran
    · cases same
    rcases List.mem_cons.mp member with rfl | old
    · rw [periodic] at single
      cases single
    · refine loaded.once t' ?_ single cb' now' ran
      rw [queued_of_batch here]
      exact old
  · intro now' expired' t' cb' here'
    cases here'

/-- The callback of the timer that is looked at starts. -/
theorem Loaded.run (loaded : Loaded s) (distinct : Distinct s) {now : ℤ} {t : Timer}
    {expired : List Timer} {cb : κ} (here : s.batch = some ⟨now, t :: expired, none⟩)
    (unmarked : t.id ∉ s.canceled) (looked : s.timerCbs.lookup t.id = some (some cb)) :
    Loaded { s with
      timerCbs := s.timerCbs.erase t.id
      batch := some ⟨now, expired, some (t, some cb)⟩
      log := .ran t.id cb now :: s.log } := by
  obtain ⟨member, others, -⟩ := queued_looked here distinct
  constructor
  · intro id due interval cb' member'
    rcases List.mem_cons.mp member' with same | old
    · cases same
    · exact loaded.given id due interval cb' old
  · intro id cb' now' member'
    rcases List.mem_cons.mp member' with same | old
    · cases same
      exact distinct.given _ (mem_live_of_queued member)
    · exact loaded.ranGiven id cb' now' old
  · intro t' member' unmarked'
    rw [queued_of_batch rfl] at member'
    obtain ⟨queued, other⟩ := others t' member'
    obtain ⟨due, cb', created, lookup⟩ := loaded.stored t' queued unmarked'
    refine ⟨due, cb', List.mem_cons_of_mem _ created, ?_⟩
    exact ((UnorderedMap.lookup_erase ..).trans (if_neg other)).trans lookup
  · intro t' member' single cb' now' ran
    rw [queued_of_batch rfl] at member'
    obtain ⟨queued, other⟩ := others t' member'
    rcases List.mem_cons.mp ran with same | ran
    · exact other (TimerEvent.ran.inj same).1
    · exact loaded.once t' queued single cb' now' ran
  · intro now' expired' t' cb' here'
    cases here'
    obtain ⟨due, cb', created, lookup⟩ := loaded.stored t member unmarked
    cases looked.symm.trans lookup
    exact ⟨if_pos rfl, due, cb, rfl, List.mem_cons_of_mem _ created⟩

/-- A step after which no timer is new and no callback has been called: what was known of the
timers that are left still holds. -/
theorem Loaded.shrink (loaded : Loaded s) (next : s'.nextTimerId = s.nextTimerId)
    (created : ∀ id due interval cb,
      .created id due interval cb ∈ s'.log ↔ .created id due interval cb ∈ s.log)
    (ran : ∀ id cb now, .ran id cb now ∈ s'.log ↔ .ran id cb now ∈ s.log)
    (last : ∀ id, lastRun s'.log id = lastRun s.log id)
    (queued : ∀ t ∈ s'.queued, t ∈ s.queued)
    (stored : ∀ t ∈ s'.queued, t.id ∉ s'.canceled →
      t.id ∉ s.canceled ∧ s'.timerCbs.lookup t.id = s.timerCbs.lookup t.id)
    (running : ∀ now expired t cb, s'.batch = some ⟨now, expired, some (t, cb)⟩ →
      s.batch = some ⟨now, expired, some (t, cb)⟩) : Loaded s' := by
  constructor
  · intro id due interval cb member
    rw [next]
    exact loaded.given id due interval cb ((created ..).mp member)
  · intro id cb now member
    rw [next]
    exact loaded.ranGiven id cb now ((ran ..).mp member)
  · intro t member unmarked
    obtain ⟨before, same⟩ := stored t member unmarked
    obtain ⟨due, cb, made, lookup⟩ := loaded.stored t (queued t member) before
    exact ⟨due, cb, (created ..).mpr made, same.trans lookup⟩
  · intro t member single cb now here
    exact loaded.once t (queued t member) single cb now ((ran ..).mp here)
  · intro now expired t cb here
    obtain ⟨time, due, cb', some, made⟩ := loaded.running now expired t cb (running _ _ _ _ here)
    exact ⟨(last t.id).trans time, due, cb', some, (created ..).mpr made⟩

/-- A timer that has not been cancelled has a callback when it is looked at. -/
theorem Loaded.lookup (loaded : Loaded s) (distinct : Distinct s) {now : ℤ} {t : Timer}
    {expired : List Timer} (here : s.batch = some ⟨now, t :: expired, none⟩)
    (unmarked : t.id ∉ s.canceled) : ∃ cb, s.timerCbs.lookup t.id = some (some cb) := by
  obtain ⟨due, cb, -, lookup⟩ :=
    loaded.stored t (queued_looked here distinct).1 unmarked
  exact ⟨cb, lookup⟩

theorem Loaded.step (loaded : Loaded s) (distinct : Distinct s) (taken : Taken s i s') :
    Loaded s' := by
  cases taken with
  | after now sec cb _ => exact loaded.start distinct ..
  | every now sec cb _ => exact loaded.start distinct ..
  | cancelled id =>
    refine loaded.shrink rfl (by simp [cancelInLoop]) (by simp [cancelInLoop]) (fun _ => rfl)
      (fun _ member => member) (fun t member unmarked => ?_) fun _ _ _ _ here => here
    have split := not_or.mp (mt Finset.mem_insert.mpr unmarked)
    exact ⟨split.2, (UnorderedMap.lookup_erase ..).trans (if_neg split.1)⟩
  | began now expired idle _ due =>
    refine loaded.shrink rfl (by simp) (by simp) (fun _ => rfl) (fun t member => ?_)
      (fun _ _ unmarked => ⟨unmarked, rfl⟩) fun _ _ _ _ here => by cases here
    rw [queued_of_batch rfl] at member
    exact (queued_began idle due).mem_iff.mp member
  | skipped now t expired here mark =>
    obtain ⟨member, others, -⟩ := queued_looked here distinct
    refine loaded.shrink rfl (by simp) (by simp) (fun _ => rfl) (fun t' member' => ?_)
      (fun t' member' unmarked => ?_) fun _ _ _ _ here => by cases here
    · rw [queued_of_batch rfl] at member'
      exact (others t' member').1
    · rw [queued_of_batch rfl] at member'
      have other := (others t' member').2
      exact ⟨fun mark => unmarked (Finset.mem_erase.mpr ⟨other, mark⟩),
        (UnorderedMap.lookup_erase ..).trans (if_neg other)⟩
  | ran now t expired cb here mark looked =>
    obtain ⟨cb, lookup⟩ := loaded.lookup distinct here mark
    rw [lookup] at looked
    subst looked
    exact loaded.run distinct here mark lookup
  | rearmed now t expired cb here periodic _ => exact loaded.rearm distinct here periodic
  | retired now t expired cb here _ =>
    refine loaded.shrink rfl (by simp) (by simp) (fun _ => rfl) (fun t' member => ?_)
      (fun _ _ unmarked => ⟨unmarked, rfl⟩) fun _ _ _ _ here => by cases here
    rw [queued_of_batch rfl] at member
    rw [queued_of_batch here]
    exact member
  | ended now here =>
    refine loaded.shrink rfl (by simp) (by simp) (fun _ => rfl) (fun t' member => ?_)
      (fun _ _ unmarked => ⟨unmarked, rfl⟩) fun _ _ _ _ here => by cases here
    rw [queued_of_idle rfl] at member
    rw [queued_of_batch here]
    exact List.mem_append_left _ member

/-! ## When timers are due -/

/-- The timers that are still to be looked at, and when they are due. -/
structure Dues (s : TimerLoop κ) : Prop where
  due : ∀ t ∈ s.queued, pendingDue s.log t.id = some t.due
  queued : ∀ id due, pendingDue s.log id = some due → .cancelled id ∉ s.log → id ∈ s.pending

theorem Dues.step (dues : Dues s) (marks : Marks s) (loaded : Loaded s) (distinct : Distinct s)
    (taken : Taken s i s') : Dues s' := by
  -- a new timer has a new id, and the others are due as before
  have started (now : ℤ) (sec interval : Seconds) (cb : κ) :
      Dues (s.start now sec interval cb) := by
    constructor
    · intro t member
      rcases List.mem_cons.mp member with rfl | old
      · exact if_pos rfl
      · have older : t.id ≠ s.nextTimerId := (distinct.given _ (mem_live_of_queued old)).ne
        exact (if_neg older).trans (dues.due t old)
    · intro id due pending unmarked
      have unmarked' : .cancelled id ∉ s.log := fun c => unmarked (List.mem_cons_of_mem _ c)
      by_cases same : id = s.nextTimerId
      · exact same ▸ List.mem_cons_self
      · exact List.mem_cons_of_mem _
          (dues.queued id due ((if_neg same).symm.trans pending) unmarked')
  cases taken with
  | after now sec cb _ => exact started ..
  | every now sec cb _ => exact started ..
  | cancelled id =>
    exact ⟨dues.due, fun id due pending unmarked =>
      dues.queued id due pending fun c => unmarked (List.mem_cons_of_mem _ c)⟩
  | began now expired idle _ due =>
    -- the timers that are due move to the batch, and stay queued
    have same := queued_began idle due
    constructor
    · intro t member
      rw [queued_of_batch rfl] at member
      exact dues.due t (same.mem_iff.mp member)
    · intro id due' pending unmarked
      rw [mem_pending_iff, queued_of_batch rfl]
      obtain ⟨t, member, here⟩ := mem_pending_iff.mp
        (dues.queued id due' pending fun c => unmarked (List.mem_cons_of_mem _ c))
      exact ⟨t, same.mem_iff.mpr member, here⟩
  | skipped now t expired here mark =>
    -- the timer that goes is cancelled, so nothing is promised of it
    obtain ⟨member, others, rest⟩ := queued_looked here distinct
    constructor
    · intro t' member'
      rw [queued_of_batch rfl] at member'
      exact dues.due t' (others t' member').1
    · intro id due pending unmarked
      rw [TimerLoop.pending, queued_of_batch rfl]
      refine rest id (dues.queued id due pending unmarked) fun same => unmarked ?_
      rw [same]
      exact marks.cancelled t.id mark
  | ran now t expired cb here mark looked =>
    -- a timer that has run is due again only when its callback returns
    obtain ⟨cb, lookup⟩ := loaded.lookup distinct here mark
    rw [lookup] at looked
    subst looked
    obtain ⟨member, others, rest⟩ := queued_looked here distinct
    constructor
    · intro t' member'
      rw [queued_of_batch rfl] at member'
      obtain ⟨queued, other⟩ := others t' member'
      exact (if_neg other).trans (dues.due t' queued)
    · intro id due pending unmarked
      rw [TimerLoop.pending, queued_of_batch rfl]
      have unmarked' : .cancelled id ∉ s.log := fun c => unmarked (List.mem_cons_of_mem _ c)
      by_cases same : id = t.id
      · cases (if_pos same).symm.trans pending
      · exact rest id (dues.queued id due ((if_neg same).symm.trans pending) unmarked') same
  | rearmed now t expired cb here _ _ =>
    -- the timer is queued again, with the time that the log gives it
    have nodup := distinct.nodup
    rw [live_of_running here] at nodup
    constructor
    · intro t' member
      rcases List.mem_cons.mp member with rfl | old
      · exact if_pos rfl
      · have queued : t' ∈ s.queued := by rw [queued_of_batch here]; exact old
        have other : t'.id ≠ t.id := fun same =>
          (List.nodup_cons.mp nodup).1 (same ▸ List.mem_map_of_mem queued)
        exact (if_neg other).trans (dues.due t' queued)
    · intro id due pending unmarked
      have unmarked' : .cancelled id ∉ s.log := fun c => unmarked (List.mem_cons_of_mem _ c)
      rw [pending_of_batch rfl]
      by_cases same : id = t.id
      · exact same ▸ List.mem_cons_self
      · have old := dues.queued id due ((if_neg same).symm.trans pending) unmarked'
        rw [pending_of_batch here] at old
        exact List.mem_cons_of_mem _ old
  | retired now t expired cb here _ =>
    -- the log says that the timer is due no more, and it is queued no more
    have nodup := distinct.nodup
    rw [live_of_running here] at nodup
    constructor
    · intro t' member
      have queued : t' ∈ s.queued := by
        rw [queued_of_batch rfl] at member
        rw [queued_of_batch here]
        exact member
      have other : t'.id ≠ t.id := fun same =>
        (List.nodup_cons.mp nodup).1 (same ▸ List.mem_map_of_mem queued)
      exact (if_neg other).trans (dues.due t' queued)
    · intro id due pending unmarked
      have unmarked' : .cancelled id ∉ s.log := fun c => unmarked (List.mem_cons_of_mem _ c)
      by_cases same : id = t.id
      · cases (if_pos same).symm.trans pending
      · have old := dues.queued id due ((if_neg same).symm.trans pending) unmarked'
        rw [pending_of_batch here] at old
        rw [pending_of_batch rfl]
        exact old
  | ended now here =>
    -- the batch was empty
    have same : s.timers ++ [] = s.timers := List.append_nil _
    constructor
    · intro t member
      refine dues.due t ?_
      rw [queued_of_idle rfl] at member
      rw [queued_of_batch here, same]
      exact member
    · intro id due pending unmarked
      have old := dues.queued id due pending fun c => unmarked (List.mem_cons_of_mem _ c)
      rw [TimerLoop.pending, queued_of_batch here, same] at old
      rw [pending_of_idle rfl]
      exact old

/-! ## Calls -/

/-- The call of `processExpiredTimers`: the timers that were due when it began have run or are
still to be looked at, unless they are cancelled. -/
structure Calls (s : TimerLoop κ) : Prop where
  early : ∀ b, s.batch = some b → ∀ t ∈ b.expired, t.due ≤ b.now
  call : ∀ b, s.batch = some b → ∃ during older, lastCall s.log = some (b.now, during, older) ∧
    ∀ id due, pendingDue older id = some due → due ≤ b.now → .cancelled id ∉ s.log →
      (∃ cb, .ran id cb b.now ∈ during) ∨ id ∈ b.expired.map (·.id)

/-- A step that is part of the call, with one event more. -/
theorem Calls.cons (calls : Calls s) {e : TimerEvent κ} (inside : ∀ now, e ≠ .began now)
    (log : s'.log = e :: s.log)
    (batch : ∀ b', s'.batch = some b' → ∃ b, s.batch = some b ∧ b'.now = b.now ∧
      b'.expired.Sublist b.expired ∧ ∀ id ∈ b.expired.map (·.id), id ∈ b'.expired.map (·.id) ∨
        ∃ cb, e = .ran id cb b.now) : Calls s' := by
  constructor
  · intro b' here t member
    obtain ⟨b, before, now, fewer, -⟩ := batch b' here
    rw [now]
    exact calls.early b before t (fewer.subset member)
  · intro b' here
    obtain ⟨b, before, now, fewer, rest⟩ := batch b' here
    obtain ⟨during, older, last, due⟩ := calls.call b before
    have last' : lastCall s'.log = some (b'.now, e :: during, older) := by
      rw [log, now, lastCall, last, Option.map_some]
      exact inside
    refine ⟨e :: during, older, last', fun id time pending le unmarked => ?_⟩
    rw [now] at le ⊢
    have unmarked' : .cancelled id ∉ s.log := fun c =>
      unmarked (log ▸ List.mem_cons_of_mem _ c)
    rcases due id time pending le unmarked' with ⟨cb, ran⟩ | left
    · exact .inl ⟨cb, List.mem_cons_of_mem _ ran⟩
    · rcases rest id left with left | ⟨cb, rfl⟩
      · exact .inr left
      · exact .inl ⟨cb, List.mem_cons_self⟩

theorem Calls.step (calls : Calls s) (dues : Dues s) (marks : Marks s) (loaded : Loaded s)
    (distinct : Distinct s) (taken : Taken s i s') : Calls s' := by
  -- What happens beside the call.
  have beside {e : TimerEvent κ} (inside : ∀ now, e ≠ .began now) (log : s'.log = e :: s.log)
      (batch : s'.batch = s.batch) : Calls s' :=
    calls.cons inside log fun b here =>
      ⟨b, batch ▸ here, rfl, List.Sublist.refl _, fun _ member => .inl member⟩
  cases taken with
  | after now sec cb _ => exact beside (by simp) rfl rfl
  | every now sec cb _ => exact beside (by simp) rfl rfl
  | cancelled id => exact beside (by simp) rfl rfl
  | began now expired idle _ due =>
    constructor
    · rintro _ ⟨⟩ t member
      exact of_decide_eq_true (List.mem_filter.mp (due.mem_iff.mp member)).2
    · rintro _ ⟨⟩
      refine ⟨[], s.log, rfl, fun id time pending le unmarked => .inr ?_⟩
      have unmarked' : .cancelled id ∉ s.log := fun c => unmarked (List.mem_cons_of_mem _ c)
      -- what is due when the call begins is taken into the batch
      obtain ⟨t, member, rfl⟩ := mem_pending_iff.mp (dues.queued id time pending unmarked')
      have same := Option.some.inj ((dues.due t member).symm.trans pending)
      rw [queued_of_idle idle] at member
      refine List.mem_map_of_mem (due.mem_iff.mpr (List.mem_filter.mpr ⟨member, ?_⟩))
      rw [same]
      exact decide_eq_true le
  | skipped now t expired here mark =>
    obtain ⟨during, older, last, due⟩ := calls.call _ here
    constructor
    · rintro _ ⟨⟩ t' member
      exact calls.early _ here t' (List.mem_cons_of_mem _ member)
    · rintro _ ⟨⟩
      refine ⟨during, older, last, fun id time pending le unmarked => ?_⟩
      refine (due id time pending le unmarked).imp_right fun left => ?_
      -- a timer that is left out was cancelled
      rcases List.mem_cons.mp left with rfl | rest
      · exact absurd (marks.cancelled _ mark) unmarked
      · exact rest
  | ran now t expired cb here mark looked =>
    obtain ⟨cb, lookup⟩ := loaded.lookup distinct here mark
    rw [lookup] at looked
    subst looked
    refine calls.cons (e := .ran t.id cb now) (by simp) rfl ?_
    rintro _ ⟨⟩
    refine ⟨_, here, rfl, List.sublist_cons_self .., fun id left => ?_⟩
    rcases List.mem_cons.mp left with rfl | rest
    · exact .inr ⟨cb, rfl⟩
    · exact .inl rest
  | rearmed now t expired cb here _ _ =>
    refine calls.cons (e := .returned t.id (some (now + t.interval.ns))) (by simp) rfl ?_
    rintro _ ⟨⟩
    exact ⟨_, here, rfl, List.Sublist.refl _, fun _ member => .inl member⟩
  | retired now t expired cb here _ =>
    refine calls.cons (e := .returned t.id none) (by simp) rfl ?_
    rintro _ ⟨⟩
    exact ⟨_, here, rfl, List.Sublist.refl _, fun _ member => .inl member⟩
  | ended now here =>
    refine calls.cons (e := .ended) (by simp) rfl ?_
    rintro _ ⟨⟩

/-! ## The law of every run -/

/-- What a step adds to the log obeys the law. -/
theorem lawful_step (lawful : Lawful TimerLaw s.log) (calls : Calls s) (dues : Dues s)
    (marks : Marks s) (loaded : Loaded s) (distinct : Distinct s) (taken : Taken s i s') :
    Lawful TimerLaw s'.log := by
  have fresh (due : ℤ) (interval : Seconds) (cb : κ) :
      .created s.nextTimerId due interval cb ∉ s.log := fun member =>
    Nat.lt_irrefl _ (loaded.given _ due interval cb member)
  -- The callback that returns is the one that was called last.
  have back {now : ℤ} {t : Timer} {expired : List Timer} {cb : Option κ}
      (here : s.batch = some ⟨now, expired, some (t, cb)⟩) {again : Option ℤ}
      (first : t.interval.positive = true → .cancelled t.id ∉ s.log →
        again = some (now + t.interval.ns))
      (second : t.interval.positive = false ∨ .cancelled t.id ∈ s.log → again = none) :
      TimerLaw (.returned t.id again) s.log := by
    obtain ⟨last, due, cb', -, created⟩ := loaded.running now expired t cb here
    exact ⟨now, due, t.interval, cb', last, created, first, second⟩
  cases taken with
  | after now sec cb _ => exact lawful.cons fresh
  | every now sec cb _ => exact lawful.cons fresh
  | cancelled id => exact lawful.cons trivial
  | began now expired idle _ due => exact lawful.cons trivial
  | skipped now t expired here mark => exact lawful
  | ran now t expired cb here mark looked =>
    obtain ⟨member, -, -⟩ := queued_looked here distinct
    obtain ⟨due, cb, created, lookup⟩ := loaded.stored t member mark
    rw [lookup] at looked
    subst looked
    have unmarked : .cancelled t.id ∉ s.log :=
      mt (marks.of_mem_live (mem_live_of_queued member)).mpr mark
    exact lawful.cons ⟨⟨t.due, dues.due t member, calls.early _ here t List.mem_cons_self⟩,
      unmarked, due, t.interval, created, loaded.once t member⟩
  | rearmed now t expired cb here periodic mark =>
    have live : t.id ∈ s.live := by
      rw [live_of_running here]
      exact List.mem_cons_self
    refine lawful.cons (back here (fun _ _ => rfl) ?_)
    rintro (single | cancelled)
    · rw [periodic] at single
      cases single
    · exact absurd ((marks.of_mem_live live).mpr cancelled) mark
  | retired now t expired cb here last =>
    have live : t.id ∈ s.live := by
      rw [live_of_running here]
      exact List.mem_cons_self
    refine lawful.cons (back here (fun periodic unmarked => ?_) fun _ => rfl)
    exact absurd ⟨periodic, mt (marks.of_mem_live live).mp unmarked⟩ last
  | ended now here =>
    obtain ⟨during, older, last, due⟩ := calls.call _ here
    refine lawful.cons ⟨now, during, older, last, fun id time pending le unmarked => ?_⟩
    rcases due id time pending le unmarked with ran | left
    · exact ran
    · cases left

/-- What happens to timers obeys the law, in whatever order they are started, cancelled and looked
at. -/
theorem lawful_of_run (run : machine.Run h s) : Lawful TimerLaw s.log := by
  -- each invariant is carried through a step by those behind it
  have all : Lawful TimerLaw s.log ∧ Calls s ∧ Dues s ∧ Marks s ∧ Loaded s ∧ Distinct s := by
    refine run.invariant (I := fun s =>
      Lawful TimerLaw s.log ∧ Calls s ∧ Dues s ∧ Marks s ∧ Loaded s ∧ Distinct s) ?_ ?_
    · rintro _ ⟨clock, rfl⟩
      refine ⟨.nil, ⟨?_, ?_⟩, ⟨?_, ?_⟩, ⟨?_, ?_⟩, ⟨?_, ?_, ?_, ?_, ?_⟩, ⟨List.nodup_nil, ?_⟩⟩
      · rintro _ ⟨⟩
      · rintro _ ⟨⟩
      · rintro _ ⟨⟩
      · rintro _ _ ⟨⟩
      · intro id mark
        exact absurd mark (Finset.notMem_empty id)
      · rintro _ ⟨⟩
      · rintro _ _ _ _ ⟨⟩
      · rintro _ _ _ ⟨⟩
      · rintro _ ⟨⟩
      · rintro _ ⟨⟩
      · rintro _ _ _ _ ⟨⟩
      · rintro _ ⟨⟩
    · rintro s i s' step ⟨lawful, calls, dues, marks, loaded, distinct⟩
      have taken := taken_of_step step
      exact ⟨lawful_step lawful calls dues marks loaded distinct taken,
        calls.step dues marks loaded distinct taken, dues.step marks loaded distinct taken,
        marks.step distinct taken, loaded.step distinct taken, distinct.step taken⟩
  exact all.1

/-- A periodic timer and another one expire together, and the callback of the first cancels the
second. -/
def sharedBatch : List (TimerInput ℕ) :=
  [.runEvery 0 ⟨10, true, by decide⟩ 7, .runAfter 0 ⟨12, true, by decide⟩ 8,
    .processExpired 15 [⟨10, ⟨10, true, by decide⟩, 1⟩, ⟨12, .zero, 2⟩], .next, .cancel 2, .returns,
    .next, .finish]

/-- What happens then: the second one does not run. -/
def sharedBatchLog : List (TimerEvent ℕ) :=
  [.ended, .returned 1 (some 25), .cancelled 2, .ran 1 7 15, .began 15, .created 2 12 .zero 8,
    .created 1 10 ⟨10, true, by decide⟩ 7]

theorem lawful_sharedBatchLog : Lawful TimerLaw sharedBatchLog := by
  obtain ⟨h, s, run, -, reached⟩ := machine.exists_run sharedBatch (fun _ _ => true)
    (fun s => s.log = sharedBatchLog) ⟨0, rfl⟩ (by decide)
  exact of_decide_eq_true reached ▸ lawful_of_run run

end TimerLoop

end Perfacet
