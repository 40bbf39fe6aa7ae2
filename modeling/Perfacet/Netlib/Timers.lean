import Mathlib.Data.Finset.Basic
import Perfacet.Lib.Transition
import Perfacet.Lib.UnorderedMap

/-!
# The timers of an event loop

What `EventLoop` keeps of its timers is spread over a heap, a map of callbacks and a set of
cancelled ids. `processExpiredTimers` takes what has expired from the heap and calls one callback
after the other; a callback, and whatever is destroyed on the way, may start and cancel timers. A
cancelled timer stays in the heap and is dropped when it expires.

A call of `processExpiredTimers` is a sequence of steps of the machine here. Between any two of
them timers may be started and cancelled.

Times are whole numbers of nanoseconds without a bound. In the code they are 64 bits wide, so what
is said here is about the code while no time that is read or summed leaves that range, which is 292
years.

## Main definitions

* `TimerLoop.machine` — the timers under all sequences of calls
* `TimerLoop.Tidy` — the set and the map hold nothing but what the heap accounts for
* `TimerLoop.CancelsPending` — a step that, if it cancels, cancels what is still to expire

## Main results

* `TimerLoop.Taken` — what a step does
* `TimerLoop.told_of_run` — what is told of timers that start, and of calls that begin and end
* `TimerLoop.tidy_of_run` — what the three hold stays tidy if only pending timers are cancelled
* `TimerLoop.stale_of_run` — the id of a timer that is gone is never removed again
-/

namespace Perfacet

abbrev TimerId := ℕ

/-- A time in seconds, as a double: what it is in nanoseconds, and whether it is positive. The
nanoseconds are those of the code as long as they fit into 64 bits, and so are the sums of such
times with a time that is read: for 292 years from the start of the clock. -/
structure Seconds where
  ns : ℤ
  positive : Bool
  sign : if positive then 0 ≤ ns else ns ≤ 0
  deriving DecidableEq

def Seconds.zero : Seconds := ⟨0, false, Int.le_refl 0⟩

/-- A timer in the heap; it is periodic if its interval is positive. -/
structure Timer where
  due : ℤ
  interval : Seconds
  id : TimerId
  deriving DecidableEq

/-- What happens to timers, for those who started them. A callback that has returned tells when it
is due again, if it is. -/
inductive TimerEvent (κ : Type*)
  | created (id : TimerId) (due : ℤ) (interval : Seconds) (cb : κ)
  | cancelled (id : TimerId)
  | began (now : ℤ)
  | ran (id : TimerId) (cb : κ) (now : ℤ)
  | returned (id : TimerId) (again : Option ℤ)
  | ended
  deriving DecidableEq

/-- The events that are not about the callback of a timer, or its cancellation. -/
def TimerEvent.isCall {κ : Type*} : TimerEvent κ → Bool
  | .created _ _ _ _ | .began _ | .ended => true
  | .cancelled _ | .ran _ _ _ | .returned _ _ => false

/-- A call of `processExpiredTimers`: the time that it has read, the timers to come, and the timer
whose callback is running. An empty callback is not called. -/
structure TimerBatch (κ : Type*) where
  now : ℤ
  expired : List Timer
  running : Option (Timer × Option κ) := none

/-- The members of `EventLoop` that are about timers. -/
structure TimerLoop (κ : Type*) where
  timers : List Timer := []
  canceled : Finset TimerId := ∅
  timerCbs : UnorderedMap TimerId (Option κ) := ∅
  nextTimerId : TimerId := 1
  clock : ℤ := 0
  batch : Option (TimerBatch κ) := none
  log : List (TimerEvent κ) := []

/-- What is called on the loop thread, with the times that are read. The heap decides in which
order timers expire that are due at the same time. -/
inductive TimerInput (κ : Type*)
  | runAfter (now : ℤ) (sec : Seconds) (cb : κ)
  | runEvery (now : ℤ) (sec : Seconds) (cb : κ)
  | cancel (id : TimerId)
  | processExpired (now : ℤ) (expired : List Timer)
  | next
  | returns
  | finish

namespace TimerLoop

variable {κ : Type*}

/-! ## The code -/

def insertTimer (s : TimerLoop κ) (t : Timer) (cb : Option κ) : TimerLoop κ :=
  { s with timerCbs := s.timerCbs.insert t.id cb, timers := t :: s.timers }

/-- `runAfter` and `runEvery`. -/
def start (s : TimerLoop κ) (now : ℤ) (sec interval : Seconds) (cb : κ) : TimerLoop κ :=
  insertTimer
    { s with
      nextTimerId := s.nextTimerId + 1
      clock := now
      log := .created s.nextTimerId (now + sec.ns) interval cb :: s.log }
    ⟨now + sec.ns, interval, s.nextTimerId⟩ (some cb)

def cancelInLoop (s : TimerLoop κ) (id : TimerId) : TimerLoop κ :=
  { s with
    canceled := insert id s.canceled
    timerCbs := s.timerCbs.erase id
    log := .cancelled id :: s.log }

/-- The first loop of `processExpiredTimers`. The heap gives the timers that are due, those first
that are due first. -/
def processExpired (s : TimerLoop κ) (now : ℤ) (expired : List Timer) : Option (TimerLoop κ) :=
  if s.batch.isNone ∧ s.clock ≤ now ∧ expired.Perm (s.timers.filter (·.due ≤ now)) ∧
      expired.Pairwise (·.due ≤ ·.due) then
    some { s with
      timers := s.timers.filter (now < ·.due)
      clock := now
      batch := some ⟨now, expired, none⟩
      log := .began now :: s.log }
  else none

/-- A round of the second loop, up to the callback. -/
def next (s : TimerLoop κ) : Option (TimerLoop κ) :=
  match s.batch with
  | some ⟨now, t :: expired, none⟩ =>
    -- the mark has done its work
    if t.id ∈ s.canceled then
      some { s with
        canceled := s.canceled.erase t.id
        timerCbs := s.timerCbs.erase t.id
        batch := some ⟨now, expired, none⟩ }
    else
      -- the callback is moved out before it is called, and may cancel its own timer
      let cb := (s.timerCbs.lookup t.id).join
      some { s with
        timerCbs := s.timerCbs.erase t.id
        batch := some ⟨now, expired, some (t, cb)⟩
        log := match cb with
          | some cb => .ran t.id cb now :: s.log
          | none => s.log }
  | _ => none

/-- The rest of the round. -/
def returns (s : TimerLoop κ) : Option (TimerLoop κ) :=
  match s.batch with
  | some ⟨now, expired, some (t, cb)⟩ =>
    if t.interval.positive ∧ t.id ∉ s.canceled then
      -- the next time is counted from the start of the call, not from the end of the callback
      let due := now + t.interval.ns
      some (insertTimer
        { s with batch := some ⟨now, expired, none⟩, log := .returned t.id (some due) :: s.log }
        { t with due := due } cb)
    else
      some { s with batch := some ⟨now, expired, none⟩, log := .returned t.id none :: s.log }
  | _ => none

/-- The end of `processExpiredTimers`. -/
def finish (s : TimerLoop κ) : Option (TimerLoop κ) :=
  match s.batch with
  | some ⟨_, [], none⟩ => some { s with batch := none, log := .ended :: s.log }
  | _ => none

/-- A time that is read is not before the last one. -/
def step (s : TimerLoop κ) : TimerInput κ → Option (TimerLoop κ)
  | .runAfter now sec cb => if s.clock ≤ now then some (s.start now sec .zero cb) else none
  | .runEvery now sec cb => if s.clock ≤ now then some (s.start now sec sec cb) else none
  | .cancel id => some (s.cancelInLoop id)
  | .processExpired now expired => s.processExpired now expired
  | .next => s.next
  | .returns => s.returns
  | .finish => s.finish

/-- A new event loop, at any time. -/
def machine : TransitionSystem (TimerLoop κ) (TimerInput κ) where
  init s := ∃ clock, s = { clock := clock }
  step := step

/-! ## What a step does -/

/-- The timers that are taken from the heap and still to come. -/
def expired (s : TimerLoop κ) : List Timer := (s.batch.map (·.expired)).getD []

/-- The timers that are still to expire, or to be looked at. -/
def queued (s : TimerLoop κ) : List Timer := s.timers ++ s.expired

/-- The timer whose callback is running. -/
def running (s : TimerLoop κ) : Option Timer := s.batch.bind fun b => b.running.map (·.1)

/-- The effects of a step. -/
inductive Taken (s : TimerLoop κ) : TimerInput κ → TimerLoop κ → Prop
  | after (now : ℤ) (sec : Seconds) (cb : κ) : s.clock ≤ now →
      Taken s (.runAfter now sec cb) (s.start now sec .zero cb)
  | every (now : ℤ) (sec : Seconds) (cb : κ) : s.clock ≤ now →
      Taken s (.runEvery now sec cb) (s.start now sec sec cb)
  | cancelled (id : TimerId) : Taken s (.cancel id) (s.cancelInLoop id)
  | began (now : ℤ) (expired : List Timer) : s.batch = none → s.clock ≤ now →
      expired.Perm (s.timers.filter (·.due ≤ now)) →
      Taken s (.processExpired now expired)
        { s with
          timers := s.timers.filter (now < ·.due)
          clock := now
          batch := some ⟨now, expired, none⟩
          log := .began now :: s.log }
  | skipped (now : ℤ) (t : Timer) (expired : List Timer) :
      s.batch = some ⟨now, t :: expired, none⟩ → t.id ∈ s.canceled →
      Taken s .next
        { s with
          canceled := s.canceled.erase t.id
          timerCbs := s.timerCbs.erase t.id
          batch := some ⟨now, expired, none⟩ }
  | ran (now : ℤ) (t : Timer) (expired : List Timer) (cb : Option κ) :
      s.batch = some ⟨now, t :: expired, none⟩ → t.id ∉ s.canceled →
      cb = (s.timerCbs.lookup t.id).join →
      Taken s .next
        { s with
          timerCbs := s.timerCbs.erase t.id
          batch := some ⟨now, expired, some (t, cb)⟩
          log := match cb with
            | some cb => .ran t.id cb now :: s.log
            | none => s.log }
  | rearmed (now : ℤ) (t : Timer) (expired : List Timer) (cb : Option κ) :
      s.batch = some ⟨now, expired, some (t, cb)⟩ → t.interval.positive = true →
      t.id ∉ s.canceled →
      Taken s .returns
        (insertTimer
          { s with
            batch := some ⟨now, expired, none⟩
            log := .returned t.id (some (now + t.interval.ns)) :: s.log }
          { t with due := now + t.interval.ns } cb)
  | retired (now : ℤ) (t : Timer) (expired : List Timer) (cb : Option κ) :
      s.batch = some ⟨now, expired, some (t, cb)⟩ →
      ¬ (t.interval.positive = true ∧ t.id ∉ s.canceled) →
      Taken s .returns
        { s with batch := some ⟨now, expired, none⟩, log := .returned t.id none :: s.log }
  | ended (now : ℤ) : s.batch = some ⟨now, [], none⟩ →
      Taken s .finish { s with batch := none, log := .ended :: s.log }

variable {s s' : TimerLoop κ} {i : TimerInput κ} {id : TimerId}
  {h : List (TransitionSystem.Step (TimerLoop κ) (TimerInput κ))}

theorem taken_of_step (taken : s.step i = some s') : Taken s i s' := by
  cases i with
  | runAfter now sec cb =>
    obtain ⟨later, same⟩ := Option.ite_none_right_eq_some.mp taken
    obtain rfl := Option.some.inj same
    exact .after now sec cb later
  | runEvery now sec cb =>
    obtain ⟨later, same⟩ := Option.ite_none_right_eq_some.mp taken
    obtain rfl := Option.some.inj same
    exact .every now sec cb later
  | cancel id =>
    obtain rfl := Option.some.inj taken
    exact .cancelled id
  | processExpired now expired =>
    obtain ⟨⟨idle, later, due, -⟩, same⟩ := Option.ite_none_right_eq_some.mp taken
    obtain rfl := Option.some.inj same
    exact .began now expired (Option.isNone_iff_eq_none.mp idle) later due
  | next =>
    simp only [step, next] at taken
    split at taken
    · next now t expired here =>
      split at taken
      · next mark =>
        obtain rfl := Option.some.inj taken
        exact .skipped now t expired here mark
      · next mark =>
        obtain rfl := Option.some.inj taken
        exact .ran now t expired _ here mark rfl
    · cases taken
  | returns =>
    simp only [step, returns] at taken
    split at taken
    · next now expired t cb here =>
      split at taken
      · next again =>
        obtain rfl := Option.some.inj taken
        exact .rearmed now t expired cb here again.1 again.2
      · next last =>
        obtain rfl := Option.some.inj taken
        exact .retired now t expired cb here last
    · cases taken
  | finish =>
    simp only [step, finish] at taken
    split at taken
    · next now here =>
      obtain rfl := Option.some.inj taken
      exact .ended now here
    · cases taken

/-! ## The log -/

/-- What a call is told in the log as: a timer is started, or a call of `processExpiredTimers`
begins or ends. -/
def told (s : TimerLoop κ) : TimerInput κ → List (TimerEvent κ)
  | .runAfter now sec cb => [.created s.nextTimerId (now + sec.ns) .zero cb]
  | .runEvery now sec cb => [.created s.nextTimerId (now + sec.ns) sec cb]
  | .processExpired now _ => [.began now]
  | .finish => [.ended]
  | .cancel _ | .next | .returns => []

theorem told_of_taken (taken : Taken s i s') :
    s'.log.filter TimerEvent.isCall = s.told i ++ s.log.filter TimerEvent.isCall := by
  cases taken with
  | ran now t expired cb here mark looked => cases cb <;> rfl
  | _ => rfl

/-- The log has of these events those that the calls are told as, in their order. -/
theorem told_of_run (run : machine.Run h s) :
    s.log.filter TimerEvent.isCall = h.flatMap fun t => t.pre.told t.input := by
  induction run with
  | start first =>
    obtain ⟨clock, rfl⟩ := first
    rfl
  | next _ taken ih => rw [told_of_taken (taken_of_step taken), ih, List.flatMap_cons]

/-! ## Ids -/

theorem queued_of_batch {b : TimerBatch κ} (here : s.batch = some b) :
    s.queued = s.timers ++ b.expired := by
  rw [queued, expired, here]
  rfl

theorem queued_of_idle (idle : s.batch = none) : s.queued = s.timers := by
  rw [queued, expired, idle]
  exact List.append_nil _

/-- Timers expire in an order of their own. -/
theorem queued_began {now : ℤ} {expired : List Timer} (idle : s.batch = none)
    (due : expired.Perm (s.timers.filter (·.due ≤ now))) :
    (s.timers.filter (now < ·.due) ++ expired).Perm s.queued := by
  have complement :
      s.timers.filter (now < ·.due) = s.timers.filter fun t => !decide (t.due ≤ now) := by
    apply List.filter_congr
    intro t _
    rw [← decide_not]
    exact decide_eq_decide.mpr Int.not_le.symm
  rw [queued_of_idle idle, complement]
  exact ((due.append_left _).trans List.perm_append_comm).trans (List.filter_append_perm _ _)

/-- The ids of the timers that are still to expire, or to be looked at. -/
def pending (s : TimerLoop κ) : List TimerId := s.queued.map (·.id)

/-- The ids of all timers. -/
def live (s : TimerLoop κ) : List TimerId := s.running.toList.map (·.id) ++ s.pending

theorem pending_of_batch {b : TimerBatch κ} (here : s.batch = some b) :
    s.pending = s.timers.map (·.id) ++ b.expired.map (·.id) := by
  rw [pending, queued_of_batch here, List.map_append]

theorem pending_of_idle (idle : s.batch = none) : s.pending = s.timers.map (·.id) := by
  rw [pending, queued_of_idle idle]

theorem live_of_running {now : ℤ} {expired : List Timer} {t : Timer} {cb : Option κ}
    (here : s.batch = some ⟨now, expired, some (t, cb)⟩) : s.live = t.id :: s.pending := by
  rw [live, running, here]
  rfl

theorem live_of_idle (idle : s.batch = none) : s.live = s.pending := by
  rw [live, running, idle]
  rfl

theorem live_of_between {now : ℤ} {expired : List Timer}
    (here : s.batch = some ⟨now, expired, none⟩) : s.live = s.pending := by
  rw [live, running, here]
  rfl

theorem pending_began {now : ℤ} {expired : List Timer} (idle : s.batch = none)
    (due : expired.Perm (s.timers.filter (·.due ≤ now))) :
    ((s.timers.filter (now < ·.due)).map (·.id) ++ expired.map (·.id)).Perm s.pending := by
  rw [← List.map_append]
  exact (queued_began idle due).map _

/-- The ids of all timers differ and have been given. -/
structure Distinct (s : TimerLoop κ) : Prop where
  nodup : s.live.Nodup
  given : ∀ id ∈ s.live, id < s.nextTimerId

/-- A timer is new, or there was one with its id. -/
theorem live_step (taken : Taken s i s') :
    (s'.nextTimerId = s.nextTimerId + 1 ∧ s'.live.Perm (s.nextTimerId :: s.live)) ∨
      (s'.nextTimerId = s.nextTimerId ∧ s'.live.Subperm s.live) := by
  cases taken with
  | after now sec cb _ => exact .inl ⟨rfl, List.perm_middle⟩
  | every now sec cb _ => exact .inl ⟨rfl, List.perm_middle⟩
  | cancelled id => exact .inr ⟨rfl, List.Subperm.refl _⟩
  | began now expired idle _ due =>
    refine .inr ⟨rfl, ?_⟩
    rw [live_of_idle idle, live_of_between rfl, pending_of_batch rfl]
    exact (pending_began idle due).subperm
  | skipped now t expired here _ =>
    refine .inr ⟨rfl, List.Sublist.subperm ?_⟩
    rw [live_of_between here, live_of_between rfl, pending_of_batch here, pending_of_batch rfl]
    exact (List.sublist_cons_self _ _).append_left _
  | ran now t expired cb here _ _ =>
    refine .inr ⟨rfl, List.Perm.subperm ?_⟩
    rw [live_of_between here, live_of_running rfl, pending_of_batch here, pending_of_batch rfl]
    exact List.perm_middle.symm
  | rearmed now t expired cb here _ _ =>
    refine .inr ⟨rfl, List.Perm.subperm ?_⟩
    rw [live_of_running here, live_of_between rfl, pending_of_batch here, pending_of_batch rfl]
    exact List.Perm.refl _
  | retired now t expired cb here _ =>
    refine .inr ⟨rfl, List.Sublist.subperm ?_⟩
    rw [live_of_running here, live_of_between rfl, pending_of_batch here, pending_of_batch rfl]
    exact List.sublist_cons_self _ _
  | ended now here =>
    refine .inr ⟨rfl, List.Perm.subperm ?_⟩
    rw [live_of_between here, live_of_idle rfl, pending_of_batch here, pending_of_idle rfl]
    exact List.Perm.of_eq (List.append_nil _).symm

theorem Distinct.step (distinct : Distinct s) (taken : Taken s i s') : Distinct s' := by
  rcases live_step taken with ⟨next, perm⟩ | ⟨next, less⟩
  · refine ⟨perm.nodup_iff.mpr (List.nodup_cons.mpr ⟨fun old => ?_, distinct.nodup⟩), ?_⟩
    · exact Nat.lt_irrefl _ (distinct.given _ old)
    · intro id member
      rw [next]
      rcases List.mem_cons.mp (perm.mem_iff.mp member) with rfl | old
      · exact Nat.lt_succ_self _
      · exact (distinct.given id old).trans (Nat.lt_succ_self _)
  · obtain ⟨ids, perm, sublist⟩ := less
    refine ⟨perm.nodup_iff.mp (distinct.nodup.sublist sublist), fun id member => ?_⟩
    rw [next]
    exact distinct.given id (sublist.subset (perm.mem_iff.mpr member))

/-! ## Bookkeeping -/

/-- Between calls of `processExpiredTimers`, the cancelled ids are in the heap, and the callbacks
are those of the timers in the heap that are not cancelled. -/
structure Tidy (s : TimerLoop κ) : Prop where
  canceled : ∀ id ∈ s.canceled, ∃ t ∈ s.timers, t.id = id
  timerCbs : ∀ id, (s.timerCbs.lookup id).isSome ↔
    (∃ t ∈ s.timers, t.id = id) ∧ id ∉ s.canceled

/-- What is cancelled is in the heap, or has been taken from it and is not looked at yet. -/
def CancelsPending (t : TransitionSystem.Step (TimerLoop κ) (TimerInput κ)) : Prop :=
  ∀ id, t.input = .cancel id → id ∈ t.pre.pending

/-- What the set and the map hold, in terms of the ids that are still to be looked at. -/
structure Accounts (pending : List TimerId) (canceled : Finset TimerId)
    (timerCbs : UnorderedMap TimerId (Option κ)) : Prop where
  marked : ∀ id ∈ canceled, id ∈ pending
  stored : ∀ id, (timerCbs.lookup id).isSome ↔ id ∈ pending ∧ id ∉ canceled

namespace Accounts

variable {ids ids' : List TimerId} {canceled : Finset TimerId}
  {timerCbs : UnorderedMap TimerId (Option κ)}

theorem perm (accounts : Accounts ids canceled timerCbs) (same : ids'.Perm ids) :
    Accounts ids' canceled timerCbs where
  marked id mark := same.mem_iff.mpr (accounts.marked id mark)
  stored id := by rw [same.mem_iff]; exact accounts.stored id

/-- A timer starts, or starts again. -/
theorem add (accounts : Accounts ids canceled timerCbs) (unmarked : id ∉ canceled)
    (cb : Option κ) : Accounts (id :: ids) canceled (timerCbs.insert id cb) := by
  refine ⟨fun id' mark => List.mem_cons_of_mem _ (accounts.marked id' mark), fun id' => ?_⟩
  rw [UnorderedMap.lookup_insert, List.mem_cons]
  split
  · next same => simp [same, unmarked]
  · next other =>
    rw [accounts.stored]
    simp [other]

theorem cancel (accounts : Accounts ids canceled timerCbs) (there : id ∈ ids) :
    Accounts ids (insert id canceled) (timerCbs.erase id) := by
  refine ⟨fun id' mark => ?_, fun id' => ?_⟩
  · rcases Finset.mem_insert.mp mark with rfl | before
    · exact there
    · exact accounts.marked id' before
  · rw [UnorderedMap.lookup_erase, Finset.mem_insert]
    split
    · next same => simp [same]
    · next other =>
      rw [accounts.stored]
      simp [other]

/-- A timer has been looked at. -/
theorem drop (accounts : Accounts (id :: ids) canceled timerCbs) (last : id ∉ ids) :
    Accounts ids (canceled.erase id) (timerCbs.erase id) := by
  refine ⟨fun id' mark => ?_, fun id' => ?_⟩
  · obtain ⟨other, mark⟩ := Finset.mem_erase.mp mark
    exact (List.mem_cons.mp (accounts.marked id' mark)).resolve_left other
  · rw [UnorderedMap.lookup_erase, Finset.mem_erase]
    split
    · next same => simp [same, last]
    · next other =>
      rw [accounts.stored, List.mem_cons]
      simp [other]

end Accounts

/-- What a step that cancels only what is pending does to the accounts. -/
theorem Accounts.step (accounts : Accounts s.pending s.canceled s.timerCbs)
    (distinct : Distinct s) (taken : Taken s i s')
    (pending : ∀ id, i = .cancel id → id ∈ s.pending) :
    Accounts s'.pending s'.canceled s'.timerCbs := by
  have unmarked : s.nextTimerId ∉ s.canceled := fun mark =>
    Nat.lt_irrefl _ (distinct.given _ (List.mem_append_right _ (accounts.marked _ mark)))
  cases taken with
  | after now sec cb _ => exact accounts.add unmarked (some cb)
  | every now sec cb _ => exact accounts.add unmarked (some cb)
  | cancelled id => exact accounts.cancel (pending id rfl)
  | began now expired idle _ due =>
    apply accounts.perm
    rw [pending_of_batch rfl]
    exact pending_began idle due
  | skipped now t expired here _ =>
    have nodup := distinct.nodup
    rw [live_of_between here, pending_of_batch here] at nodup
    rw [pending_of_batch here] at accounts
    rw [pending_of_batch rfl]
    exact (accounts.perm List.perm_middle.symm).drop
      (List.nodup_cons.mp (List.perm_middle.nodup_iff.mp nodup)).1
  | ran now t expired cb here mark _ =>
    have nodup := distinct.nodup
    rw [live_of_between here, pending_of_batch here] at nodup
    rw [pending_of_batch here] at accounts
    rw [pending_of_batch rfl]
    have dropped := (accounts.perm List.perm_middle.symm).drop
      (List.nodup_cons.mp (List.perm_middle.nodup_iff.mp nodup)).1
    rw [Finset.erase_eq_of_notMem mark] at dropped
    exact dropped
  | rearmed now t expired cb here _ mark =>
    rw [pending_of_batch here] at accounts
    rw [pending_of_batch rfl]
    exact accounts.add mark cb
  | retired now t expired cb here _ =>
    rw [pending_of_batch here] at accounts
    rw [pending_of_batch rfl]
    exact accounts
  | ended now here =>
    rw [pending_of_batch here] at accounts
    rw [pending_of_idle rfl]
    exact accounts.perm (List.Perm.of_eq (List.append_nil _).symm)

/-- If only pending timers are cancelled, the bookkeeping is tidy whenever no timers expire. -/
theorem tidy_of_run (run : machine.Run h s) (steps : ∀ t ∈ h, CancelsPending t)
    (idle : s.batch = none) : Tidy s := by
  -- a cancellation that comes too late would leave its mark behind
  have accounts : Distinct s ∧ Accounts s.pending s.canceled s.timerCbs := by
    refine run.invariant_where (C := CancelsPending)
      (I := fun s => Distinct s ∧ Accounts s.pending s.canceled s.timerCbs) ?_ ?_ steps
    · rintro _ ⟨clock, rfl⟩
      refine ⟨⟨List.nodup_nil, fun id member => by cases member⟩, ?_, ?_⟩
      · intro id mark
        exact absurd mark (Finset.notMem_empty id)
      · intro id
        exact iff_of_false Bool.false_ne_true fun there => by cases there.1
    · rintro ⟨s, i, s'⟩ step cancels ⟨distinct, accounts⟩
      have taken := taken_of_step step
      exact ⟨distinct.step taken, accounts.step distinct taken cancels⟩
  have inHeap (id : TimerId) : id ∈ s.pending ↔ ∃ t ∈ s.timers, t.id = id := by
    rw [pending_of_idle idle, List.mem_map]
  constructor
  · intro id mark
    exact (inHeap id).mp (accounts.2.marked id mark)
  · intro id
    rw [← inHeap]
    exact accounts.2.stored id

/-! ## What is left behind -/

/-- The id of a timer that is gone is among the cancelled ones. -/
structure Stale (s : TimerLoop κ) (id : TimerId) : Prop where
  marked : id ∈ s.canceled
  gone : id ∉ s.live
  given : id < s.nextTimerId

theorem Stale.step (stale : Stale s id) (taken : Taken s i s') : Stale s' id := by
  have others : id ∉ s'.live ∧ id < s'.nextTimerId := by
    rcases live_step taken with ⟨next, perm⟩ | ⟨next, less⟩
    · rw [perm.mem_iff, List.mem_cons, not_or, next]
      exact ⟨⟨stale.given.ne, stale.gone⟩, stale.given.trans (Nat.lt_succ_self _)⟩
    · rw [next]
      exact ⟨fun member => stale.gone (less.subset member), stale.given⟩
  refine ⟨?_, others.1, others.2⟩
  cases taken with
  | cancelled id' => exact Finset.mem_insert_of_mem stale.marked
  | skipped now t expired here mark =>
    -- The timer that is dropped has another id.
    refine Finset.mem_erase.mpr ⟨fun same => stale.gone ?_, stale.marked⟩
    rw [live_of_between here, pending_of_batch here, same]
    simp
  | _ => exact stale.marked

/-- What was cancelled too late stays for good. -/
theorem stale_of_run {later earlier : List (TransitionSystem.Step (TimerLoop κ) (TimerInput κ))}
    {t : TransitionSystem.Step (TimerLoop κ) (TimerInput κ)}
    (run : machine.Run (later ++ t :: earlier) s) (stale : Stale t.post id) : Stale s id :=
  run.since (C := fun _ => True) (I := fun _ s => Stale s id) (fun _ _ => trivial) stale
    fun _ _ _ taken _ stale => stale.step (taken_of_step taken)

/-- Whether a cancelled id has been given. -/
def cancelsGiven (s : TimerLoop κ) : TimerInput κ → Bool
  | .cancel id => 0 < id && id < s.nextTimerId
  | _ => true

/-- Whether a cancelled id is pending. -/
def cancelsPending (s : TimerLoop κ) : TimerInput κ → Bool
  | .cancel id => id ∈ s.pending
  | _ => true

/-- A timer fires and is cancelled afterwards, as the timer of a call is when the call ends. -/
def lateCancel : List (TimerInput ℕ) :=
  [.runAfter 10 ⟨5, true, by decide⟩ 0, .processExpired 15 [⟨15, .zero, 1⟩], .next, .returns,
    .finish, .cancel 1]

/-- Its id stays in the set, though it is not in the heap. -/
theorem late_cancel_leaks :
    ¬ ∀ (h : List (TransitionSystem.Step (TimerLoop ℕ) (TimerInput ℕ))) (s : TimerLoop ℕ),
      machine.Run h s → (∀ t ∈ h, cancelsGiven t.pre t.input = true) → s.batch = none → Tidy s := by
  intro tidy
  obtain ⟨h, s, run, given, reached⟩ := machine.exists_run lateCancel cancelsGiven
    (fun s => s.batch.isNone && s.timers.isEmpty && decide (1 ∈ s.canceled)) ⟨0, rfl⟩ (by decide)
  simp only [Bool.and_eq_true, Option.isNone_iff_eq_none, List.isEmpty_iff, decide_eq_true_eq]
    at reached
  obtain ⟨⟨idle, empty⟩, marked⟩ := reached
  obtain ⟨t, member, -⟩ := (tidy h s run given idle).canceled 1 marked
  rw [empty] at member
  cases member

/-- The same timer is cancelled before it is due: nothing is left of it. -/
theorem early_cancel_is_tidy :
    ∃ s : TimerLoop ℕ, s.nextTimerId = 2 ∧ s.timers = [] ∧ Tidy s := by
  obtain ⟨h, s, run, cancels, reached⟩ := machine.exists_run
    [.runAfter 10 ⟨5, true, by decide⟩ 0, .cancel 1, .processExpired 15 [⟨15, .zero, 1⟩], .next,
      .finish]
    cancelsPending (fun s => s.batch.isNone && s.timers.isEmpty && decide (s.nextTimerId = 2))
    ⟨0, rfl⟩ (by decide)
  simp only [Bool.and_eq_true, Option.isNone_iff_eq_none, List.isEmpty_iff, decide_eq_true_eq]
    at reached
  obtain ⟨⟨idle, empty⟩, next⟩ := reached
  refine ⟨s, next, empty, tidy_of_run run (fun t member id here => ?_) idle⟩
  have checked := cancels t member
  rw [here] at checked
  exact of_decide_eq_true checked

end TimerLoop

end Perfacet
