import Perfacet.Pipeline.Resources

/-!
# One answer per request

A request that was received is in one of five places: answered, thrown back, in a queue,
owned by a call that has not responded, or in the hand of the running code. Moves carry it
from place to place and neither lose nor copy it.

## Main results

* `Settled.move` — the account of every request stays balanced
-/

namespace Perfacet

variable {env : Env} {P : Promise} {hand : Hand} {k k' : Core} {rid : ℕ}

def PipelineEvent.isAnswer (rid : ℕ) : PipelineEvent → Bool
  | .answered rid' _ => decide (rid' = rid)
  | _ => false

def PipelineEvent.isThrow (rid : ℕ) : PipelineEvent → Bool
  | .threw rid' => decide (rid' = rid)
  | _ => false

/-- How often a request was answered. -/
def answersTo (rid : ℕ) (log : List PipelineEvent) : ℕ := log.countP (PipelineEvent.isAnswer rid)

/-- How often the handling of a request ended with an exception. -/
def throwsOf (rid : ℕ) (log : List PipelineEvent) : ℕ := log.countP (PipelineEvent.isThrow rid)

/-- What the running code owes a request. -/
def Hand.owes (rid : ℕ) : Hand → ℕ
  | .request rid' => (decide (rid' = rid)).toNat
  | .waiting w => (decide (w.onDone.rid = rid)).toNat
  | _ => 0

/-- What a call owes a request. -/
def Call.owes (rid : ℕ) (call : Call) : ℕ :=
  (decide (call.onDone.rid = rid) && !call.responded).toNat

namespace Core

/-- The places in which a request is. -/
def places (k : Core) (rid : ℕ) : ℕ :=
  answersTo rid k.log + throwsOf rid k.log +
    LocalGovernor.waiting (fun w => decide (w.onDone.rid = rid)) k.gov +
    UnorderedMap.total (fun _ call => call.owes rid) k.calls + k.hand.owes rid

/-- Every request that was received is in one place. -/
def Settled (k : Core) : Prop := ∀ rid, k.places rid = (decide (rid < k.nextRequest)).toNat

end Core

theorem toNat_decide (p : Prop) [Decidable p] : (decide p).toNat = if p then 1 else 0 := by
  split <;> simp [*]

/-- An act of a call pays what it owes, or nothing. -/
theorem Call.Act.owes {c : ℕ} {call call' : Call} {events : List PipelineEvent}
    {frames : List PipelineFrame} (act : call.Act env P hand c call' events frames) (rid : ℕ) :
    answersTo rid events + throwsOf rid events + call'.owes rid = call.owes rid := by
  cases act with
  | respond r silent =>
    simp [answersTo, throwsOf, Call.owes, PipelineEvent.isAnswer, PipelineEvent.isThrow, silent,
      toNat_decide, List.countP_cons]
  | _ => exact Nat.zero_add _

namespace Core

@[simp] theorem answersTo_append (rid : ℕ) (new old : List PipelineEvent) :
    answersTo rid (new ++ old) = answersTo rid new + answersTo rid old := List.countP_append

@[simp] theorem throwsOf_append (rid : ℕ) (new old : List PipelineEvent) :
    throwsOf rid (new ++ old) = throwsOf rid new + throwsOf rid old := List.countP_append

theorem answersTo_cons (rid : ℕ) (e : PipelineEvent) (log : List PipelineEvent) :
    answersTo rid (e :: log) = (e.isAnswer rid).toNat + answersTo rid log := by
  rw [answersTo, List.countP_cons, Nat.add_comm]
  cases e.isAnswer rid <;> rfl

theorem throwsOf_cons (rid : ℕ) (e : PipelineEvent) (log : List PipelineEvent) :
    throwsOf rid (e :: log) = (e.isThrow rid).toNat + throwsOf rid log := by
  rw [throwsOf, List.countP_cons, Nat.add_comm]
  cases e.isThrow rid <;> rfl

theorem places_launched {w : Waiting} {summary : String} {now : UInt64} {call : Call}
    {frames : List PipelineFrame} {events : List PipelineEvent} (holds : k.hand = .waiting w)
    (new : k.calls.lookup k.nextCall = none) (rid : ℕ) (silent : answersTo rid events = 0)
    (returned : throwsOf rid events = 0)
    (owes : call.owes rid = (decide (w.onDone.rid = rid)).toNat) :
    (k.launched env w summary now call frames events).places rid = k.places rid := by
  have more := UnorderedMap.total_insert_new (f := fun _ call => call.owes rid) (v := call) new
  simp only [places, launched, holds, Hand.owes, answersTo_append, throwsOf_append,
    answersTo_cons, throwsOf_cons, silent, returned, more, LocalGovernor.waiting_take, owes,
    PipelineEvent.isAnswer, PipelineEvent.isThrow, Bool.toNat_false]
  omega

/-- Only receiving a request opens an account. -/
theorem places_move (m : k.Move env P k') (new : k.calls.lookup k.nextCall = none) (rid : ℕ) :
    k'.places rid + (decide (rid < k.nextRequest)).toNat =
      k.places rid + (decide (rid < k'.nextRequest)).toNat := by
  cases m with
  | receive req empty =>
    -- a request that is received moves from the ones to come to the hand
    have counted : (decide (k.nextRequest = rid)).toNat + (decide (rid < k.nextRequest)).toNat =
        (decide (rid < k.nextRequest + 1)).toNat := by
      simp only [toNat_decide]
      split_ifs <;> omega
    simp only [places, empty, Hand.owes, answersTo_cons, throwsOf_cons, PipelineEvent.isAnswer,
      PipelineEvent.isThrow, Bool.toNat_false]
    omega
  | answer rid' r holds | throw rid' holds | turnAway w r holds | refuse w r holds =>
    simp only [places, holds, Hand.owes, answersTo_cons, throwsOf_cons, PipelineEvent.isAnswer,
      PipelineEvent.isThrow, Bool.toNat_false]
    first
      | omega
      | rw [LocalGovernor.waiting_releaseSlot, LocalGovernor.waiting_take]
        omega
  | accept w holds => simp only [places, holds, Hand.owes]
  | enqueue w deadline holds =>
    simp only [places, holds, Hand.owes, LocalGovernor.waiting_enqueue]
    omega
  | dequeue ts l₁ w l₂ empty split =>
    have fewer := LocalGovernor.waiting_unqueue (fun w => decide (w.onDone.rid = rid)) split
    simp only [places, empty, Hand.owes]
    omega
  | reject ts l₁ w l₂ r split =>
    have fewer := LocalGovernor.waiting_unqueue (fun w => decide (w.onDone.rid = rid)) split
    simp only [places, answersTo_cons, throwsOf_cons, PipelineEvent.isAnswer,
      PipelineEvent.isThrow, Bool.toNat_false]
    omega
  | launch w summary now t0 delay upTrace call holds built =>
    subst built
    rw [places_launched holds new rid rfl rfl
      (by simp [Call.owes, PipelineState.newCall, Call.fired])]
    rfl
  | launchAbsent w summary now t0 r call holds built =>
    subst built
    rw [places_launched holds new rid rfl rfl (by simp [Call.owes, PipelineState.newCall]; rfl)]
    rfl
  | act c call call' events frames stored act =>
    -- a call that responds owes nothing any more
    have changed := UnorderedMap.total_insert_of_lookup
      (f := fun _ call => call.owes rid) (v := call') stored
    have paid := act.owes rid
    simp only [places, answersTo_append, throwsOf_append]
    omega
  | attach c call taskId stored =>
    have changed := UnorderedMap.total_insert_of_lookup
      (f := fun _ call => call.owes rid) (v := { call with taskId := taskId }) stored
    simp only [places]
    simp only [Call.owes] at changed ⊢
    omega
  | destroy c call below top stored responded last =>
    have fewer := UnorderedMap.total_erase (f := fun _ call => call.owes rid) stored
    have paid : call.owes rid = 0 := by simp [Call.owes, responded]
    change _ = _ + (decide (rid < k.nextRequest)).toNat
    simp only [places, destroyed, answersTo_cons, throwsOf_cons, PipelineEvent.isAnswer,
      PipelineEvent.isThrow, Bool.toNat_false, LocalGovernor.waiting_releaseSlot]
    omega
  | tools backend names =>
    simp only [places, LocalGovernor.waiting_onToolsListed]
  | absentOutcome c call r below again =>
    simp only [places, answersTo_cons, throwsOf_cons, PipelineEvent.isAnswer,
      PipelineEvent.isThrow, Bool.toNat_false, Nat.zero_add]
  | stop empty =>
    simp only [places, empty, Hand.owes, answersTo_cons, throwsOf_cons, PipelineEvent.isAnswer,
      PipelineEvent.isThrow, Bool.toNat_false, Nat.zero_add]
  | stopped stopping => simp only [places, stopping, Hand.owes]
  | tick | mark | pop => rfl

theorem Settled.move (m : k.Move env P k') (new : k.calls.lookup k.nextCall = none)
    (h : k.Settled) : k'.Settled := by
  intro rid
  have same := places_move m new rid
  have before := h rid
  omega

end Core

end Perfacet
