import Perfacet.Govern.Accounting

/-!
# Lost wake-ups

A waiter needs a slot of its tool and one of its principal. A returned slot makes the
governor look at one queue, that of the tool, and let one waiter go. So a waiter at the
front of its queue can be left behind with both slots free: by a return that frees a slot
of its principal on another tool, behind another waiter that is let go while there is room
for both, behind a waiter that times out, and when a tool list changes the limits.

These four are all there is. A run without them never leaves a front waiter behind.

## Main results

* `GovernorState.Awake.step` — a step that leaves nobody behind keeps every front waiter
  that could go within reach of an unfinished retry
* `no_lost_wakeup` — in a run of such steps nobody waits while both slots are free
* `wakeup_lost` — a run after which somebody does
-/

namespace Perfacet

namespace LocalGovernor

variable {κ : Type} {g : LocalGovernor κ} {ts ts' agent a : String} {key : ToolKey}

/-- The waiter at the front of a queue could be admitted. -/
def Ready (g : LocalGovernor κ) (ts : String) : Prop :=
  ∃ w rest, g.queue ts = w :: rest ∧ g.canTake ts w.who.agentId = true

theorem canTake_of_take (free : (g.take ts a).canTake ts' agent = true) :
    g.canTake ts' agent = true := by
  rw [canTake_iff, toolHeld_take, agentHeld_take] at free
  rw [canTake_iff]
  obtain ⟨tool, principal⟩ := free
  refine ⟨Int.lt_of_le_of_lt ?_ tool, Int.lt_of_le_of_lt ?_ principal⟩
  · split
    · next same => rw [same]; omega
    · exact Int.le_refl _
  · split
    · next same => rw [same]; omega
    · exact Int.le_refl _

/-- Taking a slot makes no other waiter ready. -/
theorem Ready.of_take (ready : (g.take ts a).Ready ts') : g.Ready ts' := by
  obtain ⟨w, rest, front, free⟩ := ready
  exact ⟨w, rest, front, canTake_of_take free⟩

/-- A new waiter at the back is not ready, and changes nothing for the front. -/
theorem Ready.of_enqueue {who : Principal} {deadline : UInt64} {cb : κ}
    (full : g.canTake key.str who.agentId = false)
    (ready : (g.enqueue who key deadline cb).Ready ts) : g.Ready ts := by
  obtain ⟨w, rest, front, free⟩ := ready
  change g.canTake ts w.who.agentId = true at free
  rw [queue_enqueue] at front
  split at front
  · next same =>
    cases old : g.queue ts with
    | nil =>
      rw [old] at front
      cases front
      rw [same, full] at free
      cases free
    | cons first others =>
      rw [old] at front
      cases front
      exact ⟨w, others, old, free⟩
  · exact ⟨w, rest, front, free⟩

/-- Removing a waiter leaves the other queues as they are. -/
theorem Ready.of_unqueue {w : Waiter κ} {rest : List (Waiter κ)} (other : ts' ≠ ts)
    (ready : (g.unqueue ts w rest).Ready ts') : g.Ready ts' := by
  obtain ⟨first, others, front, free⟩ := ready
  rw [queue_unqueue, if_neg other] at front
  exact ⟨first, others, front, free⟩

/-- A returned slot makes ready only waiters of its tool, and those that waited for nothing
but a slot of its principal. -/
theorem Ready.of_releaseSlot (other : ts ≠ key.str) (ready : (g.releaseSlot key a).Ready ts) :
    g.Ready ts ∨ ∃ w rest, g.queue ts = w :: rest ∧ w.who.agentId = a ∧
      g.toolHeld ts < g.toolLimit ts ∧ g.agentHeld a = g.cfg.perPrincipalConcurrency := by
  obtain ⟨w, rest, front, free⟩ := ready
  rw [canTake_iff, toolHeld_releaseSlot, if_neg fun both => other both.1,
    agentHeld_releaseSlot] at free
  obtain ⟨tool, principal⟩ := free
  change g.toolHeld ts < g.toolLimit ts at tool
  change _ < g.cfg.perPrincipalConcurrency at principal
  by_cases fits : g.agentHeld w.who.agentId < g.cfg.perPrincipalConcurrency
  · exact .inl ⟨w, rest, front, canTake_iff.mpr ⟨tool, fits⟩⟩
  · right
    split at principal
    · next same =>
      refine ⟨w, rest, front, same.1, tool, ?_⟩
      rw [same.1] at fits
      omega
    · exact absurd principal fits

end LocalGovernor

/-- An unfinished call that will look at the queue of a tool again. -/
def Frame.retries (ts : String) : Frame → Prop
  | .dequeue toolStr => toolStr = ts
  | .rejectAll tools => ts ∈ tools
  | _ => False

namespace GovernorState

variable {s s' : GovernorState} {input : GovernorInput} {ts : String}

/-- Some unfinished call will look at the queue of a tool again. -/
def Retrying (stack : List Frame) (ts : String) : Prop := ∃ f ∈ stack, f.retries ts

theorem Retrying.push {stack : List Frame} {f : Frame} (retry : Retrying stack ts) :
    Retrying (f :: stack) ts := by
  obtain ⟨g, member, again⟩ := retry
  exact ⟨g, List.mem_cons_of_mem _ member, again⟩

theorem Retrying.pop {stack : List Frame} {f : Frame} (retry : Retrying (f :: stack) ts)
    (other : ¬ f.retries ts) : Retrying stack ts := by
  obtain ⟨g, member, again⟩ := retry
  rcases List.mem_cons.mp member with rfl | member
  · exact absurd again other
  · exact ⟨g, member, again⟩

/-- Who could be admitted is about to be looked at. -/
def Awake (s : GovernorState) : Prop := ∀ ts, s.gov.Ready ts → Retrying s.stack ts

/-! ## The steps that leave somebody behind -/

/-- No waiter at the front of another tool's queue waits only for the principal's slot that
the permit `i` gives back. -/
def OnlyItsTool (s : GovernorState) (i : Impl) : Prop :=
  ∀ ts w rest, ts ≠ i.key.str → s.gov.queue ts = w :: rest → w.who.agentId = i.agentId →
    s.gov.toolHeld ts < s.gov.toolLimit ts →
    s.gov.agentHeld i.agentId ≠ s.gov.cfg.perPrincipalConcurrency

/-- The waiter `next` does not fit in beside `w`, which is let go before it. -/
def NoRoomBeside (s : GovernorState) (ts : String) (w next : Waiter ℕ) : Prop :=
  s.gov.toolHeld ts + 1 < s.gov.toolLimit ts →
    s.gov.cfg.perPrincipalConcurrency ≤ s.gov.agentHeld next.who.agentId +
      if next.who.agentId = w.who.agentId then 1 else 0

/-- The step leaves nobody behind who could go: neither by a return that concerns another
tool, nor behind a waiter that is let go or times out, nor by new limits. -/
def LeavesNobody (s : GovernorState) : GovernorInput → Prop
  | .assign dst _ => ∀ i, s.impl dst = some (some i) → i.held = true → s.OnlyItsTool i
  | .destroy name => ∀ i, s.impl (.user name) = some (some i) → i.held = true → s.OnlyItsTool i
  | .ret => ∀ v below i, s.stack = .body v :: below → s.impl v = some (some i) →
      i.held = true → s.OnlyItsTool i
  | .run now => ∀ ts below w next rest, s.stack = .dequeue ts :: below →
      s.gov.queue ts = w :: next :: rest → s.gov.canTake ts w.who.agentId = true →
      now < w.deadlineMs → s.NoRoomBeside ts w next ∨ Retrying below ts
  -- the waiter behind the one that times out must not fit
  | .timer id => ∀ ts w next rest, s.gov.queue ts = w :: next :: rest → w.timer = id →
      s.gov.canTake ts next.who.agentId = false
  | .toolsListed backend tools => ∀ ts w rest, s.gov.queue ts = w :: rest →
      (s.gov.onToolsListed backend tools).canTake ts w.who.agentId = true →
      s.gov.canTake ts w.who.agentId = true
  | _ => True

private theorem awake_release (awake : s.Awake) {i : Impl} {stack : List Frame}
    (only : s.OnlyItsTool i) (kept : ∀ ts, Retrying s.stack ts → Retrying stack ts) (ts : String)
    (ready : (s.gov.releaseSlot i.key i.agentId).Ready ts) :
    Retrying (.dequeue i.key.str :: stack) ts := by
  by_cases here : ts = i.key.str
  · exact ⟨_, List.mem_cons_self, here.symm⟩
  · rcases LocalGovernor.Ready.of_releaseSlot here ready with before |
      ⟨w, rest, front, same, tool, full⟩
    · exact (kept ts (awake ts before)).push
    · exact absurd full (only ts w rest here front same tool)

private theorem retrying_drops {v : Var} {stack : List Frame} (drops : s.Drops input v stack)
    (ts : String) (retry : Retrying s.stack ts) : Retrying stack ts := by
  rcases drops with ⟨-, -, -, rfl⟩ | ⟨-, top⟩
  · exact retry
  · rw [top] at retry
    exact retry.pop id

/-- A step that leaves nobody behind keeps every front waiter that could go within reach of
an unfinished retry. -/
theorem Awake.step (awake : s.Awake) (queues : s.Queueing) (e : Effect s input s')
    (nobody : s.LeavesNobody input) : s'.Awake := by
  cases e with
  | declare | construct | assignSelf => exact awake
  | assignFree => exact fun ts ready => (awake ts ready).push
  -- a slot that is given back starts a retry for its own tool only
  | assignHeld apart target held =>
    exact awake_release awake (nobody _ target held) fun ts retry => retry.push
  | dropFree drops => exact fun ts ready => retrying_drops drops ts (awake ts ready)
  | dropHeld drops target held =>
    refine awake_release awake ?_ (retrying_drops drops)
    rcases drops with ⟨name, rfl, rfl, -⟩ | ⟨rfl, top⟩
    · exact nobody _ target held
    · exact nobody _ _ _ top target held
  | acquireGo => exact fun ts ready => (awake ts ready.of_take).push
  | acquireQueued full => exact fun ts ready => awake ts (ready.of_enqueue full)
  | acquireReject => exact fun ts ready => (awake ts ready).push
  | toolsListed =>
    rintro ts ⟨w, rest, front, free⟩
    exact awake ts ⟨w, rest, front, nobody ts w rest front free⟩
  | rejectAll => exact fun ts ready => (awake ts ready).push
  | timer idle fired =>
    obtain ⟨ts, l₁, w, l₂, split, rfl, rfl⟩ := LocalGovernor.expire_cases queues.queues fired
    -- nothing is running, so there is no retry and nobody is ready
    have nobodyReady : ∀ ts, ¬ s.gov.Ready ts := by
      intro ts ready
      obtain ⟨f, member, -⟩ := awake ts ready
      rw [idle] at member
      cases member
    intro ts' ready
    by_cases here : ts' = ts
    · subst here
      obtain ⟨first, others, front, free⟩ := ready
      change (s.gov.unqueue ts' w (l₁ ++ l₂)).queue ts' = _ at front
      rw [LocalGovernor.queue_unqueue, if_pos rfl] at front
      change s.gov.canTake ts' first.who.agentId = true at free
      -- the front changes only if the waiter that is gone was in front
      cases l₁ with
      | nil =>
        rw [List.nil_append] at front
        rw [front, List.nil_append] at split
        rw [nobody ts' w first others split rfl] at free
        cases free
      | cons =>
        cases front
        exact absurd ⟨first, _, split, free⟩ (nobodyReady ts')
    · exact absurd (ready.of_unqueue here) (nobodyReady ts')
  | stop top blocked =>
    intro ts' ready
    -- the retry is over, because the front waiter does not fit
    have retry := awake ts' ready
    rw [top] at retry
    refine retry.pop fun same => ?_
    obtain rfl : _ = ts' := same
    obtain ⟨w, rest, front, free⟩ := ready
    rw [blocked w rest front] at free
    cases free
  | @dequeueReject _ ts _ w rest top front late =>
    intro ts' ready
    by_cases here : ts' = ts
    · exact ⟨.dequeue ts, List.mem_cons_of_mem _ (by rw [top]; exact List.mem_cons_self),
        here.symm⟩
    · exact (awake ts' (ready.of_unqueue here)).push
  | @dequeueGo now ts below w rest top front free early =>
    intro ts' ready
    by_cases here : ts' = ts
    · -- the next in line would have to fit in beside the one that goes
      subst here
      obtain ⟨next, others, front', free'⟩ := ready
      change ((s.gov.unqueue ts' w rest).take w.key.str w.who.agentId).queue ts' = _ at front'
      rw [LocalGovernor.queue_take, LocalGovernor.queue_unqueue, if_pos rfl] at front'
      subst front'
      have tool : w.key.str = ts' := queues.queues.key (by rw [front]; exact List.mem_cons_self)
      -- there was no room beside it, or another retry is to come
      rcases nobody ts' below w next others top front free early with noRoom | retry
      · have both := LocalGovernor.canTake_iff.mp free'
        change ((s.gov.unqueue ts' w _).take w.key.str w.who.agentId).toolHeld ts' <
          s.gov.toolLimit ts' ∧
          ((s.gov.unqueue ts' w _).take w.key.str w.who.agentId).agentHeld next.who.agentId <
          s.gov.cfg.perPrincipalConcurrency at both
        rw [tool, LocalGovernor.toolHeld_take, if_pos rfl, LocalGovernor.agentHeld_take] at both
        have room : s.gov.toolHeld ts' + 1 < s.gov.toolLimit ts' := both.1
        have full := noRoom room
        have fits := both.2
        split at full
        · next same =>
          rw [if_pos same, ← same] at fits
          change s.gov.agentHeld next.who.agentId + 1 < _ at fits
          omega
        · next other =>
          rw [if_neg other] at fits
          change s.gov.agentHeld next.who.agentId < _ at fits
          omega
      · exact retry.push
    · have retry := awake ts' (ready.of_take.of_unqueue here)
      rw [top] at retry
      exact (retry.pop fun same => here (Eq.symm same)).push
  | assignTail top target source =>
    intro ts ready
    have retry := awake ts ready
    rw [top] at retry
    exact retry.pop id
  | rejectDone top =>
    intro ts ready
    have retry := awake ts ready
    rw [top] at retry
    exact retry.pop (List.not_mem_nil)
  | @rejectNext _ ts tools below top empty =>
    intro ts' ready
    have retry := awake ts' ready
    rw [top] at retry
    obtain ⟨f, member, again⟩ := retry
    rcases List.mem_cons.mp member with rfl | member
    · rcases List.mem_cons.mp again with rfl | again
      -- the queue that is done with is empty
      · obtain ⟨w, rest, front, -⟩ := ready
        rw [show s.gov.queue ts' = [] from empty] at front
        cases front
      · exact ⟨_, List.mem_cons_self, again⟩
    · exact ⟨f, List.mem_cons_of_mem _ member, again⟩
  | @rejectHead _ ts tools below w rest top front =>
    intro ts' ready
    by_cases here : ts' = ts
    · refine ⟨_, List.mem_cons_of_mem _ (by rw [top]; exact List.mem_cons_self), ?_⟩
      rw [here]
      exact List.mem_cons_self
    · exact (awake ts' (ready.of_unqueue here)).push

theorem Awake.of_run {h : List (TransitionSystem.Step GovernorState GovernorInput)}
    (run : Governor.machine.Run h s) (nobody : ∀ t ∈ h, t.pre.LeavesNobody t.input) :
    s.Awake := by
  induction run with
  | start first =>
    obtain ⟨cfg, rfl⟩ := first
    rintro ts ⟨w, rest, front, -⟩
    cases front
  | next before step ih =>
    obtain ⟨last, earlier⟩ := List.forall_mem_cons.mp nobody
    exact (ih earlier).step (.of_run before) (step_effect step) last

end GovernorState

/-- In a run whose steps leave nobody behind, whenever no governor call is unfinished the
waiter at the front of each queue lacks a slot of its tool or one of its principal. -/
theorem no_lost_wakeup {h : List (TransitionSystem.Step GovernorState GovernorInput)}
    {s : GovernorState} (run : Governor.machine.Run h s)
    (nobody : ∀ t ∈ h, t.pre.LeavesNobody t.input) (idle : s.stack = []) {ts : String}
    {w : Waiter ℕ} {rest : List (Waiter ℕ)} (front : s.gov.queue ts = w :: rest) :
    s.gov.toolLimit ts ≤ s.gov.toolHeld ts ∨
      s.gov.cfg.perPrincipalConcurrency ≤ s.gov.agentHeld w.who.agentId := by
  -- a waiter that fits would have a retry on the stack, which is empty
  by_contra both
  rw [not_or, Int.not_le, Int.not_le] at both
  obtain ⟨f, member, -⟩ :=
    GovernorState.Awake.of_run run nobody ts
      ⟨w, rest, front, LocalGovernor.canTake_iff.mpr both⟩
  rw [idle] at member
  cases member

namespace GovernorExample

/-- The steps of `queueing`: callbacks return with their permit moved away. -/
def keeps (s : GovernorState) : GovernorInput → Bool
  | .acquire .. => true
  | .construct .. => true
  | .ret =>
    match s.stack with
    | .body v :: _ => s.impl v = some none
    | _ => true
  | _ => false

theorem leavesNobody_of_keeps {s : GovernorState} {input : GovernorInput}
    (kept : keeps s input = true) : s.LeavesNobody input := by
  cases input with
  | ret =>
    intro v below i top target
    simp only [keeps, top, decide_eq_true_eq] at kept
    rw [target] at kept
    cases kept
  | acquire | construct => trivial
  | _ => cases kept

/-- A principal at its limit waits for a second tool and gives its first slot back. -/
def stranding : List GovernorInput :=
  [.acquire (client "ann") ⟨"b", "t"⟩ 100 0, .construct 0 (.param 0), .ret,
    .acquire (client "ann") ⟨"b", "u"⟩ 100 0, .destroy 0, .run 0]

end GovernorExample

open GovernorExample in
/-- A run that leaves nobody behind, with a waiter. -/
theorem no_lost_wakeup_queueing : ∃ h s w, Governor.machine.Run h s ∧ s.stack = [] ∧
    s.gov.queue "b__t" = [w] ∧ (s.gov.toolLimit "b__t" ≤ s.gov.toolHeld "b__t" ∨
      s.gov.cfg.perPrincipalConcurrency ≤ s.gov.agentHeld w.who.agentId) := by
  obtain ⟨h, s, run, kept, reached⟩ := TransitionSystem.exists_run (M := Governor.machine)
    queueing keeps (fun s => decide (s.stack = [] ∧ (s.gov.queue "b__t").length = 1))
    (s := single) ⟨_, rfl⟩ (by decide +kernel)
  obtain ⟨idle, one⟩ := of_decide_eq_true reached
  obtain ⟨w, front⟩ := List.length_eq_one_iff.mp one
  exact ⟨h, s, w, run, idle, front,
    no_lost_wakeup run (fun t taken => leavesNobody_of_keeps (kept t taken)) idle front⟩

open GovernorExample in
/-- A run after which a waiter waits for nothing: both of its slots are free, and no call is
left that would look at its queue. -/
theorem wakeup_lost : ∃ h s w, Governor.machine.Run h s ∧ s.stack = [] ∧
    s.gov.queue "b__u" = [w] ∧ s.gov.toolHeld "b__u" < s.gov.toolLimit "b__u" ∧
      s.gov.agentHeld w.who.agentId < s.gov.cfg.perPrincipalConcurrency := by
  obtain ⟨h, s, run, -, reached⟩ := TransitionSystem.exists_run (M := Governor.machine)
    stranding (fun _ _ => true)
    (fun s => decide (s.stack = [] ∧ (s.gov.queue "b__u").length = 1 ∧
      ∀ w ∈ s.gov.queue "b__u", s.gov.canTake "b__u" w.who.agentId = true))
    (s := single) ⟨_, rfl⟩ (by decide +kernel)
  obtain ⟨idle, one, free⟩ := of_decide_eq_true reached
  obtain ⟨w, front⟩ := List.length_eq_one_iff.mp one
  obtain ⟨tool, principal⟩ :=
    LocalGovernor.canTake_iff.mp (free w (by rw [front]; exact List.mem_singleton_self w))
  exact ⟨h, s, w, run, idle, front, tool, principal⟩

end Perfacet
