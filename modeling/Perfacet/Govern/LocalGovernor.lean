import Perfacet.Policy.YamlConfig

/-!
# The governor

Admission of tool calls within one process: each tool and each principal has a number of
slots, a call that finds none free waits in the queue of its tool until a slot is returned
or its timer rejects it.

Callbacks are data here. A function that would call `onAdmit` returns what it calls it
with, and whoever models the caller runs the callback. `tryDequeue` and
`rejectAllQueued` call back in the middle of a loop, so they are given as one turn of
that loop.

## Main definitions

* `LocalGovernor` — counters, queues and the queue timers armed in the event loop
* `LocalGovernor.acquire`, `tryDequeueTurn`, `releaseSlot`, `expire`, `rejectTurn`
* `LocalGovernor.Balanced` — the counters show given numbers of held slots
* `LocalGovernor.QueuesOk` — every waiter has an armed timer of its own

## Main results

* `Balanced.take`, `Balanced.releaseSlot` — counting one slot up and down
* `QueuesOk.enqueue`, `QueuesOk.unqueue` — the two ways the queues change
* `waiting_enqueue`, `waiting_unqueue` — how they change the number of waiters
-/

namespace Perfacet

/-- A request in a queue. -/
structure Waiter (κ : Type) where
  who : Principal
  key : ToolKey
  deadlineMs : UInt64
  timer : ℕ
  cb : κ
  id : ℕ

/-- The governor with callbacks of type `κ`. `timers` are its timers in the event loop:
each holds the tool and the waiter id that the timer's lambda captured. -/
structure LocalGovernor (κ : Type) where
  cfg : YamlConfig
  permitHeld : ℤ := 0
  toolInUse : UnorderedMap String ℤ := ∅
  principalInUse : UnorderedMap String ℤ := ∅
  queues : UnorderedMap String (List (Waiter κ)) := ∅
  nextWaitId : ℕ := 1
  timers : UnorderedMap ℕ (String × ℕ) := ∅
  nextTimer : ℕ := 1

/-- What `acquire` did with the callback: called it, or put it into a queue. -/
inductive Admission
  | go | queued | reject
  deriving DecidableEq, Repr

/-- One turn of the loop in `tryDequeue`: it ends, or it calls the head's callback. -/
inductive Turn (κ : Type)
  | stop
  | reject (w : Waiter κ)
  | go (w : Waiter κ)

namespace LocalGovernor

variable {κ : Type}

/-! ## The code -/

def toolLimit (g : LocalGovernor κ) (toolStr : String) : ℤ :=
  match g.cfg.governorTools.lookup toolStr with
  | some c =>
    -- a limit counts only once its tool has been listed
    if c.status = .active ∧ 0 < c.maxConcurrency then c.maxConcurrency
    else g.cfg.perToolConcurrency
  | none => g.cfg.perToolConcurrency

def toolWaitMs (g : LocalGovernor κ) (toolStr : String) : UInt64 :=
  match g.cfg.governorTools.lookup toolStr with
  | some c => if c.status = .active ∧ 0 < c.queueWaitMs then c.queueWaitMs else g.cfg.queueWaitMs
  | none => g.cfg.queueWaitMs

/-- The slots of a tool that are in use. -/
def toolHeld (g : LocalGovernor κ) (toolStr : String) : ℤ := g.toolInUse.getD toolStr 0

/-- The slots of a principal that are in use. -/
def agentHeld (g : LocalGovernor κ) (agent : String) : ℤ := g.principalInUse.getD agent 0

def canTake (g : LocalGovernor κ) (toolStr agent : String) : Bool :=
  decide (g.toolHeld toolStr < g.toolLimit toolStr) &&
    decide (g.agentHeld agent < g.cfg.perPrincipalConcurrency)

def take (g : LocalGovernor κ) (toolStr agent : String) : LocalGovernor κ :=
  { g with
    toolInUse := g.toolInUse.increment toolStr
    principalInUse := g.principalInUse.increment agent
    permitHeld := g.permitHeld + 1 }

/-- The queue of a tool, front first. -/
def queue (g : LocalGovernor κ) (toolStr : String) : List (Waiter κ) := g.queues.getD toolStr []

/-- Arm a timer for a new waiter and put it at the back of its queue. -/
def enqueue (g : LocalGovernor κ) (who : Principal) (key : ToolKey) (deadline : UInt64)
    (onAdmit : κ) : LocalGovernor κ :=
  let ts := key.str
  let w : Waiter κ :=
    { who := who, key := key, deadlineMs := deadline, timer := g.nextTimer, cb := onAdmit,
      id := g.nextWaitId }
  { g with
    queues := g.queues.insert ts (g.queue ts ++ [w])
    nextWaitId := g.nextWaitId + 1
    timers := g.timers.insert g.nextTimer (ts, g.nextWaitId)
    nextTimer := g.nextTimer + 1 }

/-- `acquire`, with the clock reading it makes when no slot is free. -/
def acquire (g : LocalGovernor κ) (who : Principal) (key : ToolKey) (waitDeadlineMs : UInt64)
    (onAdmit : κ) (now : UInt64) : LocalGovernor κ × Admission :=
  let ts := key.str
  if g.canTake ts who.agentId then (g.take ts who.agentId, .go)
  else
    -- no deadline means that of the tool
    let deadline := if waitDeadlineMs = 0 then now + g.toolWaitMs ts else waitDeadlineMs
    if deadline ≤ now then (g, .reject) else (g.enqueue who key deadline onAdmit, .queued)

/-- Take a waiter out of a queue, leaving `rest`, and disarm its timer. -/
def unqueue (g : LocalGovernor κ) (toolStr : String) (w : Waiter κ) (rest : List (Waiter κ)) :
    LocalGovernor κ :=
  { g with queues := g.queues.insert toolStr rest, timers := g.timers.erase w.timer }

/-- One turn of the loop in `tryDequeue`; after a `go` the loop is left. -/
def tryDequeueTurn (g : LocalGovernor κ) (toolStr : String) (now : UInt64) :
    LocalGovernor κ × Turn κ :=
  match g.queue toolStr with
  | [] => (g, .stop)
  | w :: rest =>
    -- only the front waiter is asked; those behind it wait for it
    if !g.canTake toolStr w.who.agentId then (g, .stop)
    else if now ≥ w.deadlineMs then (g.unqueue toolStr w rest, .reject w)
    else ((g.unqueue toolStr w rest).take w.key.str w.who.agentId, .go w)

/-- `releaseSlot` up to its call of `tryDequeue`. -/
def releaseSlot (g : LocalGovernor κ) (key : ToolKey) (agentId : String) : LocalGovernor κ :=
  { g with
    toolInUse := g.toolInUse.decrement key.str
    principalInUse := g.principalInUse.decrement agentId
    permitHeld := g.permitHeld - 1 }

/-- A queue timer runs out: its lambda looks for the waiter by id, removes it and rejects
it. The result is `none` if there is no such timer. -/
def expire (g : LocalGovernor κ) (timer : ℕ) : Option (LocalGovernor κ × Option (Waiter κ)) :=
  match g.timers.lookup timer with
  | none => none
  | some (ts, id) =>
    -- a timer that has fired is no longer armed
    let fired := { g with timers := g.timers.erase timer }
    match (g.queue ts).find? (·.id = id) with
    | none => some (fired, none)
    | some w =>
      some ({ fired with queues := g.queues.insert ts ((g.queue ts).eraseP (·.id = id)) }, some w)

/-- A tool list of a backend decides which of its tools' limits are in force. -/
def onToolsListed (g : LocalGovernor κ) (backend : String) (tools : List String) :
    LocalGovernor κ :=
  { g with
    cfg := { g.cfg with
      governorTools := g.cfg.governorTools.mapValues fun name c =>
        match ToolKey.parse name with
        | some parsed =>
          -- the tools of other backends keep their status
          if parsed.backend ≠ backend then c
          else if tools.contains parsed.tool then { c with status := .active }
          else { c with status := .invalid }
        | none => c } }

/-- One turn of the inner loop in `rejectAllQueued`. -/
def rejectTurn (g : LocalGovernor κ) (toolStr : String) : LocalGovernor κ × Option (Waiter κ) :=
  match g.queue toolStr with
  | [] => (g, none)
  | w :: rest => (g.unqueue toolStr w rest, some w)

/-! ## What each function touches -/

variable {g : LocalGovernor κ} {ts ts' agent : String} {key : ToolKey} {who : Principal}
  {deadline now : UInt64} {cb : κ} {w w' : Waiter κ} {l₁ l₂ rest : List (Waiter κ)}

theorem canTake_iff : g.canTake ts agent = true ↔
    g.toolHeld ts < g.toolLimit ts ∧ g.agentHeld agent < g.cfg.perPrincipalConcurrency := by
  simp [canTake]

theorem toolHeld_take (ts' : String) : (g.take ts agent).toolHeld ts' =
    if ts' = ts then g.toolHeld ts + 1 else g.toolHeld ts' :=
  UnorderedMap.getD_increment ..

theorem agentHeld_take (a : String) : (g.take ts agent).agentHeld a =
    if a = agent then g.agentHeld agent + 1 else g.agentHeld a :=
  UnorderedMap.getD_increment ..

theorem toolHeld_releaseSlot (ts : String) : (g.releaseSlot key agent).toolHeld ts =
    if ts = key.str ∧ 0 < g.toolHeld key.str then g.toolHeld key.str - 1 else g.toolHeld ts :=
  UnorderedMap.getD_decrement ..

theorem agentHeld_releaseSlot (a : String) : (g.releaseSlot key agent).agentHeld a =
    if a = agent ∧ 0 < g.agentHeld agent then g.agentHeld agent - 1 else g.agentHeld a :=
  UnorderedMap.getD_decrement ..

@[simp] theorem queue_take (ts' : String) : (g.take ts agent).queue ts' = g.queue ts' := rfl

theorem queue_enqueue (ts : String) : (g.enqueue who key deadline cb).queue ts =
    if ts = key.str then
      g.queue ts ++ [⟨who, key, deadline, g.nextTimer, cb, g.nextWaitId⟩]
    else g.queue ts := by
  rw [enqueue, queue, UnorderedMap.getD_insert]
  split
  · next same => rw [same]
  · rfl

theorem queue_unqueue (ts' : String) :
    (g.unqueue ts w rest).queue ts' = if ts' = ts then rest else g.queue ts' :=
  UnorderedMap.getD_insert ..

/-- The front of a queue, written the way removals from the middle are. -/
theorem split_front (front : g.queue ts = w :: rest) : g.queue ts = [] ++ w :: rest := front

theorem mem_queue_unqueue (split : g.queue ts = l₁ ++ w :: l₂)
    (member : w' ∈ (g.unqueue ts w (l₁ ++ l₂)).queue ts') : w' ∈ g.queue ts' := by
  rw [queue_unqueue] at member
  split at member
  · next same =>
    rw [same, split]
    simp only [List.mem_append, List.mem_cons] at member ⊢
    tauto
  · exact member

theorem mem_queue_cases (split : g.queue ts = l₁ ++ w :: l₂) (member : w' ∈ g.queue ts') :
    (ts' = ts ∧ w' = w) ∨ w' ∈ (g.unqueue ts w (l₁ ++ l₂)).queue ts' := by
  rw [queue_unqueue]
  split
  · next same =>
    rw [same, split] at member
    simp only [List.mem_append, List.mem_cons] at member ⊢
    tauto
  · exact .inr member

/-! ## The three outcomes of `acquire` -/

theorem acquire_go (free : g.canTake key.str who.agentId = true) :
    g.acquire who key deadline cb now = (g.take key.str who.agentId, .go) := by
  rw [acquire, if_pos free]

/-- What `acquire` does: go, queue up to a deadline that is still to come, or reject. -/
theorem acquire_cases (g : LocalGovernor κ) (who : Principal) (key : ToolKey)
    (waitDeadlineMs : UInt64) (cb : κ) (now : UInt64) :
    (g.canTake key.str who.agentId = true ∧
      g.acquire who key waitDeadlineMs cb now = (g.take key.str who.agentId, .go)) ∨
    (g.canTake key.str who.agentId = false ∧ ∃ deadline, now < deadline ∧
      g.acquire who key waitDeadlineMs cb now = (g.enqueue who key deadline cb, .queued)) ∨
    (g.canTake key.str who.agentId = false ∧
      g.acquire who key waitDeadlineMs cb now = (g, .reject)) := by
  cases free : g.canTake key.str who.agentId with
  | true => exact .inl ⟨rfl, acquire_go free⟩
  | false =>
    rw [acquire, free]
    simp only [Bool.false_eq_true, if_false, true_and, false_and, false_or]
    generalize (if waitDeadlineMs = 0 then now + g.toolWaitMs key.str else waitDeadlineMs) = d
    by_cases past : d ≤ now
    · exact .inr (if_pos past)
    · exact .inl ⟨d, UInt64.not_le.mp past, if_neg past⟩

/-! ## The outcomes of one turn -/

/-- What a turn of `tryDequeue` does: end, or take the head out, whose slots are free. -/
theorem tryDequeueTurn_cases (g : LocalGovernor κ) (ts : String) (now : UInt64) :
    (g.tryDequeueTurn ts now = (g, .stop) ∧
      ∀ w rest, g.queue ts = w :: rest → g.canTake ts w.who.agentId = false) ∨
    ∃ w rest, g.queue ts = w :: rest ∧ g.canTake ts w.who.agentId = true ∧
      ((w.deadlineMs ≤ now ∧ g.tryDequeueTurn ts now = (g.unqueue ts w rest, .reject w)) ∨
        (now < w.deadlineMs ∧ g.tryDequeueTurn ts now =
          ((g.unqueue ts w rest).take w.key.str w.who.agentId, .go w))) := by
  unfold tryDequeueTurn
  split
  · next empty => exact .inl ⟨rfl, fun w rest h => by rw [empty] at h; cases h⟩
  · next w rest front =>
    cases free : g.canTake ts w.who.agentId with
    | false =>
      refine .inl ⟨by simp, fun w' rest' h => ?_⟩
      cases front.symm.trans h
      exact free
    | true =>
      refine .inr ⟨w, rest, front, free, ?_⟩
      by_cases late : w.deadlineMs ≤ now
      · exact .inl ⟨late, by simp [late]⟩
      · exact .inr ⟨UInt64.not_le.mp late, by simp [late]⟩

/-- What a turn of `rejectAllQueued` does: nothing to an empty queue, or take the head out. -/
theorem rejectTurn_cases (g : LocalGovernor κ) (ts : String) :
    (g.rejectTurn ts = (g, none) ∧ g.queue ts = []) ∨
    ∃ w rest, g.queue ts = w :: rest ∧ g.rejectTurn ts = (g.unqueue ts w rest, some w) := by
  unfold rejectTurn
  split
  · next empty => exact .inl ⟨rfl, empty⟩
  · next w rest front => exact .inr ⟨w, rest, front, rfl⟩

/-! ## Held slots -/

/-- The counters show how many slots are held of each tool, by each principal, in all. -/
structure Balanced (g : LocalGovernor κ) (perTool perAgent : String → ℕ) (held : ℕ) : Prop where
  tool : g.toolInUse.Counts perTool
  agent : g.principalInUse.Counts perAgent
  held : g.permitHeld = held

namespace Balanced

variable {g : LocalGovernor κ} {perTool perAgent perTool' perAgent' : String → ℕ} {held : ℕ}
  {ts a : String} {key : ToolKey}

theorem initial (cfg : YamlConfig) :
    Balanced ({ cfg := cfg } : LocalGovernor κ) (fun _ => 0) (fun _ => 0) 0 :=
  ⟨.empty, .empty, rfl⟩

theorem take (h : g.Balanced perTool perAgent held) (tool : perTool' ts = perTool ts + 1)
    (otherTool : ∀ t, t ≠ ts → perTool' t = perTool t) (agent : perAgent' a = perAgent a + 1)
    (otherAgent : ∀ a', a' ≠ a → perAgent' a' = perAgent a') :
    (g.take ts a).Balanced perTool' perAgent' (held + 1) :=
  ⟨h.tool.increment tool otherTool, h.agent.increment agent otherAgent, by
    rw [LocalGovernor.take, h.held]; push_cast; rfl⟩

theorem releaseSlot (h : g.Balanced perTool perAgent (held + 1))
    (tool : perTool' key.str + 1 = perTool key.str)
    (otherTool : ∀ t, t ≠ key.str → perTool' t = perTool t)
    (agent : perAgent' a + 1 = perAgent a)
    (otherAgent : ∀ a', a' ≠ a → perAgent' a' = perAgent a') :
    (g.releaseSlot key a).Balanced perTool' perAgent' held :=
  ⟨h.tool.decrement tool otherTool, h.agent.decrement agent otherAgent, by
    rw [LocalGovernor.releaseSlot, h.held]; push_cast; omega⟩

/-- A slot that is taken and released at once leaves no trace. -/
theorem take_releaseSlot (h : g.Balanced perTool perAgent held) :
    ((g.take key.str a).releaseSlot key a).Balanced perTool perAgent held := by
  have taken : (g.take key.str a).Balanced (fun t => perTool t + if t = key.str then 1 else 0)
      (fun a' => perAgent a' + if a' = a then 1 else 0) (held + 1) :=
    h.take (by simp) (by intro t other; simp [other]) (by simp)
      (by intro a' other; simp [other])
  refine taken.releaseSlot (by simp) ?_ (by simp) ?_
  · intro t other
    simp [other]
  · intro a' other
    simp [other]

end Balanced

/-! ## Waiters and their timers -/

/-- The queues and the queue timers belong together: a waiter sits in the queue of its
tool, ids and timers are not used twice, and the armed timers are exactly those of the
waiters. -/
structure QueuesOk (g : LocalGovernor κ) : Prop where
  key : ∀ {ts w}, w ∈ g.queue ts → w.key.str = ts
  fresh : ∀ {ts w}, w ∈ g.queue ts → w.id < g.nextWaitId
  nodup : ∀ ts, ((g.queue ts).map (·.id)).Nodup
  armed : ∀ {ts w}, w ∈ g.queue ts → g.timers.lookup w.timer = some (ts, w.id)
  timer : ∀ {n ts id}, g.timers.lookup n = some (ts, id) →
    n < g.nextTimer ∧ ∃ w ∈ g.queue ts, w.id = id ∧ w.timer = n

namespace QueuesOk

theorem initial (cfg : YamlConfig) : QueuesOk ({ cfg := cfg } : LocalGovernor κ) where
  key := fun h => by cases h
  fresh := fun h => by cases h
  nodup := fun _ => List.nodup_nil
  armed := fun h => by cases h
  timer := fun h => by cases h

/-- Only the queues, the timers and the two id counters matter. -/
theorem congr (ok : g.QueuesOk) {g' : LocalGovernor κ} (queues : g'.queues = g.queues)
    (timers : g'.timers = g.timers) (waitId : g'.nextWaitId = g.nextWaitId)
    (timer : g'.nextTimer = g.nextTimer) : g'.QueuesOk := by
  have queue : ∀ ts, g'.queue ts = g.queue ts := by
    intro ts
    rw [queue, queues, LocalGovernor.queue]
  constructor
  · intro ts w h; rw [queue] at h; exact ok.key h
  · intro ts w h; rw [queue] at h; rw [waitId]; exact ok.fresh h
  · intro ts; rw [queue]; exact ok.nodup ts
  · intro ts w h; rw [queue] at h; rw [timers]; exact ok.armed h
  · intro n ts id h; rw [timers] at h; rw [timer, queue]; exact ok.timer h

theorem take (ok : g.QueuesOk) : (g.take ts agent).QueuesOk := ok.congr rfl rfl rfl rfl

theorem releaseSlot (ok : g.QueuesOk) : (g.releaseSlot key agent).QueuesOk :=
  ok.congr rfl rfl rfl rfl

theorem onToolsListed (ok : g.QueuesOk) (backend : String) (tools : List String) :
    (g.onToolsListed backend tools).QueuesOk :=
  ok.congr rfl rfl rfl rfl

/-- The timer counter is ahead of the timers of all waiters. -/
theorem timer_lt (ok : g.QueuesOk) (h : w ∈ g.queue ts) : w.timer < g.nextTimer :=
  (ok.timer (ok.armed h)).1

/-- A timer identifies its waiter. -/
theorem eq_of_timer (ok : g.QueuesOk) (h : w ∈ g.queue ts) (h' : w' ∈ g.queue ts')
    (same : w.timer = w'.timer) : ts = ts' ∧ w.id = w'.id := by
  have both := ok.armed h
  rw [same, ok.armed h'] at both
  obtain ⟨tool, id⟩ := Prod.mk.inj (Option.some.inj both)
  exact ⟨tool.symm, id.symm⟩

theorem enqueue (ok : g.QueuesOk) : (g.enqueue who key deadline cb).QueuesOk := by
  -- the only new waiter is the last one of its queue
  have old : ∀ {ts w}, w ∈ (g.enqueue who key deadline cb).queue ts → w ∈ g.queue ts ∨
      (ts = key.str ∧ w = ⟨who, key, deadline, g.nextTimer, cb, g.nextWaitId⟩) := by
    intro ts w h
    rw [queue_enqueue] at h
    split at h
    · next same =>
      rcases List.mem_append.mp h with h | h
      · exact .inl h
      · exact .inr ⟨same, List.mem_singleton.mp h⟩
    · exact .inl h
  constructor
  · intro ts w h
    rcases old h with h | ⟨rfl, rfl⟩
    · exact ok.key h
    · rfl
  · intro ts w h
    rcases old h with h | ⟨-, rfl⟩
    · exact Nat.lt_succ_of_lt (ok.fresh h)
    · exact Nat.lt_succ_self _
  · intro ts
    rw [queue_enqueue]
    split
    · rw [List.map_append, List.map_singleton]
      refine List.nodup_append.mpr ⟨ok.nodup ts, List.nodup_singleton _, ?_⟩
      intro a ha b hb same
      obtain ⟨w, hw, rfl⟩ := List.mem_map.mp ha
      obtain rfl := List.mem_singleton.mp hb
      exact Nat.ne_of_lt (ok.fresh hw) same
    · exact ok.nodup ts
  · intro ts w h
    show (g.timers.insert g.nextTimer (key.str, g.nextWaitId)).lookup w.timer = _
    rw [UnorderedMap.lookup_insert]
    rcases old h with h | ⟨rfl, rfl⟩
    · rw [if_neg (Nat.ne_of_lt (ok.timer_lt h))]
      exact ok.armed h
    · exact if_pos rfl
  · intro n ts id h
    change (g.timers.insert g.nextTimer (key.str, g.nextWaitId)).lookup n = _ at h
    rw [UnorderedMap.lookup_insert] at h
    split at h
    · next same =>
      cases h
      refine ⟨by rw [same]; exact Nat.lt_succ_self _,
        ⟨who, key, deadline, g.nextTimer, cb, g.nextWaitId⟩, ?_, rfl, same.symm⟩
      rw [queue_enqueue, if_pos rfl]
      exact List.mem_append_right _ (List.mem_singleton_self _)
    · obtain ⟨below, w, member, same⟩ := ok.timer h
      refine ⟨Nat.lt_succ_of_lt below, w, ?_, same⟩
      rw [queue_enqueue]
      split
      · exact List.mem_append_left _ member
      · exact member

theorem unqueue (ok : g.QueuesOk) (split : g.queue ts = l₁ ++ w :: l₂) :
    (g.unqueue ts w (l₁ ++ l₂)).QueuesOk := by
  have here : w ∈ g.queue ts := by rw [split]; simp
  have distinct : (((l₁ ++ w :: l₂)).map (·.id)).Nodup := split ▸ ok.nodup ts
  -- every waiter has a timer of its own
  have apart : ∀ {ts' w'}, w' ∈ (g.unqueue ts w (l₁ ++ l₂)).queue ts' → w'.timer ≠ w.timer := by
    intro ts' w' h same
    obtain ⟨rfl, id⟩ := ok.eq_of_timer (mem_queue_unqueue split h) here same
    rw [queue_unqueue, if_pos rfl] at h
    rw [List.map_append, List.map_cons] at distinct
    have gone := (List.nodup_middle.mp distinct).notMem
    rw [← List.map_append] at gone
    exact gone (id ▸ List.mem_map_of_mem h)
  constructor
  · intro ts' w' h; exact ok.key (mem_queue_unqueue split h)
  · intro ts' w' h; exact ok.fresh (mem_queue_unqueue split h)
  · intro ts'
    rw [queue_unqueue]
    split
    · rw [List.map_append, List.map_cons] at distinct
      rw [List.map_append]
      exact (List.nodup_cons.mp (List.nodup_middle.mp distinct)).2
    · exact ok.nodup ts'
  · intro ts' w' h
    show (g.timers.erase w.timer).lookup w'.timer = _
    rw [UnorderedMap.lookup_erase, if_neg (apart h)]
    exact ok.armed (mem_queue_unqueue split h)
  · intro n ts' id h
    change (g.timers.erase w.timer).lookup n = _ at h
    rw [UnorderedMap.lookup_erase] at h
    split at h
    · cases h
    · next other =>
      obtain ⟨below, w', member, rfl, rfl⟩ := ok.timer h
      refine ⟨below, w', ?_, rfl, rfl⟩
      rcases mem_queue_cases split member with ⟨-, rfl⟩ | stays
      · exact absurd rfl other
      · exact stays

/-- The timer of a waiter rejects that waiter and takes it out of its queue. -/
theorem expire (ok : g.QueuesOk) (split : g.queue ts = l₁ ++ w :: l₂) :
    g.expire w.timer = some (g.unqueue ts w (l₁ ++ l₂), some w) := by
  have here : w ∈ g.queue ts := by rw [split]; simp
  have distinct : (((l₁ ++ w :: l₂)).map (·.id)).Nodup := split ▸ ok.nodup ts
  rw [List.map_append, List.map_cons] at distinct
  have before : ∀ x ∈ l₁, ¬ x.id = w.id := by
    intro x hx same
    have gone := (List.nodup_middle.mp distinct).notMem
    exact gone (List.mem_append_left _ (same ▸ List.mem_map_of_mem hx))
  have found : (l₁ ++ w :: l₂).find? (fun x => decide (x.id = w.id)) = some w := by
    rw [List.find?_append, List.find?_eq_none.mpr (by simpa using before)]
    simp
  have removed : (l₁ ++ w :: l₂).eraseP (fun x => decide (x.id = w.id)) = l₁ ++ l₂ := by
    rw [List.eraseP_append_right _ (by simpa using before)]
    simp
  unfold LocalGovernor.expire
  rw [ok.armed here]
  simp only [split, found, removed]
  rfl

end QueuesOk

/-- What an expiring queue timer does: it takes its waiter out of the queue. -/
theorem expire_cases (ok : g.QueuesOk) {timer : ℕ} {r : LocalGovernor κ × Option (Waiter κ)}
    (h : g.expire timer = some r) : ∃ ts l₁ w l₂, g.queue ts = l₁ ++ w :: l₂ ∧
      w.timer = timer ∧ r = (g.unqueue ts w (l₁ ++ l₂), some w) := by
  cases armed : g.timers.lookup timer with
  | none => rw [expire, armed] at h; cases h
  | some target =>
    obtain ⟨ts, id⟩ := target
    obtain ⟨-, w, member, -, rfl⟩ := ok.timer armed
    obtain ⟨l₁, l₂, split⟩ := List.append_of_mem member
    rw [ok.expire split] at h
    exact ⟨ts, l₁, w, l₂, split, rfl, (Option.some.inj h).symm⟩

/-! ## Counting waiters -/

/-- How many waiters, in all queues, have a callback with a property. -/
def waiting (p : κ → Bool) (g : LocalGovernor κ) : ℕ :=
  UnorderedMap.total (fun _ q => q.countP fun w => p w.cb) g.queues

theorem waiting_initial (p : κ → Bool) (cfg : YamlConfig) :
    waiting p ({ cfg := cfg } : LocalGovernor κ) = 0 := rfl

theorem waiting_congr {g' : LocalGovernor κ} (p : κ → Bool) (queues : g'.queues = g.queues) :
    waiting p g' = waiting p g := by rw [waiting, queues, waiting]

@[simp] theorem waiting_take (p : κ → Bool) (g : LocalGovernor κ) (ts a : String) :
    waiting p (g.take ts a) = waiting p g := rfl

@[simp] theorem waiting_releaseSlot (p : κ → Bool) (g : LocalGovernor κ) (key : ToolKey)
    (a : String) : waiting p (g.releaseSlot key a) = waiting p g := rfl

@[simp] theorem waiting_onToolsListed (p : κ → Bool) (g : LocalGovernor κ) (backend : String)
    (tools : List String) : waiting p (g.onToolsListed backend tools) = waiting p g := rfl

theorem waiting_enqueue (p : κ → Bool) (g : LocalGovernor κ) (who : Principal) (key : ToolKey)
    (deadline : UInt64) (cb : κ) :
    waiting p (g.enqueue who key deadline cb) = waiting p g + (p cb).toNat := by
  have written := UnorderedMap.total_insert_getD
    (f := fun _ q => q.countP fun w => p w.cb) (d := []) g.queues key.str
    (g.queue key.str ++ [⟨who, key, deadline, g.nextTimer, cb, g.nextWaitId⟩]) rfl
  rw [List.countP_append, List.countP_singleton] at written
  change waiting p (g.enqueue who key deadline cb) + (g.queue key.str).countP _ = _ at written
  change _ = (_ + if p cb = true then 1 else 0) + waiting p g at written
  have bit : (if p cb = true then 1 else 0) = (p cb).toNat := by cases p cb <;> rfl
  omega

theorem waiting_unqueue (p : κ → Bool) (split : g.queue ts = l₁ ++ w :: l₂) :
    waiting p (g.unqueue ts w (l₁ ++ l₂)) + (p w.cb).toNat = waiting p g := by
  have written := UnorderedMap.total_insert_getD
    (f := fun _ q => q.countP fun w => p w.cb) (d := []) g.queues ts (l₁ ++ l₂) rfl
  change waiting p (g.unqueue ts w (l₁ ++ l₂)) + (g.queue ts).countP _ = _ + waiting p g at written
  rw [split, List.countP_append, List.countP_append, List.countP_cons] at written
  have bit : (if p w.cb = true then 1 else 0) = (p w.cb).toNat := by cases p w.cb <;> rfl
  omega

theorem waiting_mono {p q : κ → Bool} (h : ∀ cb, p cb = true → q cb = true)
    (g : LocalGovernor κ) : waiting p g ≤ waiting q g :=
  UnorderedMap.total_mono fun _ _ _ => List.countP_mono_left fun w _ => h w.cb

theorem waiting_pos_iff (p : κ → Bool) :
    0 < waiting p g ↔ ∃ ts, ∃ w ∈ g.queue ts, p w.cb = true := by
  rw [waiting, UnorderedMap.total_pos_iff]
  constructor
  · rintro ⟨ts, q, stored, positive⟩
    obtain ⟨w, member, holds⟩ := List.countP_pos_iff.mp positive
    exact ⟨ts, w, by rwa [queue, UnorderedMap.getD_of_lookup stored], holds⟩
  · rintro ⟨ts, w, member, holds⟩
    cases stored : g.queues.lookup ts with
    | none =>
      rw [queue, UnorderedMap.getD_of_lookup_none stored] at member
      cases member
    | some q =>
      rw [queue, UnorderedMap.getD_of_lookup stored] at member
      exact ⟨ts, q, stored, List.countP_pos_iff.mpr ⟨w, member, holds⟩⟩

end LocalGovernor

end Perfacet
