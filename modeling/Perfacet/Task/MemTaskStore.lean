import Perfacet.Ir.Request
import Perfacet.Lib.UnorderedMap

/-!
# The task store

Tasks by id, up to a capacity. Every access first drops the tasks whose time to live is
over, reads included.

## Main definitions

* `MemTaskStore.Evolves` — what accesses do to the store, in terms of the clock readings they
  make, what they write and which tasks they enter

## Main results

* `Evolves.sweep`, `Evolves.insert`, `Evolves.updateStatus` — the accesses one by one
-/

namespace Perfacet

/-- The four states of a task, which the source keeps as text. -/
inductive TaskStatus
  | working | completed | failed | cancelled
  deriving DecidableEq, Repr

def TaskStatus.text : TaskStatus → String
  | .working => "working"
  | .completed => "completed"
  | .failed => "failed"
  | .cancelled => "cancelled"

structure Task where
  taskId : String
  agentId : String
  key : ToolKey
  status : TaskStatus
  resultOrError : Json
  createdAtMs : UInt64
  lastUpdatedAtMs : UInt64
  ttlMs : UInt64
  owner : Principal
  deriving Repr

/-- The store; `maxTasks` is at least one, as its constructor makes it. -/
structure MemTaskStore where
  maxTasks : ℕ
  byId : UnorderedMap String Task := ∅

namespace MemTaskStore

def make (maxTasks : ℕ) : MemTaskStore := { maxTasks := if maxTasks = 0 then 1 else maxTasks }

/-- A task without a time to live never expires. -/
def expired (now : UInt64) (t : Task) : Bool :=
  decide (0 < t.ttlMs) && decide (t.createdAtMs + t.ttlMs ≤ now)

def sweep (store : MemTaskStore) (now : UInt64) : MemTaskStore :=
  { store with byId := store.byId.filter fun _ t => !expired now t }

/-- False if the store is full and does not hold a task under this id already. -/
def insert (store : MemTaskStore) (t : Task) (now : UInt64) : MemTaskStore × Bool :=
  let store := store.sweep now
  if store.maxTasks ≤ store.byId.entries.length ∧ (store.byId.lookup t.taskId).isNone then
    (store, false)
  else ({ store with byId := store.byId.insert t.taskId t }, true)

def get (store : MemTaskStore) (id : String) (now : UInt64) : MemTaskStore × Option Task :=
  let store := store.sweep now
  (store, store.byId.lookup id)

def updateStatus (store : MemTaskStore) (id : String) (status : TaskStatus) (body : Json)
    (now : UInt64) : MemTaskStore :=
  let store := store.sweep now
  -- the status is overwritten whatever it was
  match store.byId.lookup id with
  | none => store
  | some t =>
    { store with
      byId := store.byId.insert id
        { t with status := status, resultOrError := body, lastUpdatedAtMs := now } }

/-- A store that is full only drops what has expired. -/
theorem insert_full (store : MemTaskStore) {t : Task} {now : UInt64}
    (full : (store.insert t now).2 = false) : (store.insert t now).1 = store.sweep now := by
  unfold insert at full ⊢
  dsimp only at full ⊢
  split
  · rfl
  · next free =>
    rw [if_neg free] at full
    cases full

/-- A new task is only stored where there is room. -/
theorem insert_room (store : MemTaskStore) {t : Task} {now : UInt64}
    (new : store.byId.lookup t.taskId = none) (stored : (store.insert t now).2 = true) :
    (store.sweep now).byId.entries.length < store.maxTasks := by
  have absent : ((store.sweep now).byId.lookup t.taskId).isNone := by
    rw [sweep, UnorderedMap.lookup_filter, new]
    rfl
  unfold insert at stored
  dsimp only at stored
  split at stored
  · cases stored
  · next free => exact Nat.lt_of_not_le fun full => free ⟨full, absent⟩

/-- What a store holds after an insertion that it did not hold before is the new task. -/
theorem eq_of_insert (store : MemTaskStore) {t t' : Task} {now : UInt64} {id : String}
    (before : store.byId.lookup id = none)
    (held : (store.insert t now).1.byId.lookup id = some t') : id = t.taskId ∧ t' = t := by
  have absent : (store.sweep now).byId.lookup id = none := by
    rw [sweep, UnorderedMap.lookup_filter, before]
    rfl
  unfold insert at held
  dsimp only at held
  split at held
  · rw [absent] at held
    cases held
  · rw [UnorderedMap.lookup_insert] at held
    split at held
    · next same => exact ⟨same, (Option.some.inj held).symm⟩
    · rw [absent] at held
      cases held

/-! ## What accesses do -/

/-- The store holds no more tasks than it may. -/
def HasRoom (store : MemTaskStore) : Prop := store.byId.entries.length ≤ store.maxTasks

theorem hasRoom_make (maxTasks : ℕ) : (make maxTasks).HasRoom := Nat.zero_le _

theorem lookup_sweep (store : MemTaskStore) (now : UInt64) (id : String) :
    (store.sweep now).byId.lookup id = (store.byId.lookup id).filter fun t => !expired now t :=
  UnorderedMap.lookup_filter ..

theorem lookup_updateStatus (store : MemTaskStore) (id : String) (status : TaskStatus) (body : Json)
    (now : UInt64) (id' : String) :
    (store.updateStatus id status body now).byId.lookup id' =
      ((store.sweep now).byId.lookup id').map fun t =>
        if id' = id then { t with status := status, resultOrError := body, lastUpdatedAtMs := now }
        else t := by
  unfold updateStatus
  dsimp only
  cases held : (store.sweep now).byId.lookup id with
  | none =>
    cases held' : (store.sweep now).byId.lookup id' with
    | none => rfl
    | some t =>
      -- the task is not there, so nothing is written
      have other : id' ≠ id := by
        rintro rfl
        rw [held] at held'
        cases held'
      rw [Option.map_some, if_neg other]
  | some t =>
    simp only [UnorderedMap.lookup_insert]
    split
    · next same => rw [same, held, Option.map_some]
    · rw [Option.map_id']

/-- No task under an id is working. -/
def Idle (store : MemTaskStore) (id : String) : Prop :=
  ∀ t, store.byId.lookup id = some t → t.status ≠ .working

theorem idle_updateStatus (store : MemTaskStore) (id : String) {status : TaskStatus}
    (ended : status ≠ .working) (body : Json) (now : UInt64) :
    (store.updateStatus id status body now).Idle id := by
  intro t found
  rw [lookup_updateStatus] at found
  obtain ⟨old, -, rfl⟩ := Option.map_eq_some_iff.mp found
  rw [if_pos rfl]
  exact ended

theorem Idle.updateStatus {store : MemTaskStore} {id : String} (h : store.Idle id) (id' : String)
    {status : TaskStatus} (ended : status ≠ .working) (body : Json) (now : UInt64) :
    (store.updateStatus id' status body now).Idle id := by
  intro t found
  rw [lookup_updateStatus] at found
  obtain ⟨old, kept, rfl⟩ := Option.map_eq_some_iff.mp found
  split
  · exact ended
  · rw [lookup_sweep] at kept
    exact h old (Option.filter_eq_some_iff.mp kept).1

theorem HasRoom.sweep {store : MemTaskStore} (room : store.HasRoom) (now : UInt64) :
    (store.sweep now).HasRoom :=
  (List.length_filter_le ..).trans room

end MemTaskStore

/-- What no access changes about a task. -/
structure Task.Same (t t' : Task) : Prop where
  taskId : t'.taskId = t.taskId
  agentId : t'.agentId = t.agentId
  key : t'.key = t.key
  owner : t'.owner = t.owner
  createdAtMs : t'.createdAtMs = t.createdAtMs
  ttlMs : t'.ttlMs = t.ttlMs

namespace Task.Same

variable {t t' t'' : Task}

theorem refl (t : Task) : t.Same t := ⟨rfl, rfl, rfl, rfl, rfl, rfl⟩

theorem trans (h : t.Same t') (h' : t'.Same t'') : t.Same t'' where
  taskId := h'.taskId.trans h.taskId
  agentId := h'.agentId.trans h.agentId
  key := h'.key.trans h.key
  owner := h'.owner.trans h.owner
  createdAtMs := h'.createdAtMs.trans h.createdAtMs
  ttlMs := h'.ttlMs.trans h.ttlMs

theorem expired (h : t.Same t') (now : UInt64) :
    MemTaskStore.expired now t' = MemTaskStore.expired now t := by
  rw [MemTaskStore.expired, MemTaskStore.expired, h.createdAtMs, h.ttlMs]

end Task.Same

namespace MemTaskStore

/-- What is left of the outcome of a task: it is as it was, or one of the given writes. -/
def Wrote (writes : String → TaskStatus → Json → Prop) (id : String) (t t' : Task) : Prop :=
  (t'.status = t.status ∧ t'.resultOrError = t.resultOrError) ∨ writes id t'.status t'.resultOrError

/-- What accesses do to a store `a`: they read the clock as `reads` says, write outcomes that
`writes` allows, and enter tasks that `enters` allows under ids that `a` does not hold. A task
goes only when it has expired. -/
structure Evolves (reads : UInt64 → Prop) (writes : String → TaskStatus → Json → Prop)
    (enters : Task → Prop) (a b : MemTaskStore) : Prop where
  maxTasks : b.maxTasks = a.maxTasks
  room : a.HasRoom → b.HasRoom
  found : ∀ {id t'}, b.byId.lookup id = some t' →
    (∃ t, a.byId.lookup id = some t ∧ t.Same t' ∧ Wrote writes id t t') ∨
      (a.byId.lookup id = none ∧ t'.taskId = id ∧ enters t')
  lost : ∀ {id t}, a.byId.lookup id = some t → b.byId.lookup id = none →
    ∃ now, reads now ∧ expired now t = true

namespace Evolves

variable {reads : UInt64 → Prop} {writes : String → TaskStatus → Json → Prop}
  {enters : Task → Prop} {a b : MemTaskStore} {now : UInt64} {id : String} {t : Task}

theorem refl (a : MemTaskStore) : Evolves reads writes enters a a where
  maxTasks := rfl
  room := id
  found := fun {_ t'} stored => .inl ⟨t', stored, .refl t', .inl ⟨rfl, rfl⟩⟩
  lost := fun stored gone => by rw [stored] at gone; cases gone

theorem mono {reads' : UInt64 → Prop} {writes' : String → TaskStatus → Json → Prop}
    {enters' : Task → Prop} (h : Evolves reads writes enters a b)
    (more : ∀ now, reads now → reads' now)
    (wider : ∀ id status body, writes id status body → writes' id status body)
    (freer : ∀ t, enters t → enters' t) : Evolves reads' writes' enters' a b where
  maxTasks := h.maxTasks
  room := h.room
  found := fun stored => (h.found stored).imp
    (fun ⟨t, old, same, wrote⟩ => ⟨t, old, same, wrote.imp_right (wider _ _ _)⟩)
    fun ⟨new, named, entered⟩ => ⟨new, named, freer _ entered⟩
  lost := fun stored gone => (h.lost stored gone).imp fun now => And.imp_left (more now)

/-- Then the store drops what has expired. -/
theorem sweep (h : Evolves reads writes enters a b) (read : reads now) :
    Evolves reads writes enters a (b.sweep now) where
  maxTasks := h.maxTasks
  room := fun room => (h.room room).sweep now
  found := fun stored => by
    rw [lookup_sweep] at stored
    exact h.found (Option.filter_eq_some_iff.mp stored).1
  lost := fun {id t} stored gone => by
    rw [lookup_sweep] at gone
    cases left : b.byId.lookup id with
    | none => exact h.lost stored left
    | some t' =>
      rw [left, Option.filter_eq_none_iff] at gone
      have lapsed : expired now t' = true := by simpa using gone t' rfl
      rcases h.found left with ⟨t₀, old, same, -⟩ | ⟨new, -⟩
      · obtain rfl := Option.some.inj (stored.symm.trans old)
        exact ⟨now, read, same.expired now ▸ lapsed⟩
      · rw [stored] at new
        cases new

/-- Then the outcome of a task is written. Tasks that were just entered are left alone. -/
theorem updateStatus {status : TaskStatus} {body : Json} (h : Evolves reads writes enters a b)
    (read : reads now)
    (written : ∀ t, a.byId.lookup id = some t → expired now t = false → writes id status body)
    (old : ∀ t, ¬ enters t) :
    Evolves reads writes enters a (b.updateStatus id status body now) := by
  have swept := h.sweep read
  unfold MemTaskStore.updateStatus
  dsimp only
  cases left : (b.sweep now).byId.lookup id with
  | none => exact swept
  | some t =>
    constructor
    · exact swept.maxTasks
    · intro room
      have count := UnorderedMap.entries_length_insert_of_lookup left
        (v := { t with status := status, resultOrError := body, lastUpdatedAtMs := now })
      exact count.trans_le (swept.room room)
    · intro id' t' stored
      simp only [UnorderedMap.lookup_insert] at stored
      split at stored
      · next same =>
        subst same
        rcases swept.found left with ⟨t₀, before, alike, -⟩ | ⟨-, -, entered⟩
        · cases stored
          have current : expired now t = false := by
            rw [lookup_sweep] at left
            simpa using (Option.filter_eq_some_iff.mp left).2
          rw [alike.expired] at current
          exact .inl ⟨t₀, before, alike.trans ⟨rfl, rfl, rfl, rfl, rfl, rfl⟩,
            .inr (written t₀ before current)⟩
        · exact absurd entered (old t)
      · exact swept.found stored
    · intro id' t' stored gone
      simp only [UnorderedMap.lookup_insert] at gone
      split at gone
      · cases gone
      · exact swept.lost stored gone

/-- A task is entered, or the store is full. -/
theorem insert (read : reads now) (entered : enters t) (new : a.byId.lookup t.taskId = none) :
    Evolves reads writes enters a (a.insert t now).1 := by
  have swept : Evolves reads writes enters a (a.sweep now) := (refl a).sweep read
  unfold MemTaskStore.insert
  dsimp only
  have absent : (a.sweep now).byId.lookup t.taskId = none := by rw [lookup_sweep, new]; rfl
  split
  · exact swept
  · next free =>
    constructor
    · exact swept.maxTasks
    · intro room
      have count := UnorderedMap.entries_length_insert_new absent (v := t)
      have free : (a.sweep now).byId.entries.length < (a.sweep now).maxTasks :=
        Nat.lt_of_not_le fun full => free ⟨full, by rw [absent]; rfl⟩
      exact count.trans_le free
    · intro id' t' stored
      simp only [UnorderedMap.lookup_insert] at stored
      split at stored
      · next same =>
        cases stored
        exact .inr ⟨same ▸ new, same.symm, entered⟩
      · exact swept.found stored
    · intro id' t' stored gone
      simp only [UnorderedMap.lookup_insert] at gone
      split at gone
      · cases gone
      · exact swept.lost stored gone

end Evolves

end MemTaskStore

end Perfacet
