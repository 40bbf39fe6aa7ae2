import Perfacet.Ir.Request
import Perfacet.Lib.Separator
import Perfacet.Lib.UnorderedMap

/-!
# The in-flight table

Which calls are running, by id, and an index from who calls what with which parameters to
the id. The index holds one id for a key, that of the last call inserted under it, although
several calls may run under one key; erasing any of them erases the key.

## Main results

* `InFlight.Indexed` — the index only points to entries of the table, under their own key
* `InFlight.mapKey_inj` — keys of agents and hashes without line breaks are different
-/

namespace Perfacet

structure InFlightEntry where
  inflightId : String
  startedAtMs : UInt64
  taskId : Option String
  paramsSummary : String
  key : ToolKey
  agentId : String
  paramsHash : String
  deriving DecidableEq, Repr

/-- The table, with its counter of entries. -/
structure InFlight where
  byId : UnorderedMap String InFlightEntry := ∅
  keyToId : UnorderedMap String String := ∅
  inflightHeld : ℤ := 0

namespace InFlight

/-- The index key of a call. -/
def mapKey (agent tool hash : String) : String := agent ++ "\n" ++ tool ++ "\n" ++ hash

/-- The index key of an entry. -/
def entryKey (e : InFlightEntry) : String := mapKey e.agentId e.key.str e.paramsHash

def lookup (t : InFlight) (agentId : String) (key : ToolKey) (paramsHash : String) :
    Option InFlightEntry :=
  match t.keyToId.lookup (mapKey agentId key.str paramsHash) with
  | none => none
  | some id => t.byId.lookup id

/-- Enter a call under a drawn id. -/
def insert (t : InFlight) (id agentId : String) (key : ToolKey) (paramsHash summary : String)
    (nowMs : UInt64) : InFlight :=
  let e : InFlightEntry :=
    { inflightId := id, startedAtMs := nowMs, taskId := none, paramsSummary := summary, key := key,
      agentId := agentId, paramsHash := paramsHash }
  { byId := t.byId.insert id e
    keyToId := t.keyToId.insert (entryKey e) id
    inflightHeld := t.inflightHeld + 1 }

def setTaskId (t : InFlight) (inflightId taskId : String) : InFlight :=
  match t.byId.lookup inflightId with
  | none => t
  | some e => { t with byId := t.byId.insert inflightId { e with taskId := some taskId } }

def erase (t : InFlight) (inflightId : String) : InFlight :=
  match t.byId.lookup inflightId with
  | none => t
  | some e =>
    { byId := t.byId.erase inflightId
      keyToId := t.keyToId.erase (entryKey e)
      inflightHeld := t.inflightHeld - 1 }

/-! ## Which entries there are -/

variable {t : InFlight} {id id' agentId hash summary taskId : String} {key : ToolKey}
  {now : UInt64}

/-- An id is in the table. -/
def Holds (t : InFlight) (id : String) : Prop := (t.byId.lookup id).isSome

theorem holds_insert :
    (t.insert id agentId key hash summary now).Holds id' ↔ id' = id ∨ t.Holds id' := by
  rw [Holds, insert, UnorderedMap.lookup_insert]
  split
  · next same => simp [same]
  · next other => simp [other, Holds]

theorem holds_setTaskId : (t.setTaskId id taskId).Holds id' ↔ t.Holds id' := by
  unfold setTaskId
  cases found : t.byId.lookup id with
  | none => rfl
  | some e =>
    simp only [Holds, UnorderedMap.lookup_insert]
    split
    · next same => rw [same, found]; rfl
    · rfl

theorem holds_erase : (t.erase id).Holds id' ↔ id' ≠ id ∧ t.Holds id' := by
  unfold erase
  cases found : t.byId.lookup id with
  | none =>
    constructor
    · intro held
      refine ⟨?_, held⟩
      rintro rfl
      simp [Holds, found] at held
    · exact And.right
  | some e =>
    simp only [Holds, UnorderedMap.lookup_erase]
    split
    · next same => simp [same]
    · next other => simp [other]

theorem byId_setTaskId (t : InFlight) (id taskId id' : String) :
    (t.setTaskId id taskId).byId.lookup id' = (t.byId.lookup id').map fun e =>
      if id' = id then { e with taskId := some taskId } else e := by
  unfold setTaskId
  cases found : t.byId.lookup id with
  | none =>
    by_cases own : id' = id
    · rw [own, found]
      rfl
    · simp [own]
  | some e =>
    dsimp only
    rw [UnorderedMap.lookup_insert]
    by_cases own : id' = id
    · rw [if_pos own, own, found]
      simp
    · simp [own]

theorem byId_erase (t : InFlight) (id id' : String) :
    (t.erase id).byId.lookup id' = if id' = id then none else t.byId.lookup id' := by
  unfold erase
  cases found : t.byId.lookup id with
  | none =>
    dsimp only
    split
    · next own => rw [own, found]
    · rfl
  | some e => exact UnorderedMap.lookup_erase ..

/-- A task changes nothing about the index. -/
theorem keyToId_setTaskId : (t.setTaskId id taskId).keyToId = t.keyToId := by
  unfold setTaskId
  cases t.byId.lookup id <;> rfl

/-- The index loses keys when an entry is erased. -/
theorem keyToId_erase {k : String} (found : (t.erase id).keyToId.lookup k = some id') :
    t.keyToId.lookup k = some id' := by
  unfold erase at found
  cases stored : t.byId.lookup id with
  | none =>
    rw [stored] at found
    exact found
  | some e =>
    rw [stored] at found
    simp only [UnorderedMap.lookup_erase] at found
    split at found
    · cases found
    · exact found

/-! ## The index and the counter -/

/-- The index points only to entries, under their own key, and the counter counts the
entries. -/
structure Indexed (t : InFlight) : Prop where
  key : ∀ {k id}, t.keyToId.lookup k = some id →
    ∃ e, t.byId.lookup id = some e ∧ entryKey e = k
  held : t.inflightHeld = UnorderedMap.total (fun _ _ => 1) t.byId

namespace Indexed

theorem empty : Indexed {} := by
  constructor
  · intro k id h
    simp [AList.lookup_empty] at h
  · rfl

theorem insert (ok : t.Indexed) (new : ¬ t.Holds id) :
    (t.insert id agentId key hash summary now).Indexed := by
  have absent : t.byId.lookup id = none := by simpa [Holds] using new
  constructor
  · intro k id' h
    simp only [InFlight.insert, UnorderedMap.lookup_insert] at h ⊢
    split at h
    · next same =>
      cases h
      exact ⟨_, if_pos rfl, same.symm⟩
    · obtain ⟨e, stored, entry⟩ := ok.key h
      refine ⟨e, ?_, entry⟩
      rw [if_neg, stored]
      rintro rfl
      rw [absent] at stored
      cases stored
  · simp only [InFlight.insert, UnorderedMap.total_insert_new absent, ok.held]
    omega

theorem setTaskId (ok : t.Indexed) : (t.setTaskId id taskId).Indexed := by
  unfold InFlight.setTaskId
  cases found : t.byId.lookup id with
  | none => exact ok
  | some e =>
    constructor
    · intro k id' h
      obtain ⟨e', stored, entry⟩ := ok.key h
      simp only [UnorderedMap.lookup_insert]
      split
      · next same =>
        rw [same, found] at stored
        cases stored
        exact ⟨_, rfl, entry⟩
      · exact ⟨e', stored, entry⟩
    · have same := UnorderedMap.total_insert_of_lookup (f := fun _ _ => 1) found
        (v := { e with taskId := some taskId })
      have held := ok.held
      dsimp only
      omega

/-- Erasing an entry erases the only key that can point to it. -/
theorem erase (ok : t.Indexed) : (t.erase id).Indexed := by
  unfold InFlight.erase
  cases found : t.byId.lookup id with
  | none => exact ok
  | some e =>
    constructor
    · intro k id' h
      simp only [UnorderedMap.lookup_erase] at h ⊢
      split at h
      · cases h
      · next other =>
        obtain ⟨e', stored, entry⟩ := ok.key h
        refine ⟨e', ?_, entry⟩
        rw [if_neg, stored]
        rintro rfl
        rw [found] at stored
        cases stored
        exact other entry.symm
    · have fewer := UnorderedMap.total_erase (f := fun _ _ => 1) found
      have held := ok.held
      dsimp only
      omega

/-- A table without entries has an empty index, and its counter is zero. -/
theorem of_byId_empty (ok : t.Indexed) (none : t.byId = ∅) :
    t.keyToId = ∅ ∧ t.inflightHeld = 0 := by
  constructor
  · apply UnorderedMap.eq_empty_iff.mpr
    intro k
    by_contra stored
    obtain ⟨id, stored⟩ := Option.ne_none_iff_exists'.mp stored
    obtain ⟨e, found, -⟩ := ok.key stored
    rw [none, AList.lookup_empty] at found
    cases found
  · rw [ok.held, none, UnorderedMap.total_empty]
    rfl

end Indexed

/-! ## Keys -/

section Keys

variable {agent agent' tool tool' hash' : String}

theorem toList_mapKey (agent tool hash : String) :
    (mapKey agent tool hash).toList = agent.toList ++ '\n' ::
      (tool.toList ++ '\n' :: hash.toList) := by
  simp [mapKey, String.toList_append]

/-- Agents without line breaks are not taken for each other. -/
theorem mapKey_agent (plain : '\n' ∉ agent.toList) (plain' : '\n' ∉ agent'.toList)
    (same : mapKey agent tool hash = mapKey agent' tool' hash') :
    agent = agent' ∧ tool.toList ++ '\n' :: hash.toList = tool'.toList ++ '\n' :: hash'.toList := by
  have chars := congrArg String.toList same
  rw [toList_mapKey, toList_mapKey] at chars
  exact (Separator.front plain plain' chars).imp_left String.toList_inj.mp

/-- Nor are tools, if the hashes have no line breaks either. -/
theorem mapKey_inj (plain : '\n' ∉ agent.toList) (plain' : '\n' ∉ agent'.toList)
    (line : '\n' ∉ hash.toList) (line' : '\n' ∉ hash'.toList)
    (same : mapKey agent tool hash = mapKey agent' tool' hash') :
    agent = agent' ∧ tool = tool' ∧ hash = hash' := by
  obtain ⟨agents, rest⟩ := mapKey_agent plain plain' same
  obtain ⟨tools, hashes⟩ := Separator.back line line' rest
  exact ⟨agents, String.toList_inj.mp tools, String.toList_inj.mp hashes⟩

/-- An entry that is found is the one that the index leads to. -/
theorem exists_of_lookup {e : InFlightEntry} (found : t.lookup agentId key hash = some e) :
    ∃ id, t.keyToId.lookup (mapKey agentId key.str hash) = some id ∧
      t.byId.lookup id = some e := by
  unfold lookup at found
  split at found
  · cases found
  · next id stored => exact ⟨id, stored, found⟩

/-- An entry that is found has the key that was looked for. -/
theorem Indexed.entryKey_of_lookup (ok : t.Indexed) {e : InFlightEntry}
    (found : t.lookup agentId key hash = some e) : entryKey e = mapKey agentId key.str hash := by
  obtain ⟨id, stored, found⟩ := exists_of_lookup found
  obtain ⟨e', entry, own⟩ := ok.key stored
  obtain rfl := Option.some.inj (found.symm.trans entry)
  exact own

/-- The index leads to an id under one key. -/
theorem Indexed.eq_of_keyToId (ok : t.Indexed) {k k' : String}
    (found : t.keyToId.lookup k = some id) (found' : t.keyToId.lookup k' = some id) : k = k' := by
  obtain ⟨e, stored, own⟩ := ok.key found
  obtain ⟨e', stored', own'⟩ := ok.key found'
  obtain rfl := Option.some.inj (stored.symm.trans stored')
  exact own.symm.trans own'

end Keys

end InFlight

end Perfacet
