import Perfacet.Lib.Transition
import Perfacet.Pipeline.InFlight

/-!
# What the in-flight table finds

The table is meant to find a call by its agent, tool and parameters as long as the call runs.
Beside the table a list is kept of the entries that were inserted and not yet erased, as the ids
returned by the insertions tell. The index holds one id for a key, so when one of two entries
under a key is erased, the other one is not found any more. And the index key is a text in which
a line break ends a part.

## Main definitions

* `InFlightOp`, `InFlightLedger` — what can be done to the table, and what was
* `InFlightLedger.Coherent` — the table finds what is live, and counts it
* `InFlightLedger.Breaks` — what the table does not survive

## Main results

* `InFlightLedger.Sound.step` — the entries, the index and the counter after a step
* `inflight_coherent_iff` — the runs in which the table stays coherent
-/

namespace Perfacet

/-- What is done to the table. -/
inductive InFlightOp
  | insert (id agentId : String) (key : ToolKey) (paramsHash summary : String) (nowMs : UInt64)
  | setTaskId (inflightId taskId : String)
  | erase (inflightId : String)
  deriving DecidableEq, Repr

/-- The entry is under a key of the table. -/
def InFlightEntry.Has (e : InFlightEntry) (agentId : String) (key : ToolKey)
    (paramsHash : String) : Prop :=
  e.agentId = agentId ∧ e.key.str = key.str ∧ e.paramsHash = paramsHash

instance (e : InFlightEntry) (agentId : String) (key : ToolKey) (paramsHash : String) :
    Decidable (e.Has agentId key paramsHash) :=
  inferInstanceAs (Decidable (_ ∧ _ ∧ _))

/-- The entry that an insertion makes. -/
def InFlightEntry.made (id agentId : String) (key : ToolKey) (paramsHash summary : String)
    (nowMs : UInt64) : InFlightEntry :=
  { inflightId := id, startedAtMs := nowMs, taskId := none, paramsSummary := summary, key := key,
    agentId := agentId, paramsHash := paramsHash }

/-- The table, and the entries that were inserted and not yet erased. -/
structure InFlightLedger where
  table : InFlight := {}
  live : List InFlightEntry := []

namespace InFlightLedger

/-- One step; an id that is drawn for an insertion is not that of a live entry. -/
def step (s : InFlightLedger) : InFlightOp → Option InFlightLedger
  | .insert id agentId key paramsHash summary nowMs =>
    -- ids are drawn, and are not drawn twice
    if ∃ e ∈ s.live, e.inflightId = id then none
    else some
      { table := s.table.insert id agentId key paramsHash summary nowMs
        live := .made id agentId key paramsHash summary nowMs :: s.live }
  | .setTaskId inflightId taskId => some
      { table := s.table.setTaskId inflightId taskId
        live := s.live.map fun e =>
          if e.inflightId = inflightId then { e with taskId := some taskId } else e }
  | .erase inflightId => some
      { table := s.table.erase inflightId
        live := s.live.filter fun e => e.inflightId ≠ inflightId }

def machine : TransitionSystem InFlightLedger InFlightOp where
  init s := s = {}
  step := step

/-- The table finds a live entry where there is one, and nothing else, and it counts the live
entries. -/
structure Coherent (s : InFlightLedger) : Prop where
  lookup : ∀ agentId key paramsHash, (s.table.lookup agentId key paramsHash).isSome ↔
    ∃ e ∈ s.live, e.Has agentId key paramsHash
  found : ∀ agentId key paramsHash e, s.table.lookup agentId key paramsHash = some e →
    e ∈ s.live ∧ e.Has agentId key paramsHash
  held : s.table.inflightHeld = s.live.length

/-- A part of a key with a line break is inserted, or one of several live entries under a key is
erased. -/
def Breaks (s : InFlightLedger) : InFlightOp → Prop
  | .insert _ agentId key paramsHash _ _ =>
    '\n' ∈ agentId.toList ∨ '\n' ∈ key.str.toList ∨ '\n' ∈ paramsHash.toList
  | .setTaskId _ _ => False
  | .erase inflightId => ∃ e ∈ s.live, e.inflightId = inflightId ∧
      ∃ e' ∈ s.live, e'.inflightId ≠ inflightId ∧ e'.Has e.agentId e.key e.paramsHash

instance (s : InFlightLedger) : DecidablePred s.Breaks
  | .insert .. => inferInstanceAs (Decidable (_ ∨ _ ∨ _))
  | .setTaskId .. => inferInstanceAs (Decidable False)
  | .erase inflightId => inferInstanceAs (Decidable (∃ e ∈ s.live, e.inflightId = inflightId ∧
      ∃ e' ∈ s.live, e'.inflightId ≠ inflightId ∧ e'.Has e.agentId e.key e.paramsHash))

variable {s s' : InFlightLedger} {op : InFlightOp} {id agentId hash summary taskId : String}
  {key : ToolKey} {now : UInt64} {e e' : InFlightEntry}

/-! ## What holds in every run -/

/-- The table stores the live entries by their ids and counts them, and its index leads to some of
them. -/
structure Sound (s : InFlightLedger) : Prop where
  ids : (s.live.map InFlightEntry.inflightId).Nodup
  stored : ∀ id e, s.table.byId.lookup id = some e ↔ e ∈ s.live ∧ e.inflightId = id
  held : s.table.inflightHeld = s.live.length
  indexed : s.table.Indexed

namespace Sound

theorem empty : Sound {} where
  ids := .nil
  stored id e := by simp [AList.lookup_empty]
  held := rfl
  indexed := .empty

/-- Live entries are told apart by their ids. -/
theorem unique (h : s.Sound) (member : e ∈ s.live) (member' : e' ∈ s.live)
    (same : e.inflightId = e'.inflightId) : e = e' := by
  have found := (h.stored _ e).mpr ⟨member, rfl⟩
  have found' := (h.stored _ e').mpr ⟨member', same.symm⟩
  exact Option.some.inj (found.symm.trans found')

theorem insert (h : s.Sound) (new : ¬ ∃ e ∈ s.live, e.inflightId = id) :
    Sound
      { table := s.table.insert id agentId key hash summary now
        live := .made id agentId key hash summary now :: s.live } where
  ids := by
    rw [List.map_cons, List.nodup_cons]
    refine ⟨fun member => new ?_, h.ids⟩
    obtain ⟨e, live, same⟩ := List.mem_map.mp member
    exact ⟨e, live, same⟩
  stored id' e := by
    rw [InFlight.insert, UnorderedMap.lookup_insert, List.mem_cons]
    by_cases own : id' = id
    · subst own
      rw [if_pos rfl, Option.some.injEq]
      constructor
      · rintro rfl
        exact ⟨.inl rfl, rfl⟩
      · rintro ⟨rfl | live, same⟩
        · rfl
        · exact absurd ⟨e, live, same⟩ new
    · rw [if_neg own, h.stored]
      refine and_congr_left fun same => ⟨.inr, fun member => member.resolve_left ?_⟩
      rintro rfl
      exact own same.symm
  held := by
    rw [InFlight.insert, h.held, List.length_cons]
    push_cast
    rfl
  indexed := h.indexed.insert fun held => by
    obtain ⟨e, stored⟩ := Option.isSome_iff_exists.mp held
    exact new ⟨e, (h.stored id e).mp stored⟩

theorem setTaskId (h : s.Sound) :
    Sound
      { table := s.table.setTaskId id taskId
        live := s.live.map fun e => if e.inflightId = id then { e with taskId := some taskId }
          else e } where
  ids := by
    rw [List.map_map]
    refine (congrArg List.Nodup (List.map_congr_left fun e _ => ?_)).mpr h.ids
    rw [Function.comp_apply]
    split <;> rfl
  stored id' e := by
    rw [InFlight.byId_setTaskId, Option.map_eq_some_iff]
    constructor
    · rintro ⟨old, found, rfl⟩
      obtain ⟨live, rfl⟩ := (h.stored id' old).mp found
      refine ⟨List.mem_map_of_mem live, ?_⟩
      split <;> rfl
    · rintro ⟨member, rfl⟩
      obtain ⟨old, live, rfl⟩ := List.mem_map.mp member
      have same : (if old.inflightId = id then { old with taskId := some taskId }
          else old).inflightId = old.inflightId := by
        split <;> rfl
      rw [same]
      exact ⟨old, (h.stored _ old).mpr ⟨live, rfl⟩, rfl⟩
  held := by
    rw [List.length_map, InFlight.setTaskId]
    cases s.table.byId.lookup id <;> exact h.held
  indexed := h.indexed.setTaskId

theorem erase (h : s.Sound) :
    Sound
      { table := s.table.erase id
        live := s.live.filter fun e => e.inflightId ≠ id } where
  ids := h.ids.sublist (List.filter_sublist.map _)
  stored id' e := by
    rw [InFlight.byId_erase, List.mem_filter, decide_eq_true_eq]
    by_cases own : id' = id
    · rw [if_pos own]
      constructor
      · intro none
        cases none
      · rintro ⟨⟨-, other⟩, same⟩
        exact absurd (same.trans own) other
    · rw [if_neg own, h.stored]
      refine and_congr_left fun same => (and_iff_left ?_).symm
      exact same ▸ own
  held := by
    -- the ids of the entries that stay are all ids but the erased one
    have ids : (s.live.filter fun e => e.inflightId ≠ id).map InFlightEntry.inflightId =
        (s.live.map InFlightEntry.inflightId).erase id := by
      rw [h.ids.erase_eq_filter, List.filter_map]
      exact congrArg _ (List.filter_congr fun e _ => by simp [bne, beq_eq_decide])
    have length := congrArg List.length ids
    rw [List.length_map, List.length_erase, List.length_map] at length
    rw [InFlight.erase]
    cases found : s.table.byId.lookup id with
    | none =>
      have absent : id ∉ s.live.map InFlightEntry.inflightId := by
        intro member
        obtain ⟨e, live, same⟩ := List.mem_map.mp member
        rw [(h.stored id e).mpr ⟨live, same⟩] at found
        cases found
      rw [if_neg absent] at length
      exact h.held.trans (congrArg _ length.symm)
    | some e =>
      obtain ⟨live, same⟩ := (h.stored id e).mp found
      have present : id ∈ s.live.map InFlightEntry.inflightId := List.mem_map.mpr ⟨e, live, same⟩
      have positive := List.length_pos_of_mem live
      have held := h.held
      rw [if_pos present] at length
      dsimp only
      omega
  indexed := h.indexed.erase

end Sound

theorem Sound.step (h : s.Sound) (step : s.step op = some s') : s'.Sound := by
  cases op with
  | insert id agentId key hash summary now =>
    rw [InFlightLedger.step] at step
    split at step
    · cases step
    · next new =>
      cases step
      exact h.insert new
  | setTaskId id taskId =>
    cases step
    exact h.setTaskId
  | erase id =>
    cases step
    exact h.erase

/-! ## What holds as long as nothing breaks the table -/

/-- The index leads to an entry wherever there is one, and no part of a key has a line break. -/
structure Intact (s : InFlightLedger) : Prop where
  complete : ∀ e ∈ s.live, (s.table.keyToId.lookup (InFlight.entryKey e)).isSome
  plain : ∀ e ∈ s.live, '\n' ∉ e.agentId.toList ∧ '\n' ∉ e.key.str.toList ∧
    '\n' ∉ e.paramsHash.toList

/-- An entry without line breaks has the key that leads to it. -/
theorem has_of_entryKey (plain : '\n' ∉ e.agentId.toList ∧ '\n' ∉ e.key.str.toList ∧
      '\n' ∉ e.paramsHash.toList)
    (same : InFlight.entryKey e = InFlight.mapKey agentId key.str hash) :
    e.Has agentId key hash := by
  obtain ⟨agent, tool, line⟩ := plain
  have chars := congrArg String.toList same
  rw [InFlight.entryKey, InFlight.toList_mapKey, InFlight.toList_mapKey] at chars
  obtain ⟨agent', -, line'⟩ := Separator.plain agent tool line chars
  exact InFlight.mapKey_inj agent agent' line line' same

theorem Has.entryKey (h : e.Has agentId key hash) :
    InFlight.entryKey e = InFlight.mapKey agentId key.str hash := by
  obtain ⟨rfl, tool, rfl⟩ := h
  rw [InFlight.entryKey, tool]

/-- What the table finds is live, and under the index key that was looked up. -/
theorem Sound.live_of_lookup (h : s.Sound) (found : s.table.lookup agentId key hash = some e) :
    e ∈ s.live ∧ InFlight.entryKey e = InFlight.mapKey agentId key.str hash := by
  obtain ⟨id, -, stored⟩ := InFlight.exists_of_lookup found
  exact ⟨((h.stored id e).mp stored).1, h.indexed.entryKey_of_lookup found⟩

/-- If the index leads somewhere, an entry is found. -/
theorem Sound.isSome_lookup (h : s.Sound) : (s.table.lookup agentId key hash).isSome ↔
    (s.table.keyToId.lookup (InFlight.mapKey agentId key.str hash)).isSome := by
  rw [InFlight.lookup]
  cases stored : s.table.keyToId.lookup (InFlight.mapKey agentId key.str hash) with
  | none => rfl
  | some id =>
    obtain ⟨e, found, -⟩ := h.indexed.key stored
    dsimp only
    rw [found]
    rfl

theorem Intact.coherent (h : s.Intact) (sound : s.Sound) : s.Coherent where
  lookup agentId key hash := by
    constructor
    · intro found
      obtain ⟨e, found⟩ := Option.isSome_iff_exists.mp found
      obtain ⟨live, own⟩ := sound.live_of_lookup found
      exact ⟨e, live, has_of_entryKey (h.plain e live) own⟩
    · rintro ⟨e, live, has⟩
      rw [sound.isSome_lookup, ← Has.entryKey has]
      exact h.complete e live
  found agentId key hash e found := by
    obtain ⟨live, own⟩ := sound.live_of_lookup found
    exact ⟨live, has_of_entryKey (h.plain e live) own⟩
  held := sound.held

theorem Intact.step (h : s.Intact) (sound : s.Sound) (fine : ¬ s.Breaks op)
    (step : s.step op = some s') : s'.Intact := by
  cases op with
  | insert id agentId key hash summary now =>
    rw [InFlightLedger.step] at step
    split at step
    · cases step
    · cases step
      obtain ⟨agent, rest⟩ := not_or.mp fine
      obtain ⟨tool, line⟩ := not_or.mp rest
      refine ⟨List.forall_mem_cons.mpr ⟨?_, fun e live => ?_⟩,
        List.forall_mem_cons.mpr ⟨⟨agent, tool, line⟩, h.plain⟩⟩
      · rw [InFlight.insert, UnorderedMap.lookup_insert]
        exact (if_pos rfl).symm ▸ rfl
      · rw [InFlight.insert, UnorderedMap.lookup_insert]
        split
        · rfl
        · exact h.complete e live
  | setTaskId id taskId =>
    cases step
    refine ⟨fun e' live => ?_, fun e' live => ?_⟩
    · obtain ⟨e, before, rfl⟩ := List.mem_map.mp live
      have same : InFlight.entryKey (if e.inflightId = id then { e with taskId := some taskId }
          else e) = InFlight.entryKey e := by
        split <;> rfl
      rw [InFlight.keyToId_setTaskId, same]
      exact h.complete e before
    · obtain ⟨e, before, rfl⟩ := List.mem_map.mp live
      split
      · exact h.plain e before
      · exact h.plain e before
  | erase id =>
    cases step
    refine ⟨fun e' live => ?_, fun e' live => h.plain e' (List.mem_of_mem_filter live)⟩
    -- the key that is erased is that of no other live entry
    obtain ⟨before, other⟩ := List.mem_filter.mp live
    rw [decide_eq_true_eq] at other
    rw [InFlight.erase]
    cases found : s.table.byId.lookup id with
    | none => exact h.complete e' before
    | some e =>
      obtain ⟨erased, same⟩ := (sound.stored id e).mp found
      dsimp only
      rw [UnorderedMap.lookup_erase, if_neg]
      · exact h.complete e' before
      · intro key
        exact fine ⟨e, erased, same, e', before, other, has_of_entryKey (h.plain e' before) key⟩

/-! ## What breaks the table -/

/-- A key with a line break in a part can be read as another one. -/
theorem exists_alias
    (breaks : '\n' ∈ agentId.toList ∨ '\n' ∈ key.str.toList ∨ '\n' ∈ hash.toList) :
    ∃ agent' key' hash',
      InFlight.mapKey agent' (ToolKey.str key') hash' = InFlight.mapKey agentId key.str hash ∧
        (agent' ≠ agentId ∨ hash' ≠ hash) := by
  have shorter {x y : List Char} {text : String} (split : text.toList = x ++ '\n' :: y) :
      String.ofList x ≠ text ∧ String.ofList y ≠ text := by
    refine ⟨fun same => ?_, fun same => ?_⟩ <;>
    · have lengths := congrArg List.length split
      rw [← same, String.toList_ofList, List.length_append, List.length_cons] at lengths
      omega
  rcases breaks with inside | inside | inside
  · -- what comes after the line break goes to the tool
    obtain ⟨x, y, split⟩ := List.append_of_mem inside
    refine ⟨String.ofList x, ⟨String.ofList y ++ "\n" ++ key.backend, key.tool⟩, hash,
      String.toList_inj.mp ?_, .inl (shorter split).1⟩
    rw [InFlight.toList_mapKey, InFlight.toList_mapKey, split]
    simp [ToolKey.str]
  · have inside : '\n' ∈ key.backend.toList ∨ '\n' ∈ key.tool.toList := by
      simpa [ToolKey.str] using inside
    rcases inside with inside | inside
    · -- what comes before the line break goes to the agent
      obtain ⟨x, y, split⟩ := List.append_of_mem inside
      refine ⟨agentId ++ "\n" ++ String.ofList x, ⟨String.ofList y, key.tool⟩, hash,
        String.toList_inj.mp ?_, .inl fun same => ?_⟩
      · rw [InFlight.toList_mapKey, InFlight.toList_mapKey]
        simp [ToolKey.str, split]
      · have lengths := congrArg (fun text => text.toList.length) same
        simp at lengths
    · -- what comes after the line break goes to the hash
      obtain ⟨x, y, split⟩ := List.append_of_mem inside
      refine ⟨agentId, ⟨key.backend, String.ofList x⟩, String.ofList y ++ "\n" ++ hash,
        String.toList_inj.mp ?_, .inr fun same => ?_⟩
      · rw [InFlight.toList_mapKey, InFlight.toList_mapKey]
        simp [ToolKey.str, split]
      · have lengths := congrArg (fun text => text.toList.length) same
        simp at lengths
        omega
  · -- what comes before the line break goes to the tool
    obtain ⟨x, y, split⟩ := List.append_of_mem inside
    refine ⟨agentId, ⟨key.backend, key.tool ++ "\n" ++ String.ofList x⟩, String.ofList y,
      String.toList_inj.mp ?_, .inr (shorter split).2⟩
    rw [InFlight.toList_mapKey, InFlight.toList_mapKey, split]
    simp [ToolKey.str]

/-- An insertion with a line break is found under another key than its own. -/
theorem Intact.not_coherent_insert (h : s.Intact) (sound : s.Sound)
    (breaks : '\n' ∈ agentId.toList ∨ '\n' ∈ key.str.toList ∨ '\n' ∈ hash.toList)
    (new : ¬ ∃ e ∈ s.live, e.inflightId = id) :
    ¬ Coherent
      { table := s.table.insert id agentId key hash summary now
        live := .made id agentId key hash summary now :: s.live } := by
  intro coherent
  obtain ⟨agent', key', hash', same, differs⟩ := exists_alias breaks
  have indexed : ((s.table.insert id agentId key hash summary now).keyToId.lookup
      (InFlight.mapKey agent' key'.str hash')).isSome := by
    rw [same, InFlight.insert, UnorderedMap.lookup_insert]
    exact (if_pos rfl).symm ▸ rfl
  have found := (sound.insert new).isSome_lookup.mpr indexed
  obtain ⟨e, live, has⟩ := (coherent.lookup agent' key' hash').mp found
  rcases List.mem_cons.mp live with rfl | older
  · exact differs.elim (fun agents => agents has.1.symm) fun hashes => hashes has.2.2.symm
  · -- an older entry has no line breaks, and so has no key that can be read in two ways
    obtain ⟨rfl, tool, rfl⟩ := has_of_entryKey (h.plain e older) ((Has.entryKey has).trans same)
    obtain ⟨agent, plain, line⟩ := h.plain e older
    exact breaks.elim agent fun rest => rest.elim (tool ▸ plain) line

/-- When one of two entries under a key is erased, the other one is not found. -/
theorem Sound.not_coherent_erase (sound : s.Sound) (erased : e ∈ s.live) (live : e' ∈ s.live)
    (other : e'.inflightId ≠ e.inflightId) (has : e'.Has e.agentId e.key e.paramsHash) :
    ¬ Coherent
      { table := s.table.erase e.inflightId
        live := s.live.filter fun x => x.inflightId ≠ e.inflightId } := by
  intro coherent
  have stays : e' ∈ s.live.filter fun x => x.inflightId ≠ e.inflightId :=
    List.mem_filter.mpr ⟨live, decide_eq_true other⟩
  have found := (coherent.lookup _ _ _).mpr ⟨e', stays, has⟩
  rw [sound.erase.isSome_lookup] at found
  rw [InFlight.erase, (sound.stored _ e).mpr ⟨erased, rfl⟩] at found
  dsimp only at found
  rw [UnorderedMap.lookup_erase,
    if_pos (show InFlight.mapKey e.agentId e.key.str e.paramsHash = InFlight.entryKey e from rfl)]
    at found
  cases found

/-- What breaks the table makes it incoherent at once, if it was intact. -/
theorem Intact.not_coherent (h : s.Intact) (sound : s.Sound) (breaks : s.Breaks op)
    (step : s.step op = some s') : ¬ s'.Coherent := by
  cases op with
  | insert id agentId key hash summary now =>
    rw [InFlightLedger.step] at step
    split at step
    · cases step
    · next new =>
      cases step
      exact h.not_coherent_insert sound breaks new
  | setTaskId id taskId => exact breaks.elim
  | erase id =>
    obtain ⟨e, erased, rfl, e', live, other, has⟩ := breaks
    cases step
    exact sound.not_coherent_erase erased live other has

variable {h : List (TransitionSystem.Step InFlightLedger InFlightOp)}

theorem sound_of_run (run : machine.Run h s) : s.Sound :=
  run.invariant (fun _ first => first ▸ .empty) fun _ _ _ step sound => sound.step step

theorem intact_of_run (run : machine.Run h s) (fine : ∀ t ∈ h, ¬ t.pre.Breaks t.input) :
    s.Intact := by
  induction run with
  | start first =>
    subst first
    exact ⟨by simp, by simp⟩
  | next before step ih =>
    obtain ⟨last, earlier⟩ := List.forall_mem_cons.mp fine
    exact (ih earlier).step (sound_of_run before) last step

end InFlightLedger

open InFlightLedger in
/-- The table finds and counts what is live in every state of a run if and only if no part of a
key with a line break is inserted in it, and no entry is erased while another one is live under
its key. -/
theorem inflight_coherent_iff {h : List (TransitionSystem.Step InFlightLedger InFlightOp)}
    {s : InFlightLedger} (run : machine.Run h s) :
    (∀ t ∈ h, t.post.Coherent) ↔ ∀ t ∈ h, ¬ t.pre.Breaks t.input := by
  -- the first step that breaks the table shows at once, as it was intact before
  induction run with
  | start first => simp
  | next before step ih =>
    rw [List.forall_mem_cons, List.forall_mem_cons]
    constructor
    · rintro ⟨last, earlier⟩
      have fine := ih.mp earlier
      exact ⟨fun breaks => (intact_of_run before fine).not_coherent (sound_of_run before) breaks
        step last, fine⟩
    · rintro ⟨last, earlier⟩
      have sound := sound_of_run before
      exact ⟨((intact_of_run before earlier).step sound last step).coherent (sound.step step),
        ih.mpr earlier⟩

namespace CoherenceExample

def say : ToolKey := ⟨"echo", "say"⟩

/-- A call of one agent. -/
def call (id : String) : InFlightOp := .insert id "ann" say "5a" "" 0

/-- A call that gets a task, and another one after it. -/
def distinct : List InFlightOp := [call "1", .setTaskId "1" "tsk_1", .erase "1", call "2"]

/-- A call, a confirmed duplicate of it, and the end of the call. -/
def overlapping : List InFlightOp := [call "1", call "2", .erase "1"]

end CoherenceExample

open InFlightLedger CoherenceExample

/-- Calls that do not overlap. -/
theorem inflight_coherent_iff_distinct : ∃ h s, machine.Run h s ∧
    (s.table.lookup "ann" say "5a").isSome ∧ ∀ t ∈ h, t.post.Coherent := by
  obtain ⟨h, s, run, fine, found⟩ := TransitionSystem.exists_run (M := machine) distinct
    (fun s op => !decide (s.Breaks op)) (fun s => (s.table.lookup "ann" say "5a").isSome) rfl
    (by decide)
  exact ⟨h, s, run, found, (inflight_coherent_iff run).mpr fun t member => by
    simpa using fine t member⟩

/-- A call ends, and its duplicate, which still runs, is not found. -/
theorem duplicate_not_found : ∃ h s, machine.Run h s ∧ ¬ s.Coherent := by
  obtain ⟨h, s, run, -, lost⟩ := TransitionSystem.exists_run (M := machine) overlapping
    (fun _ _ => true)
    (fun s => decide (∃ e ∈ s.live, e.Has "ann" say "5a") &&
      (s.table.lookup "ann" say "5a").isNone) rfl (by decide)
  obtain ⟨live, none⟩ := Bool.and_eq_true _ _ |>.mp lost
  refine ⟨h, s, run, fun coherent => ?_⟩
  have found := (coherent.lookup "ann" say "5a").mpr (of_decide_eq_true live)
  rw [Option.isNone_iff_eq_none.mp none] at found
  cases found

end Perfacet
