import Perfacet.Policy.Access

/-!
# Public names

A tool that a principal is shown has a public name, and a call under that name has to reach
the same tool. The names are made by `ToolKey.str` from what the upstreams list and read back
by `ToolKey.parse`.

## Main definitions

* `ToolIndex.Reached` — the indexes that probes of a catalog lead to
* `FacetView.published` — the upstream tools that a principal is shown

## Main results

* `FacetView.names_listTools` — under which names the tools are listed
* `names_agree_iff` — when every name is read back as its tool
-/

namespace Perfacet

variable {catalog : Catalog} {index index' : ToolIndex} {who : Principal} {key : ToolKey}

/-! ## Indexes that probes lead to -/

namespace ToolIndex

/-- A tool is in the index. -/
def Has (index : ToolIndex) (key : ToolKey) : Prop :=
  ∃ tools, index.byBackend.lookup key.backend = some tools ∧ ∃ t ∈ tools, t.name = key.tool

/-- The indexes that probes of the backends of a catalog lead to. -/
inductive Reached (catalog : Catalog) : ToolIndex → Prop
  | cold : Reached catalog {}
  | probed {index index' : ToolIndex} (server : String) (toolList : Option Json) :
      Reached catalog index → (catalog.find server).isSome →
      IndexRefresher.onProbeResult index server toolList = .ok index' → Reached catalog index'

/-- A probe changes nothing, or replaces one backend's list, whatever the index holds. -/
theorem onProbeResult_spec {server : String} {toolList : Option Json}
    (probed : IndexRefresher.onProbeResult index server toolList = .ok index') :
    (index' = index ∧ ∀ i, IndexRefresher.onProbeResult i server toolList = .ok i) ∨
      ∃ tools, index' = index.replace server tools ∧
        ∀ i : ToolIndex, IndexRefresher.onProbeResult i server toolList = .ok
          (i.replace server tools) := by
  unfold IndexRefresher.onProbeResult at probed ⊢
  split at probed
  · next items _ =>
    cases listed : IndexRefresher.tools items with
    | error e =>
      rw [listed] at probed
      cases probed
    | ok tools =>
      rw [listed] at probed
      exact .inr ⟨tools, (Except.ok.inj probed).symm, fun i => rfl⟩
  · exact .inl ⟨(Except.ok.inj probed).symm, fun i => rfl⟩

/-- Only backends of the catalog are in the index. -/
theorem Reached.find (reached : Reached catalog index) {server : String} {tools : List IndexedTool}
    (listed : index.byBackend.lookup server = some tools) : (catalog.find server).isSome := by
  induction reached generalizing tools with
  | cold => simp [AList.lookup_empty] at listed
  | probed name toolList _ known probed ih =>
    rcases onProbeResult_spec probed with ⟨rfl, -⟩ | ⟨new, rfl, -⟩
    · exact ih listed
    · rw [replace, UnorderedMap.lookup_insert] at listed
      split at listed
      · next same => exact same ▸ known
      · exact ih listed

end ToolIndex

/-- Every entry of the catalog comes from the configuration. -/
theorem Catalog.mem_of_find_ofBackends {backends : List BackendCfg} {name : String}
    (found : ((Catalog.ofBackends backends).find name).isSome) :
    ∃ b ∈ backends, b.name = name := by
  induction backends using List.reverseRecOn with
  | nil => simp [Catalog.ofBackends, Catalog.find, AList.lookup_empty] at found
  | append_singleton earlier b ih =>
    rw [Catalog.ofBackends, List.foldl_append] at found
    simp only [List.foldl_cons, List.foldl_nil, Catalog.add, Catalog.find,
      UnorderedMap.lookup_insert] at found
    split at found
    · next same => exact ⟨b, by simp, same.symm⟩
    · obtain ⟨b', member, same⟩ := ih found
      exact ⟨b', by simp [member], same⟩

/-! ## What is shown -/

namespace FacetView

/-- The upstream tools that a principal is shown. -/
def published (catalog : Catalog) (index : ToolIndex) (who : Principal) : List ToolKey :=
  (index.byBackend.entries.flatMap fun e => e.2.map fun t => ⟨e.1, t.name⟩).filter fun key =>
    decide (RankPolicy.authorizeCall catalog who key = .allow)

theorem mem_published : key ∈ published catalog index who ↔
    index.Has key ∧ RankPolicy.authorizeCall catalog who key = .allow := by
  rw [published, List.mem_filter, decide_eq_true_eq, List.mem_flatMap]
  refine and_congr_left fun _ => ?_
  constructor
  · rintro ⟨⟨backend, tools⟩, member, listed⟩
    obtain ⟨t, tool, rfl⟩ := List.mem_map.mp listed
    exact ⟨tools, UnorderedMap.mem_entries_iff.mp member, t, tool, rfl⟩
  · rintro ⟨tools, listed, t, tool, same⟩
    refine ⟨⟨key.backend, tools⟩, UnorderedMap.mem_entries_iff.mpr listed, ?_⟩
    exact List.mem_map.mpr ⟨t, tool, by rw [same]⟩

/-- The built-in tools that a principal is shown. -/
def builtin (catalog : Catalog) (who : Principal) : List ToolKey :=
  [⟨"perfacet", "request_elevation"⟩, ⟨"perfacet", "upstream_status"⟩].filter fun key =>
    decide (RankPolicy.authorizeCall catalog who key = .allow)

theorem name_indexedItem (key : ToolKey) (t : IndexedTool) :
    (indexedItem key t).field? "name" = some (.str key.str) := by
  simp [indexedItem, Json.ofMembers, Json.field?, Json.lookup_setField]

theorem name_builtinItem (key : ToolKey) :
    (builtinItem key).field? "name" = some (.str key.str) := by
  unfold builtinItem
  split <;> simp [Json.ofMembers, Json.field?, Json.lookup_setField]

/-- The list has one item for each tool that is shown, under its public name. -/
theorem names_listTools : ∃ items, listTools catalog index who = .arr items ∧
    items.map (·.field? "name") =
      (published catalog index who ++ builtin catalog who).map fun key => some (.str key.str) := by
  refine ⟨_, rfl, ?_⟩
  rw [List.map_append, List.map_append]
  congr 1
  · rw [published]
    generalize index.byBackend.entries = entries
    induction entries with
    | nil => rfl
    | cons e rest ih =>
      simp only [List.flatMap_cons, List.filter_append, List.map_append, ih, List.filter_map,
        List.map_map]
      congr 1
      exact List.map_congr_left fun t _ => name_indexedItem _ t
  · simp only [builtin, List.filter_cons, List.filter_nil]
    split_ifs <;> simp [name_builtinItem]

end FacetView

/-! ## Names that agree -/

/-- A principal who may call every tool that there is. -/
def Principal.root : Principal :=
  { agentId := "", level := 0xFFFF, grantBump := 0, hasLevel := true, admin := true,
    levelName := "" }

theorem RankPolicy.authorizeCall_root
    (known : key.backend ≠ "perfacet" → (catalog.find key.backend).isSome) :
    RankPolicy.authorizeCall catalog .root key = .allow := by
  unfold RankPolicy.authorizeCall
  split
  · unfold RankPolicy.builtinDecision
    simp [Principal.root]
  · next upstream =>
    obtain ⟨e, found⟩ := Option.isSome_iff_exists.mp (known upstream)
    have top : ¬ effectiveRank .root < e.metaData.level := by
      have rank : effectiveRank .root = 0xFFFF := rfl
      have most := e.metaData.level.toNat_lt
      rw [rank, UInt16.lt_iff_toNat_lt]
      change ¬ 65535 < _
      omega
    have leveled : Principal.root.hasLevel = true := rfl
    simp [found, leveled, top]

/-- Every name that is shown is read back as its tool, and no two tools share a name, if and
only if no backend that was listed has a name that ends in an underscore and no listed tool
has an empty name. -/
theorem names_agree_iff {nodes backends : List BackendCfg}
    (loaded : YamlConfig.loadBackends nodes = .ok backends)
    (reached : ToolIndex.Reached (.ofBackends backends) index) :
    ((∀ who, ∀ key ∈ FacetView.published (.ofBackends backends) index who,
        ToolKey.parse key.str = some key ∧
          RankPolicy.authorizeCall (.ofBackends backends) who key = .allow) ∧
      ∀ key key', index.Has key → index.Has key' → key.str = key'.str → key = key') ↔
    ∀ key, index.Has key → key.tool ≠ "" ∧ key.backend.toList.getLast? ≠ some '_' := by
  have named : ∀ {key}, index.Has key → YamlConfig.NamesBackend key.backend := by
    rintro key ⟨tools, listed, -⟩
    obtain ⟨b, member, same⟩ := Catalog.mem_of_find_ofBackends (reached.find listed)
    exact same ▸ YamlConfig.loadBackends_spec loaded b member
  constructor
  · rintro ⟨agree, -⟩ key has
    -- Somebody is shown the tool.
    have shown : key ∈ FacetView.published (.ofBackends backends) index .root := by
      refine FacetView.mem_published.mpr ⟨has, RankPolicy.authorizeCall_root fun _ => ?_⟩
      obtain ⟨tools, listed, -⟩ := has
      exact reached.find listed
    exact (ToolKey.parse_str_iff (named has).nonempty (named has).plain).mp (agree _ key shown).1
  · intro readable
    have parsed : ∀ {key}, index.Has key → ToolKey.parse key.str = some key := fun has =>
      (ToolKey.parse_str_iff (named has).nonempty (named has).plain).mpr (readable _ has)
    constructor
    · intro who key shown
      obtain ⟨has, allowed⟩ := FacetView.mem_published.mp shown
      exact ⟨parsed has, allowed⟩
    · intro key key' has has' same
      exact ToolKey.eq_of_str_eq (parsed has) (parsed has') same

/-! ## An example -/

namespace VisibilityExample

/-- The list of an upstream with one tool. -/
def toolList (tool : String) : Json :=
  .ofMembers [("tools", .arr [.ofMembers [("name", .str tool)]])]

/-- The index once every backend has been probed. -/
def probed (lists : List (String × String)) : ToolIndex :=
  lists.foldl (fun index l => index.replace l.1 [⟨l.2, "", .object⟩]) {}

theorem onProbeResult_toolList (index : ToolIndex) (server tool : String) :
    IndexRefresher.onProbeResult index server (some (toolList tool)) =
      .ok (index.replace server [⟨tool, "", .object⟩]) := by
  simp [IndexRefresher.onProbeResult, toolList, Json.ofMembers, Json.field?, IndexRefresher.tools,
    IndexRefresher.tool, Json.getString, Json.valueString, Json.setField]
  rfl

/-- A backend that everybody may call. -/
def backend (name : String) : BackendCfg := ⟨name, "", ⟨0, false, []⟩⟩

theorem reached_probed (backends : List BackendCfg) (lists : List (String × String))
    (known : ∀ l ∈ lists, ((Catalog.ofBackends backends).find l.1).isSome) :
    ToolIndex.Reached (.ofBackends backends) (probed lists) := by
  induction lists using List.reverseRecOn with
  | nil => exact .cold
  | append_singleton earlier l ih =>
    rw [probed, List.foldl_append]
    exact .probed l.1 _ (ih fun l' member => known l' (by simp [member])) (known l (by simp))
      (onProbeResult_toolList _ l.1 l.2)

end VisibilityExample

open VisibilityExample in
/-- A backend and a tool with plain names. -/
theorem names_agree_iff_plain :
    (∀ who, ∀ key ∈ FacetView.published (.ofBackends [backend "a"]) (probed [("a", "t")]) who,
        ToolKey.parse key.str = some key ∧
          RankPolicy.authorizeCall (.ofBackends [backend "a"]) who key = .allow) ∧
      ∀ key key', (probed [("a", "t")]).Has key → (probed [("a", "t")]).Has key' →
        key.str = key'.str → key = key' := by
  have loaded : YamlConfig.loadBackends [backend "a"] = .ok [backend "a"] := by decide
  refine (names_agree_iff loaded (reached_probed _ _ (by decide))).mpr ?_
  rintro ⟨b, tool⟩ ⟨tools, listed, t, member, rfl⟩
  simp only [probed, List.foldl_cons, List.foldl_nil, ToolIndex.replace,
    UnorderedMap.lookup_insert] at listed
  split at listed
  · next same =>
    obtain rfl := Option.some.inj listed
    obtain rfl := List.mem_singleton.mp member
    rw [same]
    decide
  · simp [AList.lookup_empty] at listed

open VisibilityExample in
/-- The name of a backend ends in an underscore: its tool is shown under a name that is read
as another backend's, and that another backend's tool has as well. -/
theorem names_disagree : ∃ backends index key key' other,
    YamlConfig.loadBackends [backend "a", backend "a_"] = .ok backends ∧
      ToolIndex.Reached (.ofBackends backends) index ∧
      key ∈ FacetView.published (.ofBackends backends) index .root ∧
      ToolKey.parse key.str = some other ∧ other ≠ key ∧
      index.Has key' ∧ key'.str = key.str ∧ key' ≠ key := by
  refine ⟨[backend "a", backend "a_"], probed [("a", "_t"), ("a_", "t")], ⟨"a_", "t"⟩, ⟨"a", "_t"⟩,
    ⟨"a", "_t"⟩, by decide, reached_probed _ _ (by decide), by decide, by decide, by decide, ?_,
    by decide, by decide⟩
  exact ⟨[⟨"_t", "", .object⟩], rfl, _, List.mem_singleton_self _, rfl⟩

end Perfacet
