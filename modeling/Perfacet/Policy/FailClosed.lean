import Perfacet.Lib.Except
import Perfacet.Policy.Access
import Perfacet.Policy.YamlLoad

/-!
# What a configuration that loads is like

A document is taken only if its tokens and names tell agents and backends apart and every level it
names is one of `access.levels`. Then the comparison of ranks that authorises a call compares the
places of two names in that list: nobody is let in, or kept out, by a number that means no name.

Tools of a backend that is called like the gateway itself are not authorised that way: the policy
takes them for the gateway's own.

## Main definitions

* `LevelNamed` — the level that a node names, or that goes without saying
* `AgentEntry`, `BackendEntry` — what an entry of the document says of an agent or a backend
* `LoadedConfig.Lawful` — a configuration is what its document says, and nothing in it is ambiguous
* `Violates` — what no document may say

## Main results

* `LoadedConfig.lawful_of_load` — what is loaded is lawful
* `LoadedConfig.loadBackends_of_load` — its backends are a list that `YamlConfig.loadBackends` takes
* `config_fail_closed` — what is loaded is lawful, and ranks mean names
-/

namespace Perfacet

open YamlNode

/-! ## What a document says -/

section Document

variable (y : YamlReader)

/-- A node has a member with a text. -/
def Text (node : YamlNode) (key text : String) : Prop :=
  ∃ v, node.get key = .ok (some v) ∧ y.text v = some text

/-- A member that is false if it is left out. -/
def Flag (node : YamlNode) (key : String) (b : Bool) : Prop :=
  (∃ v, node.get key = .ok (some v) ∧ y.bool v = some b) ∨ node.get key = .ok none ∧ b = false

/-- The level of an agent or a backend: the one that it names, or the only one that there is. -/
def LevelNamed (levels : List String) (node : YamlNode) (name : String) : Prop :=
  Text y node "level" name ∨ node.get "level" = .ok none ∧ levels = [name]

/-- The names in `access.levels`. -/
def LevelsOf (root : YamlNode) (levels : List String) : Prop :=
  ∃ access items, root.get "access" = .ok (some access) ∧
    access.get "levels" = .ok (some (.sequence items)) ∧
    List.Forall₂ (fun n name => y.text n = some name) items levels

/-- The text of `access.elevation.max_level`. -/
def CeilingNamed (root : YamlNode) (name : String) : Prop :=
  ∃ access elevation, root.get "access" = .ok (some access) ∧
    access.get "elevation" = .ok (some elevation) ∧ Text y elevation "max_level" name

/-- What an entry of `agents` says of an agent; only an administrator has no level. -/
structure AgentEntry (levels : List String) (entry : YamlNode × YamlNode) (a : AgentCfg) :
    Prop where
  id : y.text entry.1 = some a.id
  token : Text y entry.2 "token" a.token
  named : a.token ≠ ""
  admin : Flag y entry.2 "admin" a.admin
  bare : a.hasLevel = false → a.admin = true ∧ entry.2.get "level" = .ok none
  levelled : a.hasLevel = true → LevelNamed y levels entry.2 a.levelName
  rank : a.hasLevel = true → levels[a.level.toNat]? = some a.levelName
  low : a.level.toNat < levels.length

/-- What an element of `backends` says of a backend. -/
structure BackendEntry (levels : List String) (node : YamlNode) (b : NamedBackend) : Prop where
  name : Text y node "name" b.name
  named : YamlConfig.NamesBackend b.name
  levelled : LevelNamed y levels node b.levelName
  rank : levels[b.metaData.level.toNat]? = some b.levelName

end Document

/-- Of two names in a list the first stands at or after the second. -/
def AtOrAfter (levels : List String) (x y : String) : Prop :=
  ∃ i j : ℕ, levels[i]? = some x ∧ levels[j]? = some y ∧ j ≤ i

namespace LoadedConfig

/-- The configuration is what the document says, and nothing in it is ambiguous. -/
structure Lawful (y : YamlReader) (root : YamlNode) (c : LoadedConfig) : Prop where
  levels : LevelsOf y root c.taxonomy.levels
  ordered : c.taxonomy.levels.Nodup
  ceiling : c.taxonomy.levels[c.elevationMax.toNat]? = some c.elevationMaxName
  ceilingNamed : ∀ name, CeilingNamed y root name → c.elevationMaxName = name
  agents : ∃ entries, root.get "agents" = .ok (some (.map entries)) ∧
    List.Forall₂ (AgentEntry y c.taxonomy.levels) entries c.agents
  tokens : (c.agents.map AgentCfg.token).Nodup
  backends : ∃ items, root.get "backends" = .ok (some (.sequence items)) ∧
    List.Forall₂ (BackendEntry y c.taxonomy.levels) items c.backends
  names : (c.backends.map fun b => b.name).Nodup

/-- The principal of every token is allowed on a tool of a backend if and only if it has a level,
and the name of that stands at or after the name of the backend's level. -/
def RanksMeanNames (c : LoadedConfig) : Prop :=
  ∀ a ∈ c.agents, ∃ p, (YamlIdentityStore.ofAgents c.agents).authenticate a.token = some p ∧
    ∀ b ∈ c.backends, b.name ≠ "perfacet" → ∀ tool,
      (RankPolicy.authorizeCall (.ofBackends (c.backends.map NamedBackend.toBackendCfg)) p
          ⟨b.name, tool⟩ = .allow ↔
        a.hasLevel = true ∧ AtOrAfter c.taxonomy.levels a.levelName b.levelName)

end LoadedConfig

/-! ## Levels -/

variable {y : YamlReader} {root node : YamlNode} {t : Taxonomy} {levels : List String}
  {name : String} {rank : Rank} {access : AccessSettings}

/-- A round of the constructor's loop adds a name that was not there. -/
theorem Taxonomy.addLevel_spec (seen : List String) (name : String) (seen' : List String)
    (added : addLevel seen name = .ok seen') (distinct : seen.Nodup) :
    ∃ name', seen' = seen ++ [name'] ∧ name = name' ∧ seen'.Nodup := by
  unfold addLevel at added
  split_ifs at added with empty again
  obtain rfl := Except.ok.inj added
  refine ⟨name, rfl, rfl, ?_⟩
  rw [← List.concat_eq_append]
  exact distinct.concat again

theorem Taxonomy.make_spec (made : Taxonomy.make levels = .ok t) :
    t.levels = levels ∧ levels ≠ [] ∧ levels.Nodup ∧ levels.length < 2 ^ 16 := by
  unfold make at made
  obtain ⟨_, nonempty, made⟩ := Except.bind_eq_ok.mp made
  obtain ⟨seen, looped, made⟩ := Except.bind_eq_ok.mp made
  split_ifs at made with short
  obtain rfl := Except.ok.inj made
  obtain ⟨new, rfl, same, distinct⟩ := Except.foldlM_append addLevel_spec looped List.nodup_nil
  rw [List.forall₂_eq_eq_eq] at same
  obtain rfl := same
  rw [List.take_of_length_le short.le] at distinct ⊢
  exact ⟨rfl, reject_eq_ok.mp nonempty, distinct, short⟩

/-- The rank of a name is its place. -/
theorem Taxonomy.parse_spec (short : t.levels.length < 2 ^ 16) (parsed : t.parse name = some rank) :
    t.levels[rank.toNat]? = some name := by
  obtain ⟨i, found, rfl⟩ := Option.map_eq_some_iff.mp parsed
  obtain ⟨low, here, -⟩ := List.findIdx?_eq_some_iff_getElem.mp found
  have small : (UInt16.ofNat i).toNat = i := UInt16.toNat_ofNat_of_lt' (low.trans short)
  rw [small, List.getElem?_eq_getElem low, of_decide_eq_true here]

theorem Taxonomy.nameOf_spec (here : rank.toNat < t.levels.length) :
    t.levels[rank.toNat]? = some (t.nameOf rank) := by
  rw [nameOf, List.getD_eq_getElem?_getD, List.getElem?_eq_getElem here, Option.getD_some]

theorem required_eq_ok {who key text : String} :
    LoadedConfig.required y who key node = .ok text ↔ Text y node key text := by
  rw [LoadedConfig.required, Except.bind_eq_ok, Text]
  constructor
  · rintro ⟨found, here, read⟩
    cases found with
    | none => cases read
    | some v => exact ⟨v, here, as_eq_ok.mp read⟩
  · rintro ⟨v, here, read⟩
    exact ⟨some v, here, as_eq_ok.mpr read⟩

theorem flag_of_setting {key : String} {b : Bool} (read : node.setting key y.bool false = .ok b) :
    Flag y node key b := by
  obtain ⟨found, here, read⟩ := Except.bind_eq_ok.mp read
  cases found with
  | none => exact .inr ⟨here, (Except.ok.inj read).symm⟩
  | some v => exact .inl ⟨v, here, as_eq_ok.mp read⟩

/-- Unless it is exempt, what is read has a level, and its rank is the place of the level's name. -/
theorem levelOf_spec {who : String} {exempt : Bool} {level : Option (Rank × String)}
    (short : t.levels.length < 2 ^ 16)
    (read : LoadedConfig.levelOf y t who exempt node = .ok level) :
    level = none ∧ exempt = true ∧ node.get "level" = .ok none ∨
      ∃ rank name, level = some (rank, name) ∧ LevelNamed y t.levels node name ∧
        t.levels[rank.toNat]? = some name := by
  obtain ⟨found, here, read⟩ := Except.bind_eq_ok.mp read
  cases found with
  | none =>
    dsimp only at read
    split_ifs at read with free single
    · exact .inl ⟨(Except.ok.inj read).symm, free, here⟩
    · obtain ⟨only, same⟩ := List.length_eq_one_iff.mp single
      have first : t.nameOf 0 = only := by simp [Taxonomy.nameOf, same]
      refine .inr ⟨0, only, first ▸ (Except.ok.inj read).symm, .inr ⟨here, same⟩, ?_⟩
      rw [same]
      rfl
  | some v =>
    obtain ⟨name, text, read⟩ := Except.bind_eq_ok.mp read
    cases parsed : t.parse name with
    | none =>
      rw [parsed] at read
      cases read
    | some rank =>
      rw [parsed] at read
      exact .inr ⟨rank, name, (Except.ok.inj read).symm, .inl ⟨v, here, as_eq_ok.mp text⟩,
        Taxonomy.parse_spec short parsed⟩

/-- An element whose key is new comes behind others with distinct keys. -/
theorem nodup_map_append_singleton {α β : Type} {key : α → β} {xs : List α} {x : α}
    (distinct : (xs.map key).Nodup) (new : key x ∉ xs.map key) : ((xs ++ [x]).map key).Nodup := by
  rw [List.map_append, List.map_singleton, ← List.concat_eq_append]
  exact distinct.concat new

/-- What stands at one place in two lists. -/
theorem forall₂_getElem? {α β : Type} {R : α → β → Prop} {xs : List α} {ys : List β}
    (all : List.Forall₂ R xs ys) {i : ℕ} {x : α} (here : xs[i]? = some x) :
    ∃ y, ys[i]? = some y ∧ R x y := by
  induction all generalizing i with
  | nil => cases here
  | cons head _ ih =>
    cases i with
    | zero => exact ⟨_, rfl, Option.some.inj here ▸ head⟩
    | succ i => exact ih here

/-- What an element of the one list is for in the other. -/
theorem forall₂_mem {α β : Type} {R : α → β → Prop} {xs : List α} {ys : List β}
    (all : List.Forall₂ R xs ys) {x : α} (member : x ∈ xs) : ∃ y ∈ ys, R x y := by
  obtain ⟨i, here⟩ := List.mem_iff_getElem?.mp member
  obtain ⟨y, there, related⟩ := forall₂_getElem? all here
  exact ⟨y, List.mem_iff_getElem?.mpr ⟨i, there⟩, related⟩

/-! ## What is loaded -/

namespace LoadedConfig

theorem accessLevels_spec {access : YamlNode} {items : List YamlNode}
    (loaded : accessLevels root = .ok (access, items)) :
    root.get "access" = .ok (some access) ∧
      access.get "levels" = .ok (some (.sequence items)) := by
  obtain ⟨found, here, loaded⟩ := Except.bind_eq_ok.mp loaded
  cases found with
  | none => cases loaded
  | some access =>
    obtain ⟨levels, there, loaded⟩ := Except.bind_eq_ok.mp loaded
    split at loaded
    · cases loaded
      exact ⟨here, there⟩
    · cases loaded

/-- A section on elevations may set the ceiling, to a level by its name. -/
theorem loadElevation_spec {c : AccessSettings} {el : YamlNode}
    (loaded : loadElevation y c el = .ok access) : access.taxonomy = c.taxonomy ∧
      (el.get "max_level" = .ok none ∧ access.elevationMax = c.elevationMax ∧
          access.elevationMaxName = c.elevationMaxName ∨
        Text y el "max_level" access.elevationMaxName ∧
          c.taxonomy.parse access.elevationMaxName = some access.elevationMax) := by
  obtain ⟨ttl, -, loaded⟩ := Except.bind_eq_ok.mp loaded
  obtain ⟨found, here, loaded⟩ := Except.bind_eq_ok.mp loaded
  cases found with
  | none =>
    cases loaded
    exact ⟨rfl, .inl ⟨here, rfl, rfl⟩⟩
  | some v =>
    obtain ⟨name, text, loaded⟩ := Except.bind_eq_ok.mp loaded
    dsimp only at loaded
    cases parsed : c.taxonomy.parse name with
    | none =>
      rw [parsed] at loaded
      cases loaded
    | some rank =>
      rw [parsed] at loaded
      cases loaded
      exact ⟨rfl, .inr ⟨⟨v, here, as_eq_ok.mp text⟩, parsed⟩⟩

/-- The names of the levels are those of the document, and the ceiling is one of them. -/
theorem loadAccess_spec (loaded : loadAccess y root = .ok access) :
    LevelsOf y root access.taxonomy.levels ∧ access.taxonomy.levels ≠ [] ∧
      access.taxonomy.levels.Nodup ∧ access.taxonomy.levels.length < 2 ^ 16 ∧
      access.taxonomy.levels[access.elevationMax.toNat]? = some access.elevationMaxName ∧
      ∀ name, CeilingNamed y root name → access.elevationMaxName = name := by
  obtain ⟨⟨access, items⟩, lists, loaded⟩ := Except.bind_eq_ok.mp loaded
  obtain ⟨levels, texts, loaded⟩ := Except.bind_eq_ok.mp loaded
  obtain ⟨t, made, loaded⟩ := Except.bind_eq_ok.mp loaded
  obtain ⟨found, here, loaded⟩ := Except.bind_eq_ok.mp loaded
  obtain ⟨there, inside⟩ := accessLevels_spec lists
  obtain ⟨rfl, nonempty, ordered, short⟩ := Taxonomy.make_spec made
  have named : LevelsOf y root t.levels := by
    refine ⟨access, items, there, inside, (Except.mapM_eq_ok.mp texts).imp fun n name => ?_⟩
    exact as_eq_ok.mp
  have only : ∀ {name}, CeilingNamed y root name →
      ∃ el, found = some el ∧ Text y el "max_level" name := by
    rintro name ⟨access', el, there', inside', text⟩
    rw [there] at there'
    cases there'
    rw [here] at inside'
    cases inside'
    exact ⟨el, rfl, text⟩
  have top : t.levels[t.maxRank.toNat]? = some (t.nameOf t.maxRank) := by
    apply Taxonomy.nameOf_spec
    have last : t.levels.length - 1 < 2 ^ 16 := (Nat.sub_le _ _).trans_lt short
    rw [Taxonomy.maxRank, if_neg nonempty, UInt16.toNat_ofNat_of_lt' last]
    exact Nat.sub_one_lt (List.length_pos_iff.mpr nonempty).ne'
  cases found with
  | none =>
    cases loaded
    refine ⟨named, nonempty, ordered, short, top, fun name ceiling => ?_⟩
    obtain ⟨el, none, -⟩ := only ceiling
    cases none
  | some el =>
    obtain ⟨taxonomy, kept⟩ := loadElevation_spec loaded
    rw [taxonomy]
    refine ⟨named, nonempty, ordered, short, ?_⟩
    rcases kept with ⟨absent, max, maxName⟩ | ⟨text, parsed⟩
    · rw [max, maxName]
      refine ⟨top, fun name ceiling => ?_⟩
      obtain ⟨el', same, v, present, -⟩ := only ceiling
      cases same
      rw [absent] at present
      cases present
    · refine ⟨Taxonomy.parse_spec short parsed, fun name ceiling => ?_⟩
      obtain ⟨el', same, v, present, text'⟩ := only ceiling
      cases same
      obtain ⟨v', present', text⟩ := text
      rw [present] at present'
      cases present'
      exact Option.some.inj (text.symm.trans text')

/-- A round of the loop over the agents adds what its entry says. -/
theorem addAgent_spec {agents agents' : List AgentCfg} {entry : YamlNode × YamlNode}
    (nonempty : t.levels ≠ []) (short : t.levels.length < 2 ^ 16)
    (added : addAgent y t agents entry = .ok agents') (tokens : (agents.map AgentCfg.token).Nodup) :
    ∃ a, agents' = agents ++ [a] ∧ AgentEntry y t.levels entry a ∧
      (agents'.map AgentCfg.token).Nodup := by
  obtain ⟨id, id', added⟩ := Except.bind_eq_ok.mp added
  obtain ⟨token, token', added⟩ := Except.bind_eq_ok.mp added
  obtain ⟨_, named, added⟩ := Except.bind_eq_ok.mp added
  obtain ⟨_, new, added⟩ := Except.bind_eq_ok.mp added
  obtain ⟨admin, admin', added⟩ := Except.bind_eq_ok.mp added
  obtain ⟨level, level', added⟩ := Except.bind_eq_ok.mp added
  have distinct : ∀ a : AgentCfg, a.token = token →
      ((agents ++ [a]).map AgentCfg.token).Nodup := by
    rintro a rfl
    exact nodup_map_append_singleton tokens (reject_eq_ok.mp new)
  rcases levelOf_spec short level' with ⟨rfl, free, absent⟩ | ⟨rank, name, rfl, levelled, place⟩
  · obtain rfl := Except.ok.inj added
    exact ⟨_, rfl, { id := as_eq_ok.mp id', token := required_eq_ok.mp token',
                     named := reject_eq_ok.mp named, admin := flag_of_setting admin',
                     bare := fun _ => ⟨free, absent⟩, levelled := nofun, rank := nofun,
                     low := List.length_pos_iff.mpr nonempty }, distinct _ rfl⟩
  · obtain rfl := Except.ok.inj added
    exact ⟨_, rfl, { id := as_eq_ok.mp id', token := required_eq_ok.mp token',
                     named := reject_eq_ok.mp named, admin := flag_of_setting admin',
                     bare := nofun, levelled := fun _ => levelled,
                     rank := fun _ => place,
                     low := (List.getElem?_eq_some_iff.mp place).1 }, distinct _ rfl⟩

/-- A round of the loop over the backends adds what its element says. -/
theorem addBackend_spec {backends backends' : List NamedBackend}
    (short : t.levels.length < 2 ^ 16)
    (added : addBackend y t backends node = .ok backends')
    (names : (backends.map fun b => b.name).Nodup) :
    ∃ b, backends' = backends ++ [b] ∧ BackendEntry y t.levels node b ∧
      (backends'.map fun b => b.name).Nodup := by
  obtain ⟨name, name', added⟩ := Except.bind_eq_ok.mp added
  obtain ⟨_, nonempty, added⟩ := Except.bind_eq_ok.mp added
  obtain ⟨_, plain, added⟩ := Except.bind_eq_ok.mp added
  obtain ⟨_, new, added⟩ := Except.bind_eq_ok.mp added
  obtain ⟨url, -, added⟩ := Except.bind_eq_ok.mp added
  obtain ⟨level, level', added⟩ := Except.bind_eq_ok.mp added
  obtain ⟨secret, -, added⟩ := Except.bind_eq_ok.mp added
  obtain ⟨idempotentTools, -, added⟩ := Except.bind_eq_ok.mp added
  rcases levelOf_spec short level' with ⟨-, free, -⟩ | ⟨rank, levelName, rfl, levelled, place⟩
  · cases free
  · obtain rfl := Except.ok.inj added
    exact ⟨_, rfl, { name := required_eq_ok.mp name',
                     named := ⟨reject_eq_ok.mp nonempty, reject_eq_ok.mp plain⟩,
                     levelled := levelled, rank := place },
      nodup_map_append_singleton names (reject_eq_ok.mp new)⟩

theorem loadAgents_spec {agents : List AgentCfg} (nonempty : t.levels ≠ [])
    (short : t.levels.length < 2 ^ 16) (loaded : loadAgents y t root = .ok agents) :
    ∃ entries, root.get "agents" = .ok (some (.map entries)) ∧
      List.Forall₂ (AgentEntry y t.levels) entries agents ∧
      (agents.map AgentCfg.token).Nodup := by
  obtain ⟨found, here, loaded⟩ := Except.bind_eq_ok.mp loaded
  split at loaded
  · next entries =>
    obtain ⟨agents', looped, loaded⟩ := Except.bind_eq_ok.mp loaded
    obtain ⟨_, -, loaded⟩ := Except.bind_eq_ok.mp loaded
    obtain rfl := Except.ok.inj loaded
    obtain ⟨new, rfl, all, tokens⟩ := Except.foldlM_append
      (fun _ _ _ added tokens => addAgent_spec nonempty short added tokens) looped List.nodup_nil
    exact ⟨entries, here, all, tokens⟩
  · cases loaded

theorem loadBackends_spec {backends : List NamedBackend} (short : t.levels.length < 2 ^ 16)
    (loaded : loadBackends y t root = .ok backends) : backends ≠ [] ∧
    ∃ items, root.get "backends" = .ok (some (.sequence items)) ∧
      List.Forall₂ (BackendEntry y t.levels) items backends ∧
      (backends.map fun b => b.name).Nodup := by
  obtain ⟨found, here, loaded⟩ := Except.bind_eq_ok.mp loaded
  split at loaded
  · next items =>
    obtain ⟨backends', looped, loaded⟩ := Except.bind_eq_ok.mp loaded
    obtain ⟨_, nonempty, loaded⟩ := Except.bind_eq_ok.mp loaded
    obtain rfl := Except.ok.inj loaded
    obtain ⟨new, rfl, all, names⟩ := Except.foldlM_append
      (fun _ _ _ added names => addBackend_spec short added names) looped List.nodup_nil
    exact ⟨reject_eq_ok.mp nonempty, items, here, all, names⟩
  · cases loaded

/-- The backends of a document that loads are a list that `YamlConfig.loadBackends` takes. -/
theorem loadBackends_toBackendCfg {backends : List NamedBackend}
    (short : t.levels.length < 2 ^ 16) (loaded : loadBackends y t root = .ok backends) :
    YamlConfig.loadBackends (backends.map NamedBackend.toBackendCfg) =
      .ok (backends.map NamedBackend.toBackendCfg) := by
  obtain ⟨nonempty, items, -, all, names⟩ := loadBackends_spec short loaded
  refine YamlConfig.loadBackends_of_named (by simpa using nonempty) (fun b member => ?_) ?_
  · obtain ⟨b, entry, rfl⟩ := List.mem_map.mp member
    obtain ⟨item, -, said⟩ := forall₂_mem all.flip entry
    exact said.named
  · rwa [List.map_map]

/-- A configuration that is loaded is what its document says, and nothing in it is ambiguous. -/
theorem lawful_of_load {path : String} {c : LoadedConfig}
    (loaded : load y path (.ok root) = .ok c) : c.Lawful y root := by
  obtain ⟨_, -, loaded⟩ := Except.bind_eq_ok.mp loaded
  obtain ⟨server, -, loaded⟩ := Except.bind_eq_ok.mp loaded
  obtain ⟨access, access', loaded⟩ := Except.bind_eq_ok.mp loaded
  obtain ⟨agents, agents', loaded⟩ := Except.bind_eq_ok.mp loaded
  obtain ⟨backends, backends', loaded⟩ := Except.bind_eq_ok.mp loaded
  obtain ⟨tuning, -, loaded⟩ := Except.bind_eq_ok.mp loaded
  obtain rfl := Except.ok.inj loaded
  obtain ⟨levels, nonempty, ordered, short, ceiling, ceilingNamed⟩ := loadAccess_spec access'
  obtain ⟨entries, entries', agents'', tokens⟩ := loadAgents_spec nonempty short agents'
  obtain ⟨-, items, items', backends'', names⟩ := loadBackends_spec short backends'
  exact { levels := levels, ordered := ordered, ceiling := ceiling, ceilingNamed := ceilingNamed,
          agents := ⟨entries, entries', agents''⟩, tokens := tokens,
          backends := ⟨items, items', backends''⟩, names := names }

/-- So the results about the tools of a list of backends are about those of a configuration. -/
theorem loadBackends_of_load {path : String} {c : LoadedConfig}
    (loaded : load y path (.ok root) = .ok c) :
    YamlConfig.loadBackends (c.backends.map NamedBackend.toBackendCfg) =
      .ok (c.backends.map NamedBackend.toBackendCfg) := by
  obtain ⟨_, -, loaded⟩ := Except.bind_eq_ok.mp loaded
  obtain ⟨server, -, loaded⟩ := Except.bind_eq_ok.mp loaded
  obtain ⟨access, access', loaded⟩ := Except.bind_eq_ok.mp loaded
  obtain ⟨agents, -, loaded⟩ := Except.bind_eq_ok.mp loaded
  obtain ⟨backends, backends', loaded⟩ := Except.bind_eq_ok.mp loaded
  obtain ⟨tuning, -, loaded⟩ := Except.bind_eq_ok.mp loaded
  obtain rfl := Except.ok.inj loaded
  obtain ⟨-, -, -, short, -⟩ := loadAccess_spec access'
  exact loadBackends_toBackendCfg short backends'

/-! ## What ranks mean -/

/-- The comparison of two ranks is that of the places of their names. -/
theorem atOrAfter_iff {r r' : Rank} {name' : String} (ordered : levels.Nodup)
    (place : levels[r.toNat]? = some name) (place' : levels[r'.toNat]? = some name') :
    AtOrAfter levels name name' ↔ r' ≤ r := by
  have only : ∀ {i : ℕ} {r : Rank} {name : String}, levels[r.toNat]? = some name →
      levels[i]? = some name → i = r.toNat := by
    intro i r name here there
    have low := (List.getElem?_eq_some_iff.mp there).1
    exact (List.getElem?_inj low ordered).mp (there.trans here.symm)
  constructor
  · rintro ⟨i, j, here, there, after⟩
    rw [only place here, only place' there] at after
    exact UInt16.le_iff_toNat_le.mpr after
  · exact fun below => ⟨_, _, place, place', UInt16.le_iff_toNat_le.mp below⟩

/-- The catalog has what the configuration says of a backend. -/
theorem find_ofBackends {backends : List NamedBackend} {b : NamedBackend}
    (names : (backends.map fun b => b.name).Nodup) (member : b ∈ backends) :
    (Catalog.ofBackends (backends.map NamedBackend.toBackendCfg)).find b.name =
      some { name := b.name, url := b.url, metaData := b.metaData, backend := true } := by
  have distinct : ((backends.map NamedBackend.toBackendCfg).map BackendCfg.name).Nodup := by
    rwa [List.map_map]
  exact UnorderedMap.lookup_foldl_insert BackendCfg.name
    (fun b => ({ name := b.name, url := b.url, metaData := b.metaData, backend := true } :
      CatalogEntry)) distinct (List.mem_map_of_mem member) ∅

/-- Every agent has a token of its own. -/
theorem authenticate_ofAgents {agents : List AgentCfg} {a : AgentCfg}
    (tokens : (agents.map AgentCfg.token).Nodup) (member : a ∈ agents) :
    (YamlIdentityStore.ofAgents agents).authenticate a.token =
      some { agentId := a.id, level := a.level, grantBump := 0, hasLevel := a.hasLevel,
             admin := a.admin, levelName := a.levelName } := by
  have found : (YamlIdentityStore.ofAgents agents).byToken.lookup a.token = some a :=
    UnorderedMap.lookup_foldl_insert AgentCfg.token (fun a => a) tokens member ∅
  rw [YamlIdentityStore.authenticate, found]
  rfl

/-- Without a grant a principal has the rank of its level. -/
theorem effectiveRank_of_no_grant (agentId : String) (level : Rank) (hasLevel admin : Bool)
    (levelName : String) : effectiveRank { agentId := agentId, level := level, grantBump := 0,
                                           hasLevel := hasLevel, admin := admin,
                                           levelName := levelName } = level := by
  rw [effectiveRank]
  split_ifs with raised
  · rfl
  · exact (UInt16.le_zero_iff.mp (Std.not_lt.mp raised)).symm

/-- In a lawful configuration ranks mean names. -/
theorem Lawful.ranksMeanNames {c : LoadedConfig} (lawful : c.Lawful y root) :
    c.RanksMeanNames := by
  intro a member
  refine ⟨_, authenticate_ofAgents lawful.tokens member, fun b member' foreign tool => ?_⟩
  obtain ⟨entries, -, agents⟩ := lawful.agents
  obtain ⟨items, -, backends⟩ := lawful.backends
  obtain ⟨entry, -, said⟩ := forall₂_mem agents.flip member
  obtain ⟨item, -, said'⟩ := forall₂_mem backends.flip member'
  rw [RankPolicy.authorizeCall, if_neg foreign, find_ofBackends lawful.names member']
  by_cases levelled : a.hasLevel = true
  · rw [atOrAfter_iff lawful.ordered (said.rank levelled) said'.rank]
    simp only [levelled, effectiveRank_of_no_grant, Bool.not_true, Bool.false_eq_true, if_false,
      true_and]
    by_cases below : a.level < b.metaData.level
    · rw [if_pos below]
      refine iff_of_false ?_ (Std.not_le.mpr below)
      split_ifs <;> simp
    · rw [if_neg below]
      exact iff_of_true rfl (Std.not_lt.mp below)
  · simp [levelled]

end LoadedConfig

/-! ## Documents that are not taken -/

/-- What no document may say: a token that is missing, empty or given twice, a name of a backend
that is none or is given twice, a level that is none or is missing though there are several. -/
inductive Violates (y : YamlReader) (root : YamlNode) : Prop
  | token {entries : List (YamlNode × YamlNode)} {entry : YamlNode × YamlNode}
      (agents : root.get "agents" = .ok (some (.map entries))) (member : entry ∈ entries)
      (bad : ∀ token, Text y entry.2 "token" token → token = "")
  | sameToken {entries : List (YamlNode × YamlNode)} {i j : ℕ} {e e' : YamlNode × YamlNode}
      {token : String} (agents : root.get "agents" = .ok (some (.map entries))) (other : i ≠ j)
      (here : entries[i]? = some e) (there : entries[j]? = some e')
      (first : Text y e.2 "token" token) (second : Text y e'.2 "token" token)
  | agentLevel {entries : List (YamlNode × YamlNode)} {entry : YamlNode × YamlNode}
      {levels : List String} (known : LevelsOf y root levels)
      (agents : root.get "agents" = .ok (some (.map entries))) (member : entry ∈ entries)
      (bound : ¬ (Flag y entry.2 "admin" true ∧ entry.2.get "level" = .ok none))
      (bad : ∀ name, LevelNamed y levels entry.2 name → name ∉ levels)
  | backendName {items : List YamlNode} {item : YamlNode}
      (backends : root.get "backends" = .ok (some (.sequence items))) (member : item ∈ items)
      (bad : ∀ name, Text y item "name" name → ¬ YamlConfig.NamesBackend name)
  | sameName {items : List YamlNode} {i j : ℕ} {b b' : YamlNode} {name : String}
      (backends : root.get "backends" = .ok (some (.sequence items))) (other : i ≠ j)
      (here : items[i]? = some b) (there : items[j]? = some b')
      (first : Text y b "name" name) (second : Text y b' "name" name)
  | backendLevel {items : List YamlNode} {item : YamlNode} {levels : List String}
      (known : LevelsOf y root levels)
      (backends : root.get "backends" = .ok (some (.sequence items))) (member : item ∈ items)
      (bad : ∀ name, LevelNamed y levels item name → name ∉ levels)
  | ceiling {levels : List String} {name : String} (known : LevelsOf y root levels)
      (named : CeilingNamed y root name) (bad : name ∉ levels)
  | levels {levels : List String} (known : LevelsOf y root levels)
      (bad : levels = [] ∨ ¬ levels.Nodup)

theorem Text.eq {key text text' : String} (h : Text y node key text)
    (h' : Text y node key text') : text = text' := by
  obtain ⟨v, here, read⟩ := h
  obtain ⟨v', there, read'⟩ := h'
  rw [here] at there
  cases there
  exact Option.some.inj (read.symm.trans read')

theorem LevelsOf.eq {levels' : List String} (h : LevelsOf y root levels)
    (h' : LevelsOf y root levels') : levels = levels' := by
  obtain ⟨access, items, here, inside, names⟩ := h
  obtain ⟨access', items', there, inside', names'⟩ := h'
  rw [here] at there
  cases there
  rw [inside] at inside'
  cases inside'
  exact List.right_unique_forall₂' (fun _ _ _ read read' => Option.some.inj (read.symm.trans read'))
    names names'

/-- Two entries with one key are the same, if the keys of what they are for are distinct. -/
theorem place_eq {α β : Type} {key : β → String} {R : α → β → Prop} {xs : List α} {ys : List β}
    (all : List.Forall₂ R xs ys) (distinct : (ys.map key).Nodup) {i j : ℕ} {x x' : α} {k : String}
    (here : xs[i]? = some x) (there : xs[j]? = some x') (first : ∀ b, R x b → key b = k)
    (second : ∀ b, R x' b → key b = k) : i = j := by
  obtain ⟨b, place, said⟩ := forall₂_getElem? all here
  obtain ⟨b', place', said'⟩ := forall₂_getElem? all there
  have keyed : (ys.map key)[i]? = some k := by
    rw [List.getElem?_map, place, ← first b said]
    rfl
  have keyed' : (ys.map key)[j]? = some k := by
    rw [List.getElem?_map, place', ← second b' said']
    rfl
  exact (List.getElem?_inj (List.getElem?_eq_some_iff.mp keyed).1 distinct).mp
    (keyed.trans keyed'.symm)

/-- No lawful configuration is that of a document that says what none may say. -/
theorem LoadedConfig.Lawful.not_violates {c : LoadedConfig} (lawful : c.Lawful y root) :
    ¬ Violates y root := by
  obtain ⟨entries, agents, said⟩ := lawful.agents
  obtain ⟨items, backends, said'⟩ := lawful.backends
  -- the lists that a violation speaks of are the lists that were loaded
  have same : ∀ {entries'}, root.get "agents" = .ok (some (.map entries')) →
      entries' = entries := by
    intro entries' agents'
    rw [agents] at agents'
    cases agents'
    rfl
  have same' : ∀ {items'}, root.get "backends" = .ok (some (.sequence items')) →
      items' = items := by
    intro items' backends'
    rw [backends] at backends'
    cases backends'
    rfl
  intro violates
  cases violates with
  | token agents' member bad =>
    obtain ⟨a, -, entry⟩ := forall₂_mem said (same agents' ▸ member)
    exact entry.named (bad a.token entry.token)
  | sameToken agents' other here there first second =>
    obtain rfl := same agents'
    exact other (place_eq said lawful.tokens here there (fun _ entry => entry.token.eq first)
      fun _ entry => entry.token.eq second)
  | agentLevel known agents' member bound bad =>
    obtain rfl := known.eq lawful.levels
    obtain ⟨a, -, entry⟩ := forall₂_mem said (same agents' ▸ member)
    cases levelled : a.hasLevel with
    | false =>
      obtain ⟨admin, absent⟩ := entry.bare levelled
      exact bound ⟨admin ▸ entry.admin, absent⟩
    | true =>
      exact bad a.levelName (entry.levelled levelled)
        (List.mem_of_getElem? (entry.rank levelled))
  | backendName backends' member bad =>
    obtain ⟨b, -, entry⟩ := forall₂_mem said' (same' backends' ▸ member)
    exact bad b.name entry.name entry.named
  | sameName backends' other here there first second =>
    obtain rfl := same' backends'
    exact other (place_eq said' lawful.names here there (fun _ entry => entry.name.eq first)
      fun _ entry => entry.name.eq second)
  | backendLevel known backends' member bad =>
    obtain rfl := known.eq lawful.levels
    obtain ⟨b, -, entry⟩ := forall₂_mem said' (same' backends' ▸ member)
    exact bad b.levelName entry.levelled (List.mem_of_getElem? entry.rank)
  | ceiling known named bad =>
    obtain rfl := known.eq lawful.levels
    exact bad (lawful.ceilingNamed _ named ▸ List.mem_of_getElem? lawful.ceiling)
  | levels known bad =>
    obtain rfl := known.eq lawful.levels
    rcases bad with none | again
    · have place := lawful.ceiling
      rw [none] at place
      cases place
    · exact again lawful.ordered

namespace LoadedConfig

/-- Tokens and names tell agents and backends apart, only administrators have no level, and every
rank that is used is one of a level. -/
structure FailClosed (c : LoadedConfig) : Prop where
  tokens : (∀ a ∈ c.agents, a.token ≠ "") ∧ (c.agents.map AgentCfg.token).Nodup
  names : (∀ b ∈ c.backends, YamlConfig.NamesBackend b.name) ∧
    (c.backends.map fun b => b.name).Nodup
  bare : ∀ a ∈ c.agents, a.hasLevel = false → a.admin = true
  agentRanks : ∀ a ∈ c.agents, a.level.toNat < c.taxonomy.levels.length
  backendRanks : ∀ b ∈ c.backends, b.metaData.level.toNat < c.taxonomy.levels.length
  ceiling : c.elevationMax.toNat < c.taxonomy.levels.length

theorem Lawful.failClosed {c : LoadedConfig} (lawful : c.Lawful y root) : c.FailClosed := by
  obtain ⟨entries, -, agents⟩ := lawful.agents
  obtain ⟨items, -, backends⟩ := lawful.backends
  have agent : ∀ a ∈ c.agents, ∃ entry, AgentEntry y c.taxonomy.levels entry a := fun a member =>
    (forall₂_mem agents.flip member).imp fun _ h => h.2
  have backend : ∀ b ∈ c.backends, ∃ item, BackendEntry y c.taxonomy.levels item b :=
    fun b member => (forall₂_mem backends.flip member).imp fun _ h => h.2
  refine { tokens := ⟨fun a member => ?_, lawful.tokens⟩,
           names := ⟨fun b member => ?_, lawful.names⟩, bare := fun a member none => ?_,
           agentRanks := fun a member => ?_, backendRanks := fun b member => ?_,
           ceiling := (List.getElem?_eq_some_iff.mp lawful.ceiling).1 }
  · obtain ⟨entry, said⟩ := agent a member
    exact said.named
  · obtain ⟨item, said⟩ := backend b member
    exact said.named
  · obtain ⟨entry, said⟩ := agent a member
    exact (said.bare none).1
  · obtain ⟨entry, said⟩ := agent a member
    exact said.low
  · obtain ⟨item, said⟩ := backend b member
    exact (List.getElem?_eq_some_iff.mp said.rank).1

end LoadedConfig

/-- Whatever document is loaded, the configuration is what the document says, tokens and names are
unambiguous, and a principal is allowed on the tools of a backend with another name than the
gateway's if and only if its level's name stands at or after that of the backend. A document that
says what none may say is not loaded. -/
theorem config_fail_closed (y : YamlReader) (path : String) (root : YamlNode) :
    (∀ c, LoadedConfig.load y path (.ok root) = .ok c →
      c.Lawful y root ∧ c.FailClosed ∧ c.RanksMeanNames) ∧
      (Violates y root → ∃ e, LoadedConfig.load y path (.ok root) = .error e) := by
  constructor
  · intro c loaded
    have lawful := LoadedConfig.lawful_of_load loaded
    exact ⟨lawful, lawful.failClosed, lawful.ranksMeanNames⟩
  · intro violates
    cases loaded : LoadedConfig.load y path (.ok root) with
    | error e => exact ⟨e, rfl⟩
    | ok c => exact absurd violates (LoadedConfig.lawful_of_load loaded).not_violates

namespace FailClosedExample

/-- Scalars are read as texts. -/
def reader : YamlReader where
  text node := match node with
    | .scalar text => some text
    | _ => none
  bool _ := none
  int _ := none
  unsigned _ := none

def entry (key : String) (v : YamlNode) : YamlNode × YamlNode := (.scalar key, v)

/-- One agent and one backend of the only level. -/
def document (backend : String) : YamlNode :=
  .map [entry "access" (.map [entry "levels" (.sequence [.scalar "member"])]),
    entry "agents" (.map [entry "ann" (.map [entry "token" (.scalar "t1")])]),
    entry "backends" (.sequence [.map [entry "name" (.scalar backend), entry "url" (.scalar "u")]])]

end FailClosedExample

open FailClosedExample in
/-- A backend that is called like the gateway: an agent whose level is that of the backend may not
call its tools. -/
theorem own_name_not_authorised : ∃ c a b p,
    LoadedConfig.load reader "perfacet.yaml" (.ok (document "perfacet")) = .ok c ∧
      c.agents = [a] ∧ c.backends = [b] ∧ a.hasLevel = true ∧
      AtOrAfter c.taxonomy.levels a.levelName b.levelName ∧
      (YamlIdentityStore.ofAgents c.agents).authenticate "t1" = some p ∧
      RankPolicy.authorizeCall (.ofBackends (c.backends.map NamedBackend.toBackendCfg)) p
        ⟨b.name, "echo"⟩ = .unknown :=
  ⟨_, _, _, _, rfl, rfl, rfl, rfl, ⟨0, 0, rfl, rfl, le_rfl⟩, rfl, rfl⟩

end Perfacet
