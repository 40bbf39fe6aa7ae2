import Mathlib.Data.List.Infix
import Perfacet.Ir.Request
import Perfacet.Lib.UnorderedMap

/-!
# The configuration

The fields of the YAML configuration that the modelled components read, with the
defaults they have when the file leaves them out.
-/

namespace Perfacet

/-- The access levels in rising order; a rank is an index into them. -/
structure Taxonomy where
  levels : List String
  deriving DecidableEq, Repr

/-- The rank of a level name. -/
def Taxonomy.parse (t : Taxonomy) (name : String) : Option Rank :=
  (t.levels.findIdx? (· = name)).map UInt16.ofNat

/-- Whether a tool's own limits are in force: only once a tool list has shown the tool. -/
inductive GovernorToolStatus
  | unvalidated | active | invalid
  deriving DecidableEq, Repr

/-- The limits of one tool; a negative concurrency and a zero wait mean the default. -/
structure GovernorToolCfg where
  maxConcurrency : Int := -1
  queueWaitMs : UInt64 := 0
  status : GovernorToolStatus := .unvalidated
  deriving DecidableEq, Repr

/-- A backend of the configuration. -/
structure BackendCfg where
  name : String
  url : String
  metaData : BackendMeta
  deriving DecidableEq, Repr

structure YamlConfig where
  listTtlMs : UInt64 := 5000
  originAllowlist : List String := ["*"]
  taxonomy : Taxonomy := ⟨["default"]⟩
  elevationMax : Rank := 0
  circuitOpenAfter : Int := 5
  circuitCooldownMs : UInt64 := 30000
  halfOpenProbes : Int := 1
  retryMaxAttempts : Int := 2
  retryable : List FailureClass := [.timeout, .unavailable, .upstream]
  neverRetry : List FailureClass := [.authz, .cancelled, .protocol, .throttled, .capability]
  perToolConcurrency : Int := 4
  perPrincipalConcurrency : Int := 10
  queueWaitMs : UInt64 := 5000
  governorTools : UnorderedMap String GovernorToolCfg := ∅
  promoteAfterMs : UInt64 := 2000
  taskTtlMs : UInt64 := 3600000
  taskMax : ℕ := 10000
  otelService : String := "perfacet"

namespace YamlConfig

/-- One round of the loop of `load` over the backends: what it checks of a name. -/
def addBackend (backends : List BackendCfg) (b : BackendCfg) : Except String (List BackendCfg) :=
  if b.name.isEmpty then .error (Json.ofUnicode "backend name 为空")
  else if "__".toList <:+: b.name.toList then
    .error (Json.ofUnicode "backend 名禁止含 __: " ++ b.name)
  else if b.name ∈ backends.map (·.name) then .error (Json.ofUnicode "backend 名重复: " ++ b.name)
  else .ok (backends ++ [b])

/-- The loop of `load` over the backends. -/
def addBackends (backends : List BackendCfg) : List BackendCfg → Except String (List BackendCfg)
  | [] => .ok backends
  | b :: rest =>
    match addBackend backends b with
    | .ok backends => addBackends backends rest
    | .error e => .error e

/-- The backends of the configuration, once the document has been read: what the names must be
like. -/
def loadBackends (nodes : List BackendCfg) : Except String (List BackendCfg) :=
  match addBackends [] nodes with
  | .ok [] => .error (Json.ofUnicode "backends 不能为空")
  | loaded => loaded

/-- A name that tells a backend apart. -/
structure NamesBackend (name : String) : Prop where
  nonempty : name ≠ ""
  plain : ¬ ['_', '_'] <:+: name.toList

theorem addBackend_spec {backends backends' : List BackendCfg} {b : BackendCfg}
    (added : addBackend backends b = .ok backends') :
    NamesBackend b.name ∧ backends' = backends ++ [b] := by
  unfold addBackend at added
  split_ifs at added with empty split again
  exact ⟨⟨by simpa using empty, split⟩, (Except.ok.inj added).symm⟩

theorem addBackends_spec {nodes backends backends' : List BackendCfg}
    (loaded : addBackends backends nodes = .ok backends')
    (before : ∀ b ∈ backends, NamesBackend b.name) : ∀ b ∈ backends', NamesBackend b.name := by
  induction nodes generalizing backends with
  | nil => exact Except.ok.inj loaded ▸ before
  | cons b rest ih =>
    rw [addBackends] at loaded
    split at loaded
    · next added =>
      obtain ⟨named, rfl⟩ := addBackend_spec added
      refine ih loaded fun b' member => ?_
      rcases List.mem_append.mp member with earlier | last
      · exact before b' earlier
      · exact List.mem_singleton.mp last ▸ named
    · cases loaded

/-- Every backend of a configuration that loads has a name without a double underscore. -/
theorem loadBackends_spec {nodes backends : List BackendCfg}
    (loaded : loadBackends nodes = .ok backends) : ∀ b ∈ backends, NamesBackend b.name := by
  unfold loadBackends at loaded
  split at loaded
  · cases loaded
  · exact addBackends_spec loaded (by simp)

theorem addBackend_of_named {backends : List BackendCfg} {b : BackendCfg}
    (named : NamesBackend b.name) (new : b.name ∉ backends.map (·.name)) :
    addBackend backends b = .ok (backends ++ [b]) := by
  have plain : ¬ "__".toList <:+: b.name.toList := named.plain
  rw [addBackend, if_neg (by simpa using named.nonempty), if_neg plain, if_neg new]

theorem addBackends_of_named {nodes backends : List BackendCfg}
    (named : ∀ b ∈ nodes, NamesBackend b.name)
    (distinct : ((backends ++ nodes).map (·.name)).Nodup) :
    addBackends backends nodes = .ok (backends ++ nodes) := by
  induction nodes generalizing backends with
  | nil => rw [addBackends, List.append_nil]
  | cons b rest ih =>
    obtain ⟨first, others⟩ := List.forall_mem_cons.mp named
    have new : b.name ∉ backends.map (·.name) := by
      rw [List.map_append, List.map_cons] at distinct
      exact fun member => (List.nodup_append.mp distinct).2.2 _ member _ List.mem_cons_self rfl
    rw [List.append_cons] at distinct ⊢
    rw [addBackends, addBackend_of_named first new]
    exact ih others distinct

/-- A list of backends is loaded, and as it is, if its names tell the backends apart. -/
theorem loadBackends_of_named {nodes : List BackendCfg} (nonempty : nodes ≠ [])
    (named : ∀ b ∈ nodes, NamesBackend b.name) (distinct : (nodes.map (·.name)).Nodup) :
    loadBackends nodes = .ok nodes := by
  have looped : addBackends [] nodes = .ok nodes := addBackends_of_named named distinct
  rw [loadBackends, looped]
  cases nodes with
  | nil => exact absurd rfl nonempty
  | cons b rest => rfl

end YamlConfig

end Perfacet
