import Perfacet.Pipeline.Machine
import Perfacet.Policy.Visibility

/-!
# What a secret backend shows of itself

A principal below the rank of a secret backend is to see the gateway as if the backend was
not configured: the same tool list, for the same time, and the same answer to every name.
`Catalog.remove` and `ToolIndex.remove` make the gateway without the backend.

## Main results

* `ToolIndex.Reached.remove` — the index without a backend is that of the probes of the others
* `secret_invisible_iff` — when a secret backend is invisible
-/

namespace Perfacet

variable {catalog : Catalog} {index index' : ToolIndex} {who : Principal} {key : ToolKey}
  {backend : String} {e : CatalogEntry}

/-! ## The gateway without a backend -/

/-- The catalog without a backend. -/
def Catalog.remove (catalog : Catalog) (backend : String) : Catalog := catalog.erase backend

theorem Catalog.find_remove (catalog : Catalog) (backend name : String) :
    (catalog.remove backend).find name = if name = backend then none else catalog.find name :=
  UnorderedMap.lookup_erase catalog backend name

namespace ToolIndex

/-- The index as it was if a backend had never been listed. -/
def remove (index : ToolIndex) (backend : String) : ToolIndex :=
  { byBackend := index.byBackend.erase backend
    anyWrite := !(index.byBackend.erase backend).entries.isEmpty }

/-- Of an index that probes lead to, the flag says whether there is a list. -/
theorem Reached.anyWrite (reached : Reached catalog index) :
    index.anyWrite = !index.byBackend.entries.isEmpty := by
  induction reached with
  | cold => rfl
  | probed server toolList _ known probed ih =>
    rcases onProbeResult_spec probed with ⟨rfl, -⟩ | ⟨tools, rfl, -⟩
    · exact ih
    · rfl

theorem remove_replace_self (index : ToolIndex) (backend : String) (tools : List IndexedTool) :
    (index.replace backend tools).remove backend = index.remove backend := by
  rw [remove, replace, UnorderedMap.erase_insert, remove]

theorem remove_replace {server : String} (index : ToolIndex) (other : server ≠ backend)
    (tools : List IndexedTool) :
    (index.replace server tools).remove backend = (index.remove backend).replace server tools := by
  simp only [remove, replace, UnorderedMap.erase_insert_of_ne _ other]
  rfl

/-- The index without a backend is the one that the probes of the others lead to. -/
theorem Reached.remove (reached : Reached catalog index) (backend : String) :
    Reached (catalog.remove backend) (index.remove backend) := by
  induction reached with
  | cold => exact .cold
  | probed server toolList _ known probed ih =>
    by_cases same : server = backend
    · subst same
      rcases onProbeResult_spec probed with ⟨rfl, -⟩ | ⟨tools, rfl, -⟩
      · exact ih
      · rw [remove_replace_self]
        exact ih
    · have still : ((catalog.remove backend).find server).isSome := by
        rw [Catalog.find_remove, if_neg same]
        exact known
      rcases onProbeResult_spec probed with ⟨rfl, -⟩ | ⟨tools, rfl, again⟩
      · exact ih
      · rw [remove_replace _ same]
        exact .probed server toolList ih still (again _)

end ToolIndex

/-! ## What the principal is told -/

/-- A secret backend above the rank of a principal. -/
structure Hidden (catalog : Catalog) (who : Principal) (backend : String) (e : CatalogEntry) :
    Prop where
  found : catalog.find backend = some e
  secret : e.metaData.secret = true
  leveled : who.hasLevel = true
  below : effectiveRank who < e.metaData.level

/-- The policy decides as if the backend was not there. -/
theorem Hidden.authorizeCall (hidden : Hidden catalog who backend e) (key : ToolKey) :
    RankPolicy.authorizeCall (catalog.remove backend) who key =
      RankPolicy.authorizeCall catalog who key := by
  unfold RankPolicy.authorizeCall
  split
  · rfl
  · rw [Catalog.find_remove]
    by_cases same : key.backend = backend
    · rw [if_pos same, same, hidden.found]
      simp [hidden.secret, hidden.leveled, hidden.below]
    · rw [if_neg same]

/-- Tools of the backend are denied, unless they are taken for built-in ones. -/
theorem Hidden.allow_iff (hidden : Hidden catalog who backend e) (here : key.backend = backend) :
    RankPolicy.authorizeCall catalog who key = .allow ↔
      backend = "perfacet" ∧ RankPolicy.builtinDecision who key = .allow := by
  unfold RankPolicy.authorizeCall
  rw [here]
  split
  · next builtin => simp [builtin]
  · next upstream => simp [upstream, hidden.found, hidden.secret, hidden.leveled, hidden.below]

/-- The tool list is as if the backend was not there, if none of its tools is shown. -/
theorem Hidden.listTools_iff (hidden : Hidden catalog who backend e) (index : ToolIndex) :
    FacetView.listTools (catalog.remove backend) (index.remove backend) who =
        FacetView.listTools catalog index who ↔
      ∀ key, index.Has key → key.backend = backend →
        RankPolicy.authorizeCall catalog who key ≠ .allow := by
  simp only [FacetView.listTools, hidden.authorizeCall, Json.arr.injEq, List.append_left_inj,
    ToolIndex.remove]
  cases listed : index.byBackend.lookup backend with
  | none =>
    rw [UnorderedMap.erase_of_lookup_none listed]
    refine iff_of_true rfl ?_
    rintro key ⟨tools, found, -⟩ rfl
    rw [listed] at found
    cases found
  | some tools =>
    obtain ⟨l₁, l₂, entries, rest⟩ := UnorderedMap.entries_split listed
    rw [entries, rest, List.flatMap_append, List.flatMap_append, List.flatMap_cons,
      List.append_cancel_left_eq, List.self_eq_append_left, List.map_eq_nil_iff,
      List.filter_eq_nil_iff]
    constructor
    · rintro unseen key ⟨tools', found, t, member, same⟩ rfl
      obtain rfl := Option.some.inj (listed.symm.trans found)
      simpa [same] using unseen t member
    · intro unseen t member
      simpa using unseen ⟨backend, t.name⟩ ⟨tools, listed, t, member, rfl⟩ rfl

/-- The refusal that a name meets at the policy, if it does. -/
def refusal (catalog : Catalog) (who : Principal) (name : String) : Option Response :=
  match ToolKey.parse name with
  | none => some { Response.ofBody unknownTool with klass := .authz }
  | some key =>
    match RankPolicy.authorizeCall catalog who key with
    | .unknown => some { Response.ofBody unknownTool with klass := .authz }
    | .deny => some { Response.ofBody denyTool with klass := .authz }
    | .allow => none

namespace PipelineState

variable {env : Env} {s : PipelineState}

/-- What meets a refusal is answered with it. -/
theorem handleCall_of_refusal (req : Request) {r : Response}
    (refused : refusal env.catalog req.who req.name = some r) (fin : Finish) (clk : Clock) :
    s.handleCall env req fin clk = s.finish fin r (clk 0) := by
  unfold refusal at refused
  unfold handleCall
  cases parsed : ToolKey.parse req.name with
  | none =>
    rw [parsed] at refused
    rw [← Option.some.inj refused]
  | some key =>
    rw [parsed] at refused
    dsimp only at refused ⊢
    cases decided : RankPolicy.authorizeCall env.catalog req.who key with
    | allow =>
      rw [decided] at refused
      cases refused
    | deny | unknown =>
      rw [decided] at refused
      rw [← Option.some.inj refused]

/-- How long a tool list may be kept. -/
def listTtl (env : Env) (s : PipelineState) (who : Principal) (now : UInt64) : UInt64 :=
  let ttl := if s.index.cold then 0 else env.cfg.listTtlMs
  let rem := s.grants.shortestRemainingMs who.agentId now
  if rem ≠ 0xFFFFFFFFFFFFFFFF ∧ rem < ttl then rem else ttl

theorem listBody_eq (now : UInt64) : s.listBody env who now = .ofMembers
    [("tools", FacetView.listTools env.catalog s.index who),
      ("ttlMs", .int (s.listTtl env who now).toNat), ("cacheScope", .str "private")] := rfl

theorem listBody_inj {env' : Env} {s' : PipelineState} {now : UInt64} :
    s'.listBody env' who now = s.listBody env who now ↔
      FacetView.listTools env'.catalog s'.index who = FacetView.listTools env.catalog s.index who ∧
        s'.listTtl env' who now = s.listTtl env who now := by
  rw [listBody_eq, listBody_eq]
  constructor
  · intro same
    have tools := congrArg (·.field? "tools") same
    have ttl := congrArg (·.field? "ttlMs") same
    simp only [Json.ofMembers, Json.field?, List.foldl_cons, List.foldl_nil,
      Json.lookup_setField] at tools ttl
    refine ⟨by simpa using tools, UInt64.toNat_inj.mp (Int.ofNat_inj.mp ?_)⟩
    simpa using ttl
  · rintro ⟨tools, ttl⟩
    rw [tools, ttl]

/-- A grant that is in force has some time left. -/
theorem shortestRemainingMs_ne_zero (grants : GrantTable) (agentId : String) (now : UInt64) :
    grants.shortestRemainingMs agentId now ≠ 0 := by
  unfold GrantTable.shortestRemainingMs
  generalize grants.entries = entries
  suffices ∀ best : UInt64, best ≠ 0 → entries.foldl _ best ≠ 0 from this _ (by decide)
  induction entries with
  | nil => exact fun best some => some
  | cons g rest ih =>
    intro best some
    refine ih _ ?_
    dsimp only
    split_ifs with inactive past shorter
    · exact some
    · exact some
    · intro none
      rw [ge_iff_le, UInt64.le_iff_toNat_le] at past
      have left := UInt64.toNat_sub_of_le _ _ (UInt64.le_iff_toNat_le.mpr (not_le.mp past).le)
      rw [none] at left
      change 0 = _ at left
      omega
    · exact some

/-- The gateway without a backend. -/
def without (s : PipelineState) (backend : String) : PipelineState :=
  { s with index := s.index.remove backend }

end PipelineState

/-- The configuration without a backend. -/
def Env.without (env : Env) (backend : String) : Env :=
  { env with catalog := env.catalog.remove backend }

/-- Without a backend the index is cold if it was, or if it held nothing but the backend. -/
theorem ToolIndex.cold_remove (warm : index.anyWrite = !index.byBackend.entries.isEmpty) :
    (index.remove backend).cold = (index.cold || decide (index.byBackend.keys = [backend])) := by
  rw [cold, cold, warm, remove, Bool.not_not, Bool.not_not]
  cases listed : index.byBackend.lookup backend with
  | none =>
    rw [UnorderedMap.erase_of_lookup_none listed]
    have other : index.byBackend.keys ≠ [backend] := fun only =>
      AList.lookup_eq_none.mp listed (AList.mem_keys.mpr (by rw [only]; simp))
    simp [other]
  | some tools =>
    obtain ⟨l₁, l₂, entries, rest⟩ := UnorderedMap.entries_split listed
    rw [rest, AList.keys, entries]
    cases l₁ <;> cases l₂ <;> simp [List.keys]

open PipelineState in
/-- How long the list may be kept is as if the backend was not there, unless it is the only one
that was ever listed. -/
theorem PipelineState.listTtl_without_iff {env : Env} {s : PipelineState} {now : UInt64}
    (warm : s.index.anyWrite = !s.index.byBackend.entries.isEmpty) :
    (s.without backend).listTtl (env.without backend) who now = s.listTtl env who now ↔
      (s.index.byBackend.keys = [backend] → env.cfg.listTtlMs = 0) := by
  have some := shortestRemainingMs_ne_zero s.grants who.agentId now
  have positive : ¬ s.grants.shortestRemainingMs who.agentId now < 0 := by
    rw [UInt64.lt_iff_toNat_lt]
    exact Nat.not_lt_zero _
  simp only [listTtl, without, Env.without, ToolIndex.cold_remove warm]
  by_cases only : s.index.byBackend.keys = [backend]
  · have kept : s.index.cold = false := by
      rw [ToolIndex.cold, warm]
      rw [AList.keys] at only
      cases entries : s.index.byBackend.entries with
      | nil => simp [entries, List.keys] at only
      | cons first rest => rfl
    simp only [only, kept, decide_true, Bool.or_true, if_true, Bool.false_eq_true, if_false,
      positive, and_false, true_implies]
    split_ifs with shorter
    · constructor
      · exact fun same => absurd same.symm some
      · intro none
        rw [none] at shorter
        exact absurd shorter.2 positive
    · exact eq_comm
  · simp [only]

/-- A secret backend is invisible to a principal below its rank if and only if none of its tools
passes for a built-in one, and it is not the only backend that was ever listed. -/
theorem secret_invisible_iff {env : Env} {s : PipelineState}
    (reached : ToolIndex.Reached env.catalog s.index) (hidden : Hidden env.catalog who backend e)
    (now : UInt64) :
    ((s.without backend).listBody (env.without backend) who now = s.listBody env who now ∧
      ∀ name, refusal (env.without backend).catalog who name = refusal env.catalog who name) ↔
    (backend = "perfacet" → ∀ key, s.index.Has key → key.backend = backend →
      RankPolicy.builtinDecision who key ≠ .allow) ∧
    (s.index.byBackend.keys = [backend] → env.cfg.listTtlMs = 0) := by
  have named : ∀ name, refusal (env.without backend).catalog who name =
      refusal env.catalog who name := by
    intro name
    simp only [refusal, Env.without, hidden.authorizeCall]
  -- a hidden backend shows tools only if it has the name of the gateway itself
  have unseen : (∀ key, s.index.Has key → key.backend = backend →
        RankPolicy.authorizeCall env.catalog who key ≠ .allow) ↔
      (backend = "perfacet" → ∀ key, s.index.Has key → key.backend = backend →
        RankPolicy.builtinDecision who key ≠ .allow) := by
    constructor
    · intro denied builtin key has here allowed
      exact denied key has here ((hidden.allow_iff here).mpr ⟨builtin, allowed⟩)
    · intro denied key has here allowed
      obtain ⟨builtin, allowed⟩ := (hidden.allow_iff here).mp allowed
      exact denied builtin key has here allowed
  rw [and_iff_left named, PipelineState.listBody_inj,
    PipelineState.listTtl_without_iff reached.anyWrite, ← unseen, ← hidden.listTools_iff]
  rfl

/-! ## An example -/

namespace FacetsExample

/-- A secret backend above the lowest rank, and a public one. -/
def gateway : Env where
  cfg := {}
  catalog := .ofBackends [⟨"pay", "", ⟨1, true, []⟩⟩, ⟨"echo", "", ⟨0, false, []⟩⟩]
  randomHex := PipelineExample.randomHex
  distinct := PipelineExample.randomHex_injective

/-- The gateway when the given backends were listed. -/
def listed (backends : List String) : PipelineState where
  gov := { cfg := {} }
  tasks := .make 1
  circuit := { openAfter := 1, cooldownMs := 1, halfOpenProbes := 1 }
  tracer := { service := "" }
  index := VisibilityExample.probed (backends.map fun b => (b, "t"))

/-- A client of the lowest rank. -/
def bot : Principal := ⟨"bot", 0, 0, true, false, "l0"⟩

theorem hidden_pay : Hidden gateway.catalog bot "pay" ⟨"pay", "", ⟨1, true, []⟩, true⟩ where
  found := by decide
  secret := rfl
  leveled := rfl
  below := by decide

end FacetsExample

open FacetsExample VisibilityExample in
/-- Another backend was listed as well. -/
theorem secret_invisible_iff_echo :
    ((listed ["pay", "echo"]).without "pay").listBody (gateway.without "pay") bot 0 =
        (listed ["pay", "echo"]).listBody gateway bot 0 ∧
      ∀ name,
        refusal (gateway.without "pay").catalog bot name = refusal gateway.catalog bot name := by
  have reached : ToolIndex.Reached gateway.catalog (listed ["pay", "echo"]).index :=
    reached_probed _ _ (by decide)
  refine (secret_invisible_iff reached hidden_pay 0).mpr ⟨?_, ?_⟩
  · intro builtin
    exact absurd builtin (by decide)
  · intro only
    exact absurd only (by decide)

open FacetsExample VisibilityExample in
/-- Only the secret backend was listed: the list may be kept for a while, and could not be if the
backend was not there. -/
theorem secret_listed : ToolIndex.Reached gateway.catalog (listed ["pay"]).index ∧
    Hidden gateway.catalog bot "pay" ⟨"pay", "", ⟨1, true, []⟩, true⟩ ∧
    ((listed ["pay"]).without "pay").listBody (gateway.without "pay") bot 0 ≠
      (listed ["pay"]).listBody gateway bot 0 := by
  refine ⟨reached_probed _ _ (by decide), hidden_pay, fun same => ?_⟩
  have ttl := (PipelineState.listBody_inj.mp same).2
  exact absurd ttl (by decide)

end Perfacet
