import Perfacet.Pipeline.Facets
import Perfacet.Policy.Elevation

/-!
# How long a tool list may be kept

A tool list is made with two readings of the clock. The front end raises the principal by the
grants that are in force at the first, and the pipeline shortens the time for which the list may
be kept by the grants that are in force at the second. A grant that ends in between is in the
list and not in the time.

## Main results

* `PipelineState.listBody_lists` — what a tool list says
* `list_current_iff` — when a list holds as long as it may be kept
-/

namespace Perfacet

variable {catalog : Catalog} {index : ToolIndex} {who : Principal} {key : ToolKey}
  {grants : GrantTable} {agentId : String} {now t t₁ t₂ : UInt64} {rank : Rank}

/-- The principal that the front end makes for a request. -/
def Principal.raised (who : Principal) (grants : GrantTable) (now : UInt64) : Principal :=
  { who with grantBump := grants.effectiveBump who.agentId now }

/-- The tools that a principal is shown. -/
def FacetView.shown (catalog : Catalog) (index : ToolIndex) (who : Principal) : List ToolKey :=
  published catalog index who ++ builtin catalog who

/-! ## Grants that lift an agent -/

/-- A grant in force reaches a rank. -/
def GrantTable.Lifts (grants : GrantTable) (agentId : String) (now : UInt64) (rank : Rank) : Prop :=
  ∃ id g, grants.lookup id = some g ∧ g.InForce agentId now ∧ rank ≤ g.rank

theorem GrantRecord.InForce.earlier {g : GrantRecord} (h : g.InForce agentId t) (since : now ≤ t) :
    g.InForce agentId now :=
  ⟨h.agent, h.approved, Std.lt_of_le_of_lt since h.unexpired⟩

namespace GrantTable

theorem Lifts.earlier (h : grants.Lifts agentId t rank) (since : now ≤ t) :
    grants.Lifts agentId now rank := by
  obtain ⟨id, g, found, inForce, reaches⟩ := h
  exact ⟨id, g, found, inForce.earlier since, reaches⟩

/-- A grant in force stays in force for the shortest time that is left. -/
theorem Lifts.later (h : grants.Lifts agentId now rank)
    (within : t.toNat < now.toNat + (grants.shortestRemainingMs agentId now).toNat) :
    grants.Lifts agentId t rank := by
  obtain ⟨id, g, found, inForce, reaches⟩ := h
  refine ⟨id, g, found, ⟨inForce.agent, inForce.approved, ?_⟩, reaches⟩
  have left := UInt64.le_iff_toNat_le.mp (shortestRemainingMs_le found inForce)
  have unexpired := UInt64.lt_iff_toNat_lt.mp inForce.unexpired
  rw [UInt64.toNat_sub_of_le _ _ (UInt64.le_iff_toNat_le.mpr unexpired.le)] at left
  rw [UInt64.lt_iff_toNat_lt]
  omega

theorem lifts_iff (positive : 0 < rank) :
    grants.Lifts agentId now rank ↔ ¬ grants.effectiveBump agentId now < rank := by
  rw [effectiveBump_lt_iff positive]
  simp only [Lifts, not_forall, Std.not_lt, exists_prop]

end GrantTable

/-! ## What is shown -/

/-- The gateway's own tools are shown whatever is granted. -/
theorem RankPolicy.authorizeCall_builtin (builtin : key.backend = "perfacet") :
    authorizeCall catalog (who.raised grants t₁) key =
      authorizeCall catalog (who.raised grants t₂) key := by
  unfold authorizeCall
  rw [if_pos builtin, if_pos builtin]
  rfl

theorem effectiveRank_lt_iff {who : Principal} :
    effectiveRank who < rank ↔ who.level < rank ∧ who.grantBump < rank := by
  unfold effectiveRank
  split_ifs with above
  · exact ⟨fun less => ⟨less, Std.lt_trans above less⟩, And.left⟩
  · exact ⟨fun less => ⟨Std.lt_of_le_of_lt (Std.not_lt.mp above) less, less⟩, And.right⟩

/-- An upstream's tool is shown to whom the rank, or a grant, lifts to its level. -/
theorem RankPolicy.authorizeCall_raised (upstream : key.backend ≠ "perfacet") :
    authorizeCall catalog (who.raised grants now) key = .allow ↔
      ∃ e, catalog.find key.backend = some e ∧ who.hasLevel = true ∧
        (e.metaData.level ≤ who.level ∨ grants.Lifts who.agentId now e.metaData.level) := by
  unfold authorizeCall
  rw [if_neg upstream]
  cases catalog.find key.backend with
  | none => simp
  | some e =>
    have reached : ¬ effectiveRank (who.raised grants now) < e.metaData.level ↔
        e.metaData.level ≤ who.level ∨ grants.Lifts who.agentId now e.metaData.level := by
      rw [effectiveRank_lt_iff, not_and_or, Std.not_lt]
      by_cases zero : e.metaData.level = 0
      · have lowest : e.metaData.level ≤ who.level := by simp [zero]
        exact iff_of_true (.inl lowest) (.inl lowest)
      · rw [GrantTable.lifts_iff (UInt16.pos_iff_ne_zero.mpr zero)]
        rfl
    have leveled : (who.raised grants now).hasLevel = who.hasLevel := rfl
    simp only [Option.some.injEq, exists_eq_left', ← reached, leveled]
    cases who.hasLevel <;> split_ifs <;> simp_all

namespace PipelineState

variable {env : Env} {s : PipelineState}

/-- A tool list has an item for each tool, and says how long it may be kept. -/
structure Lists (body : Json) (keys : List ToolKey) (ttlMs : UInt64) : Prop where
  tools : ∃ items, body.field? "tools" = some (.arr items) ∧
    items.map (·.field? "name") = keys.map fun key => some (.str key.str)
  ttlMs : body.field? "ttlMs" = some (.int ttlMs.toNat)

/-- What a tool list says. -/
theorem listBody_lists (env : Env) (s : PipelineState) (who : Principal) (now : UInt64) :
    Lists (s.listBody env who now) (FacetView.shown env.catalog s.index who)
      (s.listTtl env who now) := by
  obtain ⟨items, tools, names⟩ :
      ∃ items, FacetView.listTools env.catalog s.index who = .arr items ∧
        items.map (·.field? "name") =
          (FacetView.shown env.catalog s.index who).map fun key => some (.str key.str) :=
    FacetView.names_listTools
  constructor
  · refine ⟨items, ?_, names⟩
    rw [listBody_eq, tools]
    simp [Json.ofMembers, Json.field?, Json.lookup_setField]
  · rw [listBody_eq]
    simp [Json.ofMembers, Json.field?, Json.lookup_setField]

theorem listTtl_le : s.listTtl env who now ≤ s.grants.shortestRemainingMs who.agentId now := by
  unfold listTtl
  dsimp only
  generalize (if s.index.cold = true then 0 else env.cfg.listTtlMs) = ttl
  split_ifs with shorter
  · exact UInt64.le_refl _
  · by_cases unbounded : s.grants.shortestRemainingMs who.agentId now = 0xFFFFFFFFFFFFFFFF
    · rw [unbounded, UInt64.le_iff_toNat_le]
      exact Nat.le_of_lt_succ (UInt64.toNat_lt _)
    · exact Std.not_lt.mp fun less => shorter ⟨unbounded, less⟩

theorem listTtl_eq_zero_iff :
    s.listTtl env who now = 0 ↔ s.index.cold = true ∨ env.cfg.listTtlMs = 0 := by
  have some := shortestRemainingMs_ne_zero s.grants who.agentId now
  unfold listTtl
  by_cases cold : s.index.cold = true
  · simp [cold]
  · simp only [cold, if_false, false_or, Bool.false_eq_true]
    split_ifs with shorter
    · refine iff_of_false some fun zero => ?_
      rw [zero] at shorter
      simp at shorter
    · rfl

end PipelineState

open PipelineState in
/-- A tool list that was made with two readings of the clock holds for as long as it may be kept
if and only if it may not be kept at all, or grants that lift the agent to a listed tool at the
first reading still do at the second. -/
theorem list_current_iff (env : Env) (s : PipelineState) (who : Principal) (t₁ t₂ : UInt64) :
    (∀ key ∈ FacetView.shown env.catalog s.index (who.raised s.grants t₁),
        ∀ t : UInt64, t₂ ≤ t →
          t.toNat < t₂.toNat + (s.listTtl env (who.raised s.grants t₁) t₂).toNat →
          RankPolicy.authorizeCall env.catalog (who.raised s.grants t) key = .allow) ↔
      s.index.cold = true ∨ env.cfg.listTtlMs = 0 ∨
        ∀ key, s.index.Has key → key.backend ≠ "perfacet" →
          ∀ e, env.catalog.find key.backend = some e → who.hasLevel = true →
            who.level < e.metaData.level →
            s.grants.Lifts who.agentId t₁ e.metaData.level →
            s.grants.Lifts who.agentId t₂ e.metaData.level := by
  have expired : s.listTtl env (who.raised s.grants t₁) t₂ = 0 ↔
      s.index.cold = true ∨ env.cfg.listTtlMs = 0 := listTtl_eq_zero_iff
  rw [← or_assoc, ← expired]
  constructor
  · intro current
    rw [or_iff_not_imp_left]
    intro kept key has upstream e found leveled above lifted
    -- the grants lift the agent to the tool when the list is made
    have shown : key ∈ FacetView.shown env.catalog s.index (who.raised s.grants t₁) := by
      refine List.mem_append_left _ (FacetView.mem_published.mpr ⟨has, ?_⟩)
      exact (RankPolicy.authorizeCall_raised upstream).mpr ⟨e, found, leveled, .inr lifted⟩
    have some : 0 < (s.listTtl env (who.raised s.grants t₁) t₂).toNat :=
      Nat.pos_of_ne_zero fun zero => kept (UInt64.toNat_inj.mp zero)
    have allowed := current key shown t₂ (UInt64.le_refl _) (by omega)
    obtain ⟨e', found', -, reached⟩ := (RankPolicy.authorizeCall_raised upstream).mp allowed
    obtain rfl := Option.some.inj (found.symm.trans found')
    exact reached.resolve_left (Std.not_le.mpr above)
  · rintro (none | lifting) key shown t since within
    · rw [none] at within
      have later := UInt64.le_iff_toNat_le.mp since
      simp at within
      omega
    · rcases List.mem_append.mp shown with published | builtin
      · obtain ⟨has, allowed⟩ := FacetView.mem_published.mp published
        by_cases own : key.backend = "perfacet"
        · exact (RankPolicy.authorizeCall_builtin own).trans allowed
        · obtain ⟨e, found, leveled, reached⟩ := (RankPolicy.authorizeCall_raised own).mp allowed
          refine (RankPolicy.authorizeCall_raised own).mpr ⟨e, found, leveled, ?_⟩
          rw [or_iff_not_imp_left]
          intro above
          have lifted := lifting key has own e found leveled (Std.not_le.mp above)
            (reached.resolve_left above)
          -- a list is kept no longer than the shortest grant lasts
          refine lifted.later (within.trans_le (Nat.add_le_add_left ?_ _))
          exact UInt64.le_iff_toNat_le.mp listTtl_le
      · rw [FacetView.builtin, List.mem_filter, decide_eq_true_eq] at builtin
        obtain ⟨own, allowed⟩ := builtin
        have named : key.backend = "perfacet" := by
          simp only [List.mem_cons, List.not_mem_nil, or_false] at own
          rcases own with rfl | rfl <;> rfl
        exact (RankPolicy.authorizeCall_builtin named).trans allowed

/-! ## An example -/

namespace ListTtlExample

open FacetsExample

/-- A grant of the higher rank that ends at a time. -/
def ending (expiresAt : UInt64) : GrantRecord :=
  ⟨"g_1", "bot", "l1", 1, "approved", expiresAt, 0⟩

/-- The gateway of the example with such a grant. -/
def granted (expiresAt : UInt64) : PipelineState :=
  { listed ["pay"] with grants := AList.insert "g_1" (ending expiresAt) ∅ }

end ListTtlExample

open FacetsExample ListTtlExample PipelineState in
/-- The grant ends between the readings: the list has the tool, and may be kept for the full time,
though the agent may not call the tool any longer. -/
theorem list_outlives_grant : ∃ key ∈ FacetView.shown gateway.catalog (granted 100).index
      (bot.raised (granted 100).grants 99),
    (granted 100).listTtl gateway (bot.raised (granted 100).grants 99) 100 = 5000 ∧
      RankPolicy.authorizeCall gateway.catalog (bot.raised (granted 100).grants 100) key ≠
        .allow :=
  ⟨⟨"pay", "t"⟩, by decide, by decide, by decide⟩

end Perfacet
