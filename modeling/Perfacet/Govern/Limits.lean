import Perfacet.Govern.LocalGovernor

/-!
# The limits of the governor

A slot is granted only while less than the limit of its tool and of its principal is in use. The
limit of a tool changes when its backend is listed anew, and what was granted before is not taken
back. So a tool may have more in use than its limit of the moment, but never more than its ceiling,
which does not depend on what is listed.

## Main definitions

* `YamlConfig.ceiling` — the greatest limit that a tool can get
* `LocalGovernor.Grants` — a piece of code grants slots only below the limits
* `LocalGovernor.Limited` — no more is in use than may ever be granted

## Main results

* `LocalGovernor.Limited.grants`, `LocalGovernor.Limited.onToolsListed` — this is kept
-/

namespace Perfacet

/-- The greatest limit that a tool can get: its own counts only while the tool is listed. -/
def YamlConfig.ceiling (cfg : YamlConfig) (toolStr : String) : ℤ :=
  match cfg.governorTools.lookup toolStr with
  | some c => max c.maxConcurrency cfg.perToolConcurrency
  | none => cfg.perToolConcurrency

namespace LocalGovernor

variable {κ : Type} {g g' g'' : LocalGovernor κ} {ts agent : String} {key : ToolKey}
  {who : Principal} {w : Waiter κ} {rest : List (Waiter κ)} {deadline now : UInt64} {cb : κ}

theorem toolLimit_le_ceiling (g : LocalGovernor κ) (ts : String) :
    g.toolLimit ts ≤ g.cfg.ceiling ts := by
  unfold toolLimit YamlConfig.ceiling
  cases g.cfg.governorTools.lookup ts with
  | none => exact le_rfl
  | some c =>
    dsimp only
    split
    · exact le_max_left ..
    · exact le_max_right ..

/-- Listing tools does not change how many slots they can get. -/
theorem ceiling_onToolsListed (g : LocalGovernor κ) (backend : String) (tools : List String)
    (ts : String) : (g.onToolsListed backend tools).cfg.ceiling ts = g.cfg.ceiling ts := by
  unfold onToolsListed YamlConfig.ceiling
  dsimp only
  rw [UnorderedMap.lookup_mapValues]
  cases g.cfg.governorTools.lookup ts with
  | none => rfl
  | some c =>
    dsimp only [Option.map_some]
    split
    · split
      · rfl
      · split <;> rfl
    · rfl

/-! ## Granting -/

/-- Slots are granted only below the limits that are in force, which stay as they are. -/
structure Grants (g g' : LocalGovernor κ) : Prop where
  cfg : g'.cfg = g.cfg
  tool : ∀ ts, g'.toolHeld ts ≤ max (g.toolHeld ts) (g.toolLimit ts)
  agent : ∀ a, g'.agentHeld a ≤ max (g.agentHeld a) g.cfg.perPrincipalConcurrency

namespace Grants

/-- Only the counters matter. -/
theorem of_eq (cfg : g'.cfg = g.cfg) (tool : g'.toolInUse = g.toolInUse)
    (agent : g'.principalInUse = g.principalInUse) : g.Grants g' where
  cfg := cfg
  tool := fun ts => by
    rw [toolHeld, tool]
    exact le_max_left ..
  agent := fun a => by
    rw [agentHeld, agent]
    exact le_max_left ..

theorem refl (g : LocalGovernor κ) : g.Grants g := of_eq rfl rfl rfl

theorem trans (h : g.Grants g') (h' : g'.Grants g'') : g.Grants g'' where
  cfg := h'.cfg.trans h.cfg
  tool := fun ts => by
    have same : g'.toolLimit ts = g.toolLimit ts := by rw [toolLimit, toolLimit, h.cfg]
    have first := h.tool ts
    have second := h'.tool ts
    rw [same] at second
    omega
  agent := fun a => by
    have first := h.agent a
    have second := h'.agent a
    rw [h.cfg] at second
    omega

theorem take (free : g.canTake ts agent = true) : g.Grants (g.take ts agent) := by
  obtain ⟨tool, principal⟩ := canTake_iff.mp free
  refine ⟨rfl, fun ts' => ?_, fun a => ?_⟩
  · rw [toolHeld_take]
    split
    · next same =>
      rw [same]
      exact le_max_of_le_right tool
    · exact le_max_left ..
  · rw [agentHeld_take]
    split
    · exact le_max_of_le_right principal
    · exact le_max_left ..

theorem releaseSlot (g : LocalGovernor κ) (key : ToolKey) (agent : String) :
    g.Grants (g.releaseSlot key agent) := by
  refine ⟨rfl, fun ts => le_max_of_le_left ?_, fun a => le_max_of_le_left ?_⟩
  · rw [toolHeld_releaseSlot]
    split
    · next here =>
      rw [here.1]
      omega
    · exact le_rfl
  · rw [agentHeld_releaseSlot]
    split
    · next here =>
      rw [here.1]
      omega
    · exact le_rfl

theorem enqueue : g.Grants (g.enqueue who key deadline cb) := of_eq rfl rfl rfl

theorem unqueue : g.Grants (g.unqueue ts w rest) := of_eq rfl rfl rfl

/-- Whoever asks gets a slot only if one is free. -/
theorem acquire (g : LocalGovernor κ) (who : Principal) (key : ToolKey) (deadline : UInt64)
    (cb : κ) (now : UInt64) : g.Grants (g.acquire who key deadline cb now).1 := by
  rcases g.acquire_cases who key deadline cb now with
    ⟨free, done⟩ | ⟨-, deadline', -, done⟩ | ⟨-, done⟩
  · rw [done]
    exact take free
  · rw [done]
    exact enqueue
  · rw [done]
    exact refl g

/-- So does whoever waits at the front of a queue. -/
theorem tryDequeueTurn (ok : g.QueuesOk) (ts : String) (now : UInt64) :
    g.Grants (g.tryDequeueTurn ts now).1 := by
  rcases g.tryDequeueTurn_cases ts now with
    ⟨done, -⟩ | ⟨w, rest, front, free, ⟨-, done⟩ | ⟨-, done⟩⟩
  · rw [done]
    exact refl g
  · rw [done]
    exact unqueue
  · have key : w.key.str = ts := ok.key (by rw [front]; exact List.mem_cons_self)
    have free' : (g.unqueue ts w rest).canTake w.key.str w.who.agentId = true := by
      rw [key]
      exact free
    rw [done]
    exact unqueue.trans (take free')

theorem rejectTurn (g : LocalGovernor κ) (ts : String) : g.Grants (g.rejectTurn ts).1 := by
  rcases g.rejectTurn_cases ts with ⟨done, -⟩ | ⟨w, rest, -, done⟩
  · rw [done]
    exact refl g
  · rw [done]
    exact unqueue

theorem expire (ok : g.QueuesOk) {timer : ℕ} {r : LocalGovernor κ × Option (Waiter κ)}
    (fired : g.expire timer = some r) : g.Grants r.1 := by
  obtain ⟨ts, l₁, w, l₂, -, -, rfl⟩ := expire_cases ok fired
  exact unqueue

end Grants

/-! ## What is in use -/

/-- No more is in use than a configuration allows. -/
structure Limited (cfg : YamlConfig) (g : LocalGovernor κ) : Prop where
  ceiling : ∀ ts, g.cfg.ceiling ts = cfg.ceiling ts
  perPrincipal : g.cfg.perPrincipalConcurrency = cfg.perPrincipalConcurrency
  tool : ∀ ts, g.toolHeld ts ≤ max 0 (cfg.ceiling ts)
  agent : ∀ a, g.agentHeld a ≤ max 0 cfg.perPrincipalConcurrency

namespace Limited

variable {cfg : YamlConfig}

theorem initial (cfg : YamlConfig) : Limited cfg ({ cfg := cfg } : LocalGovernor κ) where
  ceiling := fun _ => rfl
  perPrincipal := rfl
  tool := fun _ => le_max_left ..
  agent := fun _ => le_max_left ..

theorem grants (limited : Limited cfg g) (h : g.Grants g') : Limited cfg g' where
  ceiling := fun ts => by rw [h.cfg, limited.ceiling]
  perPrincipal := by rw [h.cfg, limited.perPrincipal]
  tool := fun ts => by
    have granted := h.tool ts
    have before := limited.tool ts
    have below := g.toolLimit_le_ceiling ts
    rw [limited.ceiling] at below
    omega
  agent := fun a => by
    have granted := h.agent a
    have before := limited.agent a
    rw [limited.perPrincipal] at granted
    omega

theorem onToolsListed (limited : Limited cfg g) (backend : String) (tools : List String) :
    Limited cfg (g.onToolsListed backend tools) where
  ceiling := fun ts => by rw [ceiling_onToolsListed, limited.ceiling]
  perPrincipal := limited.perPrincipal
  tool := limited.tool
  agent := limited.agent

end Limited

end LocalGovernor

end Perfacet
