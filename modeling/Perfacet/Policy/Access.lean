import Perfacet.Policy.YamlConfig

/-!
# Who may call what

The catalog of backends, the rank comparison that authorises a call, the tool list a
principal gets to see, and the table of temporary grants.

## Main definitions

* `Catalog`, `RankPolicy.authorizeCall` — the decision on one call
* `FacetView.listTools` — the tools whose call would be allowed
* `GrantTable` — grants by id, as the event loop reads them
-/

namespace Perfacet

/-! ## Catalog -/

/-- A configured upstream; `backend` says whether the object to call is there. -/
structure CatalogEntry where
  name : String
  url : String
  metaData : BackendMeta
  backend : Bool
  deriving DecidableEq, Repr

/-- The configured upstreams by name. -/
abbrev Catalog := UnorderedMap String CatalogEntry

namespace Catalog

def add (c : Catalog) (e : CatalogEntry) : Catalog := c.insert e.name e

/-- The catalog that the gateway makes of its configuration. -/
def ofBackends (backends : List BackendCfg) : Catalog :=
  backends.foldl
    (fun c b => c.add { name := b.name, url := b.url, metaData := b.metaData, backend := true }) ∅

def find (c : Catalog) (name : String) : Option CatalogEntry := c.lookup name

/-- The names in iteration order. -/
def names (c : Catalog) : List String := c.keys

/-- Whether there is a backend object to call under a name. -/
def backend (c : Catalog) (name : String) : Bool :=
  match c.find name with
  | some e => e.backend
  | none => false

end Catalog

/-! ## Authorisation -/

/-- `unknown` is how a secret backend looks from below its rank. -/
inductive Decision
  | allow | deny | unknown
  deriving DecidableEq, Repr

namespace RankPolicy

/-- The gateway's own tools. -/
def builtinDecision (who : Principal) (key : ToolKey) : Decision :=
  if key.tool = "request_elevation" then
    if who.hasLevel then .allow else .deny
  else if key.tool = "upstream_status" then
    if who.admin then .allow else .deny
  else if who.admin then .allow else .unknown

def authorizeCall (catalog : Catalog) (who : Principal) (key : ToolKey) : Decision :=
  if key.backend = "perfacet" then builtinDecision who key
  else
    match catalog.find key.backend with
    | none => .unknown
    | some e =>
      if !who.hasLevel then .deny
      else if effectiveRank who < e.metaData.level then
        -- of a secret backend not even the refusal may tell
        if e.metaData.secret then .unknown else .deny
      else .allow

end RankPolicy

/-! ## Tool lists -/

/-- A tool of an upstream as its own list describes it. -/
structure IndexedTool where
  name : String
  description : String
  inputSchema : Json
  deriving Repr

/-- The last good tool list of every backend. -/
structure ToolIndex where
  byBackend : UnorderedMap String (List IndexedTool) := ∅
  anyWrite : Bool := false

namespace ToolIndex

def replace (index : ToolIndex) (backend : String) (tools : List IndexedTool) : ToolIndex :=
  { byBackend := index.byBackend.insert backend tools, anyWrite := true }

/-- No list was ever written. -/
def cold (index : ToolIndex) : Bool := !index.anyWrite

end ToolIndex

namespace IndexRefresher

/-- One tool of an upstream's list; what has no name is skipped. -/
def tool (t : Json) : Except JsonError (Option IndexedTool) :=
  match t.field? "name" with
  | none => .ok none
  | some name => do
    let name ← name.getString
    let description ← t.valueString "description" ""
    pure (some { name := name, description := description,
                 inputSchema := (t.field? "inputSchema").getD .object })

def tools : List Json → Except JsonError (List IndexedTool)
  | [] => .ok []
  | t :: rest => do
    let first ← tool t
    let others ← tools rest
    pure (first.toList ++ others)

/-- `IndexRefresher::onProbeResult`: only a tool list is taken over. -/
def onProbeResult (index : ToolIndex) (server : String) (toolList : Option Json) :
    Except JsonError ToolIndex :=
  match toolList.bind (·.field? "tools") with
  | some (.arr items) => do pure (index.replace server (← tools items))
  | _ => .ok index

end IndexRefresher

namespace FacetView

/-- How one of the gateway's own tools is listed. -/
def builtinItem (key : ToolKey) : Json :=
  if key.tool = "request_elevation" then
    .ofMembers
      [("name", .str key.str), ("description", .str (Json.ofUnicode "申请临时提权（CLI 审批 + TTL）")),
        ("inputSchema", .ofMembers
          [("type", .str "object"),
            ("properties", .ofMembers [("bump_to", .ofMembers [("type", .str "string")])]),
            ("required", .arr [.str "bump_to"])])]
  else
    .ofMembers
      [("name", .str key.str), ("description", .str (Json.ofUnicode "上游健康快照（控制面）")),
        ("inputSchema", .ofMembers [("type", .str "object")])]

/-- How an upstream's tool is listed. -/
def indexedItem (key : ToolKey) (t : IndexedTool) : Json :=
  .ofMembers
    [("name", .str key.str), ("description", .str t.description),
      ("inputSchema", if t.inputSchema.isNull then .object else t.inputSchema)]

/-- The tools whose call the policy would allow. -/
def listTools (catalog : Catalog) (index : ToolIndex) (who : Principal) : Json :=
  let visible := fun key => decide (RankPolicy.authorizeCall catalog who key = .allow)
  let upstream := index.byBackend.entries.flatMap fun e =>
    (e.2.filter fun t => visible ⟨e.1, t.name⟩).map fun t => indexedItem ⟨e.1, t.name⟩ t
  let builtin := (["request_elevation", "upstream_status"].filter fun tool =>
    visible ⟨"perfacet", tool⟩).map fun tool => builtinItem ⟨"perfacet", tool⟩
  .arr (upstream ++ builtin)

end FacetView

/-! ## Grants -/

/-- One line of the grant log. -/
structure GrantRecord where
  id : String
  agent : String
  bumpTo : String
  rank : Rank
  status : String
  expiresAt : UInt64
  tsMs : UInt64
  deriving DecidableEq, Repr

/-- The snapshot of the grants by id. -/
abbrev GrantTable := UnorderedMap String GrantRecord

namespace GrantTable

/-- The JSON line that `appendLine` writes for a record. -/
def line (r : GrantRecord) : Json :=
  .ofMembers
    [("id", .str r.id), ("agent", .str r.agent), ("bump_to", .str r.bumpTo),
      ("rank", .int r.rank.toNat), ("status", .str r.status),
      ("expiresAt", .int r.expiresAt.toNat), ("ts_ms", .int r.tsMs.toNat)]

/-- What `appendPending` puts into the table before the line is serialised. -/
def pending (id agent bumpTo : String) (rank : Rank) (now : UInt64) : GrantRecord :=
  { id := id, agent := agent, bumpTo := bumpTo, rank := rank, status := "pending",
    expiresAt := 0, tsMs := now }

/-- Milliseconds until the first of an agent's approved grants expires, or the largest
number there is. -/
def shortestRemainingMs (t : GrantTable) (agentId : String) (now : UInt64) : UInt64 :=
  t.entries.foldl
    (fun best e =>
      if e.2.agent ≠ agentId ∨ e.2.status ≠ "approved" then best
      else if now ≥ e.2.expiresAt then best
      else if e.2.expiresAt - now < best then e.2.expiresAt - now else best)
    0xFFFFFFFFFFFFFFFF

/-- The highest rank that a grant in force gives an agent. -/
def effectiveBump (t : GrantTable) (agentId : String) (now : UInt64) : Rank :=
  t.entries.foldl
    (fun bump e =>
      if e.2.agent ≠ agentId then bump
      else if e.2.status ≠ "approved" then bump
      else if now ≥ e.2.expiresAt then bump
      else if e.2.rank > bump then e.2.rank else bump)
    0

end GrantTable

end Perfacet
