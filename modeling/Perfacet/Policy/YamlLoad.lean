import Perfacet.Policy.Yaml
import Perfacet.Policy.YamlIdentityStore

/-!
# Loading the configuration

`YamlConfig::load`, section by section. What it checks of levels, agents and backends decides who
may call what later on; the other settings have defaults, and are only converted.

## Main definitions

* `Taxonomy.make` — the levels that a taxonomy is made of
* `LoadedConfig`, `LoadedConfig.load` — the configuration, and how it is read from a document
-/

namespace Perfacet

open YamlNode

/-! ## Levels -/

/-- One round of the constructor's loop, over the names that it has seen. -/
def Taxonomy.addLevel (seen : List String) (name : String) : Except LoadError (List String) :=
  if name = "" then .error (.runtime (Json.ofUnicode "access.levels 含空名字"))
  else if name ∈ seen then .error (.runtime (Json.ofUnicode "access.levels 重复: " ++ name))
  else .ok (seen ++ [name])

/-- The constructor. Its counter is a rank and has 16 bits: behind the last one it starts again,
with a name that it has seen. -/
def Taxonomy.make (levels : List String) : Except LoadError Taxonomy := do
  reject (levels = []) (.runtime (Json.ofUnicode "access.levels 不能为空"))
  let seen ← (levels.take (2 ^ 16)).foldlM addLevel []
  if levels.length < 2 ^ 16 then pure ⟨seen⟩
  else throw (.runtime (Json.ofUnicode "access.levels 重复: " ++ levels.headD ""))

/-- The name of a rank that there is. -/
def Taxonomy.nameOf (t : Taxonomy) (r : Rank) : String := t.levels.getD r.toNat ""

def Taxonomy.maxRank (t : Taxonomy) : Rank :=
  if t.levels = [] then 0 else UInt16.ofNat (t.levels.length - 1)

/-! ## The configuration -/

/-- The settings of the process itself. -/
structure ServerSettings where
  listen : String := "127.0.0.1:8741"
  workers : ℤ := 4
  workerQueueMax : UInt64 := 256
  drainTimeoutMs : UInt64 := 3000
  grantsPath : String := "grants.jsonl"
  grantRefreshMs : UInt64 := 100
  listTtlMs : UInt64 := 5000
  httpMaxBodyBytes : UInt64 := 1048576
  originAllowlist : List String := ["*"]

/-- Levels, and how far they can be raised. -/
structure AccessSettings where
  taxonomy : Taxonomy
  elevationMax : Rank
  elevationMaxName : String
  elevationTtlMs : UInt64 := 900000
  elevationConfigured : Bool := false

/-- A backend together with the name of its level. -/
structure NamedBackend extends BackendCfg where
  levelName : String

/-- The settings of the components behind the front end. -/
structure TuningSettings where
  healthIntervalMs : UInt64 := 5000
  degradedLatencyMs : UInt64 := 1000
  downAfterFailures : ℤ := 3
  circuitOpenAfter : ℤ := 5
  circuitCooldownMs : UInt64 := 30000
  halfOpenProbes : ℤ := 1
  retryMaxAttempts : ℤ := 2
  retryable : List FailureClass := [.timeout, .unavailable, .upstream]
  neverRetry : List FailureClass := [.authz, .cancelled, .protocol, .throttled, .capability]
  perToolConcurrency : ℤ := 4
  perPrincipalConcurrency : ℤ := 10
  queueWaitMs : UInt64 := 5000
  ratePerSec : ℤ := 20
  governorTools : UnorderedMap String GovernorToolCfg := ∅
  promoteAfterMs : UInt64 := 2000
  taskTtlMs : UInt64 := 3600000
  taskMax : UInt64 := 10000
  otelEndpoint : String := "http://127.0.0.1:4318/v1/traces"
  otelService : String := "perfacet"
  otelQueueMax : UInt64 := 1024
  auditPath : String := "audit.jsonl"

/-- The whole configuration. -/
structure LoadedConfig extends ServerSettings, AccessSettings, TuningSettings where
  agents : List AgentCfg
  backends : List NamedBackend

namespace LoadedConfig

variable (y : YamlReader)

def loadHttp (c : ServerSettings) (h : YamlNode) : Except LoadError ServerSettings := do
  let httpMaxBodyBytes ← h.setting "max_body_bytes" y.unsigned c.httpMaxBodyBytes
  let originAllowlist ← h.within "origin_allowlist" (list y.text) c.originAllowlist
  reject (originAllowlist = []) (.runtime (Json.ofUnicode "http.origin_allowlist 不能为空"))
  pure { c with httpMaxBodyBytes := httpMaxBodyBytes, originAllowlist := originAllowlist }

def loadServer (root : YamlNode) : Except LoadError ServerSettings := do
  let c : ServerSettings := {}
  let listen ← root.setting "listen" y.text c.listen
  let workers ← root.setting "workers" y.int c.workers
  let workerQueueMax ← root.setting "worker_queue_max" y.unsigned c.workerQueueMax
  let drainTimeoutMs ← root.setting "drain_timeout_ms" y.unsigned c.drainTimeoutMs
  let grantsPath ← root.setting "grants_path" y.text c.grantsPath
  let grantRefreshMs ← root.setting "grant_refresh_ms" y.unsigned c.grantRefreshMs
  let listTtlMs ← root.setting "list_ttl_ms" y.unsigned c.listTtlMs
  let c := { c with listen := listen, workers := workers, workerQueueMax := workerQueueMax,
                    drainTimeoutMs := drainTimeoutMs, grantsPath := grantsPath,
                    grantRefreshMs := grantRefreshMs, listTtlMs := listTtlMs }
  root.within "http" (loadHttp y c) c

/-- `access.elevation`; it may lower the ceiling. -/
def loadElevation (c : AccessSettings) (el : YamlNode) : Except LoadError AccessSettings := do
  let elevationTtlMs ← el.setting "ttl_ms" y.unsigned c.elevationTtlMs
  let c := { c with elevationConfigured := true, elevationTtlMs := elevationTtlMs }
  match ← el.get "max_level" with
  | none => pure c
  -- a ceiling that is no level is an error, not a default
  | some v => do
    let name ← as y.text (some v)
    match c.taxonomy.parse name with
    | none => throw (.runtime (Json.ofUnicode "elevation.max_level 不在 levels 中: " ++ name))
    | some rank => pure { c with elevationMax := rank, elevationMaxName := name }

/-- `access.levels`, if it is there and is a sequence. -/
def accessLevels (root : YamlNode) : Except LoadError (YamlNode × List YamlNode) := do
  match ← root.get "access" with
  | none => throw (.runtime (Json.ofUnicode "缺少 access.levels"))
  | some access =>
    match ← access.get "levels" with
    | some (.sequence items) => pure (access, items)
    | _ => throw (.runtime (Json.ofUnicode "缺少 access.levels"))

def loadAccess (root : YamlNode) : Except LoadError AccessSettings := do
  let (access, items) ← accessLevels root
  let levels ← items.mapM fun n => as y.text (some n)
  let taxonomy ← Taxonomy.make levels
  let c : AccessSettings :=
    { taxonomy := taxonomy, elevationMax := taxonomy.maxRank
      elevationMaxName := taxonomy.nameOf taxonomy.maxRank }
  access.within "elevation" (loadElevation y c) c

/-- The level of an agent or a backend, with its name; `exempt` says whether it may be left out. If
there is only one level, it goes without saying. -/
def levelOf (taxonomy : Taxonomy) (who : String) (exempt : Bool) (node : YamlNode) :
    Except LoadError (Option (Rank × String)) := do
  match ← node.get "level" with
  | none =>
    -- an administrator may be without a level
    if exempt then pure none
    else if taxonomy.levels.length = 1 then pure (some (0, taxonomy.nameOf 0))
    else throw (.runtime (Json.ofUnicode "多档时 " ++ who ++ Json.ofUnicode " 必须写 level"))
  | some v => do
    let name ← as y.text (some v)
    match taxonomy.parse name with
    | none => throw (.runtime (who ++ Json.ofUnicode " 的 level 不在 levels 中: " ++ name))
    | some rank => pure (some (rank, name))

/-- A text that has to be there. -/
def required (who key : String) (node : YamlNode) : Except LoadError String := do
  match ← node.get key with
  | none => throw (.runtime (who ++ Json.ofUnicode " 缺少 " ++ key))
  | some v => as y.text (some v)

/-- One round of the loop over the agents. -/
def addAgent (taxonomy : Taxonomy) (agents : List AgentCfg) (entry : YamlNode × YamlNode) :
    Except LoadError (List AgentCfg) := do
  let id ← as y.text (some entry.1)
  let who := "agent " ++ id
  let token ← required y who "token" entry.2
  reject (token = "") (.runtime (who ++ Json.ofUnicode " token 为空"))
  reject (token ∈ agents.map AgentCfg.token)
    (.runtime (Json.ofUnicode "重复 token（agent=" ++ id ++ Json.ofUnicode "）"))
  let admin ← entry.2.setting "admin" y.bool false
  let level ← levelOf y taxonomy who admin entry.2
  -- without a level the rank is zero, and `hasLevel` says that it does not count
  let a : AgentCfg :=
    match level with
    | none => { id := id, token := token, level := 0, hasLevel := false, admin := admin,
                levelName := "" }
    | some (rank, name) => { id := id, token := token, level := rank, hasLevel := true,
                             admin := admin, levelName := name }
  pure (agents ++ [a])

def loadAgents (taxonomy : Taxonomy) (root : YamlNode) : Except LoadError (List AgentCfg) := do
  match ← root.get "agents" with
  | some (.map entries) => do
    let agents ← entries.foldlM (addAgent y taxonomy) []
    reject (agents = []) (.runtime (Json.ofUnicode "agents 不能为空"))
    pure agents
  | _ => throw (.runtime (Json.ofUnicode "缺少 agents"))

/-- One round of the loop over the backends. -/
def addBackend (taxonomy : Taxonomy) (backends : List NamedBackend) (node : YamlNode) :
    Except LoadError (List NamedBackend) := do
  let name ← required y "backend" "name" node
  reject (name = "") (.runtime (Json.ofUnicode "backend name 为空"))
  reject (['_', '_'] <:+: name.toList) (.runtime (Json.ofUnicode "backend 名禁止含 __: " ++ name))
  reject (name ∈ backends.map (·.name)) (.runtime (Json.ofUnicode "backend 名重复: " ++ name))
  let who := "backend " ++ name
  let url ← required y who "url" node
  let level ← levelOf y taxonomy who false node
  let secret ← node.setting "secret" y.bool false
  let idempotentTools ← node.within "idempotent_tools" (list y.text) []
  -- A backend is never exempt, so there is a level.
  let (rank, levelName) := level.getD (0, "")
  pure (backends ++
    [{ name := name, url := url,
       metaData := { level := rank, secret := secret, idempotentTools := idempotentTools },
       levelName := levelName }])

def loadBackends (taxonomy : Taxonomy) (root : YamlNode) :
    Except LoadError (List NamedBackend) := do
  match ← root.get "backends" with
  | some (.sequence items) => do
    let backends ← items.foldlM (addBackend y taxonomy) []
    reject (backends = []) (.runtime (Json.ofUnicode "backends 不能为空"))
    pure backends
  | _ => throw (.runtime (Json.ofUnicode "缺少 backends"))

/-! ## The other sections -/

def loadHealth (c : TuningSettings) (h : YamlNode) : Except LoadError TuningSettings := do
  let healthIntervalMs ← h.setting "interval_ms" y.unsigned c.healthIntervalMs
  let degradedLatencyMs ← h.setting "degraded_latency_ms" y.unsigned c.degradedLatencyMs
  let downAfterFailures ← h.setting "down_after_failures" y.int c.downAfterFailures
  pure { c with healthIntervalMs := healthIntervalMs, degradedLatencyMs := degradedLatencyMs,
                downAfterFailures := downAfterFailures }

def loadCircuit (c : TuningSettings) (x : YamlNode) : Except LoadError TuningSettings := do
  let circuitOpenAfter ← x.setting "open_after" y.int c.circuitOpenAfter
  let circuitCooldownMs ← x.setting "cooldown_ms" y.unsigned c.circuitCooldownMs
  let halfOpenProbes ← x.setting "half_open_probes" y.int c.halfOpenProbes
  pure { c with circuitOpenAfter := circuitOpenAfter, circuitCooldownMs := circuitCooldownMs,
                halfOpenProbes := halfOpenProbes }

def failureClassFromName (name : String) : Option FailureClass :=
  [FailureClass.ok, .cancelled, .timeout, .unavailable, .throttled, .protocol, .capability,
    .upstream, .authz, .internal].find? fun k => failureClassName k = name

def mustKlass (ctx name : String) : Except LoadError FailureClass :=
  match failureClassFromName name with
  | none => .error (.runtime (ctx ++ Json.ofUnicode " 未知 FailureClass: " ++ name))
  | some k => .ok k

/-- A list of failure classes, by their names. -/
def klasses (ctx : String) (node : YamlNode) : Except LoadError (List FailureClass) :=
  node.elements.mapM fun n => do mustKlass ctx (← as y.text n)

def loadRetry (c : TuningSettings) (r : YamlNode) : Except LoadError TuningSettings := do
  let retryMaxAttempts ← r.setting "max_attempts" y.int c.retryMaxAttempts
  let retryable ← r.within "retryable" (klasses y "retry.retryable") c.retryable
  let neverRetry ← r.within "never" (klasses y "retry.never") c.neverRetry
  pure { c with retryMaxAttempts := retryMaxAttempts, retryable := retryable,
                neverRetry := neverRetry }

def loadLimits (c : TuningSettings) (d : YamlNode) : Except LoadError TuningSettings := do
  let perToolConcurrency ← d.setting "per_tool_concurrency" y.int c.perToolConcurrency
  let perPrincipalConcurrency ←
    d.setting "per_principal_concurrency" y.int c.perPrincipalConcurrency
  let queueWaitMs ← d.setting "queue_wait_ms" y.unsigned c.queueWaitMs
  let ratePerSec ← d.setting "rate_per_sec" y.int c.ratePerSec
  pure { c with perToolConcurrency := perToolConcurrency,
                perPrincipalConcurrency := perPrincipalConcurrency, queueWaitMs := queueWaitMs,
                ratePerSec := ratePerSec }

/-- One round of the loop over the tools: of two entries for a tool the first counts. -/
def addTool (tools : UnorderedMap String GovernorToolCfg) (entry : YamlNode × YamlNode) :
    Except LoadError (UnorderedMap String GovernorToolCfg) := do
  let key ← as y.text (some entry.1)
  reject (ToolKey.parse key = none)
    (.runtime (Json.ofUnicode "governor.tools 键不是 ToolKey: " ++ key))
  let tc : GovernorToolCfg := {}
  let maxConcurrency ← entry.2.setting "max_concurrency" y.int tc.maxConcurrency
  let queueWaitMs ← entry.2.setting "queue_wait_ms" y.unsigned tc.queueWaitMs
  let tc := { tc with maxConcurrency := maxConcurrency, queueWaitMs := queueWaitMs }
  -- a key that comes twice keeps its first entry
  pure (if (tools.lookup key).isSome then tools else tools.insert key tc)

def loadGovernor (c : TuningSettings) (g : YamlNode) : Except LoadError TuningSettings := do
  let c ← g.within "default" (loadLimits y c) c
  match ← g.get "tools" with
  | some (.map entries) => do
    let governorTools ← entries.foldlM (addTool y) c.governorTools
    pure { c with governorTools := governorTools }
  | _ => pure c

def loadTasks (c : TuningSettings) (t : YamlNode) : Except LoadError TuningSettings := do
  let promoteAfterMs ← t.setting "promote_after_ms" y.unsigned c.promoteAfterMs
  let taskTtlMs ← t.setting "ttl_ms" y.unsigned c.taskTtlMs
  let taskMax ← t.setting "max" y.unsigned c.taskMax
  pure { c with promoteAfterMs := promoteAfterMs, taskTtlMs := taskTtlMs, taskMax := taskMax }

def loadOtel (c : TuningSettings) (o : YamlNode) : Except LoadError TuningSettings := do
  let otelEndpoint ← o.setting "endpoint" y.text c.otelEndpoint
  let otelService ← o.setting "service_name" y.text c.otelService
  let otelQueueMax ← o.setting "queue_max" y.unsigned c.otelQueueMax
  pure { c with otelEndpoint := otelEndpoint, otelService := otelService,
                otelQueueMax := otelQueueMax }

def loadAudit (c : TuningSettings) (a : YamlNode) : Except LoadError TuningSettings := do
  let auditPath ← a.setting "path" y.text c.auditPath
  pure { c with auditPath := auditPath }

def loadTuning (root : YamlNode) : Except LoadError TuningSettings := do
  let c : TuningSettings := {}
  let c ← root.within "health" (loadHealth y c) c
  let c ← root.within "circuit" (loadCircuit y c) c
  let c ← root.within "retry" (loadRetry y c) c
  let c ← root.within "governor" (loadGovernor y c) c
  let c ← root.within "tasks" (loadTasks y c) c
  let c ← root.within "otel" (loadOtel y c) c
  root.within "audit" (loadAudit y c) c

/-- `YamlConfig::load`, on what the library makes of the file: a document, or the text of an
exception. -/
def load (path : String) (file : Except String YamlNode) : Except LoadError LoadedConfig :=
  match file with
  | .error what =>
    .error (.runtime (Json.ofUnicode "无法读取配置 " ++ path ++ ": " ++ what))
  | .ok root => do
    reject (root.isMap = false) (.runtime (Json.ofUnicode "配置根必须是 mapping: " ++ path))
    let server ← loadServer y root
    let access ← loadAccess y root
    let agents ← loadAgents y access.taxonomy root
    let backends ← loadBackends y access.taxonomy root
    let tuning ← loadTuning y root
    pure { toServerSettings := server, toAccessSettings := access, toTuningSettings := tuning,
           agents := agents, backends := backends }

end LoadedConfig

end Perfacet
