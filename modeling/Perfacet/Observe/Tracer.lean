import Perfacet.Ir.Request
import Perfacet.Lib.UnorderedMap

/-!
# Spans

The tracer keeps the spans that have started and not ended, by span id. Ending a span turns
it into one line of JSON for the exporter; the serialiser throws if a string of the span is
not UTF-8, and a trace id may come straight from a request header.
-/

namespace Perfacet

/-- What is known about a span while it is open. -/
structure SpanAcc where
  principal : String
  level : String
  tool : String
  name : String
  startMs : UInt64
  attrs : UnorderedMap String String := ∅

structure Tracer where
  service : String
  live : UnorderedMap String SpanAcc := ∅

namespace Tracer

/-- Open a span under a fresh id. -/
def start (t : Tracer) (req : Request) (spanId spanName : String) (now : UInt64) : Tracer :=
  { t with
    live := t.live.insert spanId
      { principal := req.who.agentId, level := req.who.levelName, tool := req.name,
        name := spanName, startMs := now } }

/-- Set an attribute of an open span. -/
def set (t : Tracer) (ctx : TraceContext) (key value : String) : Tracer :=
  match t.live.lookup ctx.spanId with
  | none => t
  | some acc =>
    { t with live := t.live.insert ctx.spanId { acc with attrs := acc.attrs.insert key value } }

/-- One attribute; empty values are left out. -/
def attr (key value : String) : List Json :=
  if value.isEmpty then []
  else [.ofMembers [("key", .str key), ("value", .ofMembers [("stringValue", .str value)])]]

/-- The JSON of a span that ends. -/
def payload (t : Tracer) (acc : SpanAcc) (ctx : TraceContext) (k : FailureClass)
    (latencyMs : UInt64) : Json :=
  let startNs := acc.startMs * 1000000
  -- the end is made of the start and the latency, and not read from the clock
  let endNs := startNs + latencyMs * 1000000
  let server :=
    match ToolKey.parse acc.tool with
    | some key => attr "server" key.backend
    | none => []
  let attrs := attr "service.name" t.service ++ attr "principal" acc.principal ++
    attr "level" acc.level ++ attr "tool" acc.tool ++ server ++
    attr "status" (failureClassName k) ++ acc.attrs.entries.flatMap (fun e => attr e.1 e.2) ++
    [.ofMembers [("key", .str "latency_ms"),
      ("value", .ofMembers [("intValue", .str (toString latencyMs.toNat))])]]
  let span : Json := .ofMembers
    [("traceId", .str ctx.traceId), ("spanId", .str ctx.spanId), ("name", .str acc.name),
      ("kind", .int 1), ("startTimeUnixNano", .str (toString startNs.toNat)),
      ("endTimeUnixNano", .str (toString endNs.toNat)), ("attributes", .arr attrs),
      ("status", .ofMembers [("code", .int (if k = .ok then 1 else 2)),
        ("message", .str (failureClassName k))])]
  let span := if ctx.parentSpanId.isEmpty then span
    else span.set "parentSpanId" (.str ctx.parentSpanId)
  .ofMembers [("resourceSpans", .arr [.ofMembers
    [("resource", .ofMembers [("attributes", .arr [.ofMembers
        [("key", .str "service.name"), ("value", .ofMembers [("stringValue", .str t.service)])]])]),
      ("scopeSpans", .arr [.ofMembers [("spans", .arr [span])]])]])]

/-- End a span: it is closed first, then its JSON is serialised. A span that is not open
ends without effect. -/
def finish (t : Tracer) (ctx : TraceContext) (k : FailureClass) (latencyMs : UInt64) :
    Tracer × Except JsonError String :=
  match t.live.lookup ctx.spanId with
  | none => (t, .ok "")
  | some acc =>
    ({ t with live := t.live.erase ctx.spanId }, (t.payload acc ctx k latencyMs).dump)

end Tracer

end Perfacet
