import Perfacet.Ir.Utf8
import Perfacet.Observe.Tracer

/-!
# Spans that can be exported

The JSON of a span repeats texts of the operator, of the client and of the request's headers,
and nothing else that could fail to be UTF-8.

## Main results

* `Tracer.allUtf8_payload_iff` — which spans can be serialised
-/

namespace Perfacet

namespace Json

theorem allUtf8Items_iff {items : List Json} :
    allUtf8Items items = true ↔ ∀ j ∈ items, j.allUtf8 = true := by
  induction items with
  | nil => simp [allUtf8Items]
  | cons j items ih => simp [allUtf8Items, ih]

end Json

/-- The tool of a UTF-8 name has a UTF-8 backend: the separator is ASCII. -/
theorem ToolKey.utf8_backend {name : String} {key : ToolKey} (parsed : parse name = some key)
    (plain : Json.utf8 name = true) : Json.utf8 key.backend = true := by
  have cut : name.toList = key.backend.toList ++ '_' :: '_' :: key.tool.toList := by
    rw [← parse_spec parsed, str]
    simp
  rw [Json.utf8, cut] at plain
  exact ((Json.utf8_append_ascii Json.owes_nil (by decide)).mp plain).1

namespace TraceContext

/-- The ids of a span are UTF-8. -/
structure Legible (ctx : TraceContext) : Prop where
  traceId : Json.utf8 ctx.traceId = true
  spanId : Json.utf8 ctx.spanId = true
  parentSpanId : Json.utf8 ctx.parentSpanId = true

end TraceContext

namespace SpanAcc

/-- The texts that a span has besides those of its client are UTF-8. -/
structure Plain (acc : SpanAcc) : Prop where
  tool : Json.utf8 acc.tool = true
  name : Json.utf8 acc.name = true
  attrs : ∀ {key value : String}, acc.attrs.lookup key = some value →
    Json.utf8 key = true ∧ Json.utf8 value = true

end SpanAcc

namespace Tracer

variable {t : Tracer} {acc : SpanAcc} {ctx : TraceContext} {key value : String}

theorem utf8_failureClassName (k : FailureClass) : Json.utf8 (failureClassName k) = true := by
  cases k <;> decide

/-- An empty value is left out, and it is UTF-8 all the same. -/
theorem allUtf8_attr_iff (plain : Json.utf8 key = true) :
    (∀ j ∈ attr key value, j.allUtf8 = true) ↔ Json.utf8 value = true := by
  have keys : Json.utf8 "key" = true ∧ Json.utf8 "value" = true ∧
    Json.utf8 "stringValue" = true := by decide
  unfold attr
  split
  · next empty =>
    obtain rfl := String.isEmpty_iff.mp empty
    simp [Json.utf8, Json.utf8From]
  · simp only [Json.ofMembers, List.foldl_cons, List.foldl_nil, Json.setField, String.reduceLT,
      String.reduceEq, if_false, List.forall_mem_singleton, Json.allUtf8, Json.allUtf8Members,
      plain, keys, Bool.and_true, Bool.true_and]

/-- Of the attributes of a span, only texts of the operator and the client may fail to be
UTF-8. -/
theorem allUtf8_attrs_iff (plain : acc.Plain) {server : List Json}
    (named : ∀ j ∈ server, j.allUtf8 = true) (service : String) (klass : FailureClass)
    (ms : UInt64) :
    Json.allUtf8Items (attr "service.name" service ++ attr "principal" acc.principal ++
      attr "level" acc.level ++ attr "tool" acc.tool ++ server ++
      attr "status" (failureClassName klass) ++ acc.attrs.entries.flatMap (fun e => attr e.1 e.2) ++
      [.ofMembers [("key", .str "latency_ms"),
        ("value", .ofMembers [("intValue", .str (toString ms.toNat))])]]) = true ↔
      Json.utf8 service = true ∧ Json.utf8 acc.principal = true ∧ Json.utf8 acc.level = true := by
  have latency : (Json.ofMembers [("key", .str "latency_ms"),
      ("value", .ofMembers [("intValue", .str (toString ms.toNat))])]).allUtf8 = true := by
    have keys : Json.utf8 "key" = true ∧ Json.utf8 "value" = true ∧ Json.utf8 "intValue" = true ∧
      Json.utf8 "latency_ms" = true := by decide
    have digits : Json.utf8 ms.toNat.repr = true := Json.utf8_toString_nat _
    apply Json.allUtf8_ofMembers
    simp [Json.ofMembers, Json.setField, Json.allUtf8, Json.allUtf8Members, keys, digits]
  have gathered : ∀ j ∈ acc.attrs.entries.flatMap (fun e => attr e.1 e.2), j.allUtf8 = true := by
    intro j member
    obtain ⟨e, inside, here⟩ := List.mem_flatMap.mp member
    obtain ⟨key, value⟩ := plain.attrs (UnorderedMap.mem_entries_iff.mp inside)
    exact (allUtf8_attr_iff key).mpr value j here
  rw [Json.allUtf8Items_iff]
  simp only [List.forall_mem_append, List.forall_mem_singleton, latency, and_true]
  rw [allUtf8_attr_iff (by decide), allUtf8_attr_iff (by decide), allUtf8_attr_iff (by decide),
    allUtf8_attr_iff (by decide), allUtf8_attr_iff (by decide)]
  constructor
  · rintro ⟨⟨⟨⟨⟨⟨service, principal⟩, level⟩, -⟩, -⟩, -⟩, -⟩
    exact ⟨service, principal, level⟩
  · rintro ⟨service, principal, level⟩
    exact ⟨⟨⟨⟨⟨⟨service, principal⟩, level⟩, plain.tool⟩, named⟩, utf8_failureClassName klass⟩,
      gathered⟩

/-- The JSON of a span can be serialised exactly if the name of the service, the texts of the
client and the ids of the span are UTF-8. -/
theorem allUtf8_payload_iff (plain : acc.Plain) (klass : FailureClass) (ms : UInt64) :
    (t.payload acc ctx klass ms).allUtf8 = true ↔ Json.utf8 t.service = true ∧
      Json.utf8 acc.principal = true ∧ Json.utf8 acc.level = true ∧ ctx.Legible := by
  have keys : ∀ key ∈ ["attributes", "code", "endTimeUnixNano", "key", "kind", "message", "name",
      "parentSpanId", "resource", "resourceSpans", "scopeSpans", "service.name", "spanId", "spans",
      "startTimeUnixNano", "status", "stringValue", "traceId", "value"],
      Json.utf8 key = true := by decide
  simp only [List.forall_mem_cons, List.not_mem_nil, false_implies, implies_true, and_true] at keys
  have digits : ∀ n : ℕ, Json.utf8 n.repr = true := Json.utf8_toString_nat
  unfold payload
  dsimp only
  generalize gathered : (_ ++ [_] : List Json) = attrs
  have attributes : Json.allUtf8Items attrs = true ↔ Json.utf8 t.service = true ∧
      Json.utf8 acc.principal = true ∧ Json.utf8 acc.level = true := by
    rw [← gathered]
    refine allUtf8_attrs_iff plain ?_ t.service klass ms
    -- the server is named in the name of the tool
    split
    · next key parsed =>
      exact (allUtf8_attr_iff (by decide)).mpr (ToolKey.utf8_backend parsed plain.tool)
    · simp
  split
  · next root =>
    have parent : Json.utf8 ctx.parentSpanId = true := by
      rw [String.isEmpty_iff.mp root]
      decide
    simp only [Json.ofMembers, List.foldl_cons, Json.setField, List.foldl_nil, String.reduceLT,
      if_true, if_false, String.reduceEq, Nat.toString_eq_repr, Json.allUtf8, Json.allUtf8Members,
      keys, Json.allUtf8Items, Bool.and_self, Bool.true_and, Bool.and_true, digits, plain.name,
      utf8_failureClassName, Bool.and_eq_true, attributes, and_congr_right_iff]
    intro service
    constructor
    · rintro ⟨⟨-, principal, level⟩, spanId, traceId⟩
      exact ⟨principal, level, traceId, spanId, parent⟩
    · rintro ⟨principal, level, ids⟩
      exact ⟨⟨service, principal, level⟩, ids.spanId, ids.traceId⟩
  · simp only [Json.ofMembers, List.foldl_cons, Json.setField, List.foldl_nil, String.reduceLT,
      if_true, if_false, String.reduceEq, Json.set, Nat.toString_eq_repr, Json.allUtf8,
      Json.allUtf8Members, keys, Json.allUtf8Items, Bool.and_self, Bool.true_and, Bool.and_true,
      digits, plain.name, utf8_failureClassName, Bool.and_eq_true, attributes, and_congr_right_iff]
    intro service
    constructor
    · rintro ⟨⟨-, principal, level⟩, parent, spanId, traceId⟩
      exact ⟨principal, level, traceId, spanId, parent⟩
    · rintro ⟨principal, level, ids⟩
      exact ⟨⟨service, principal, level⟩, ids.parentSpanId, ids.spanId, ids.traceId⟩

/-! ## Open spans -/

/-- The span is open, and it is one of a client's. -/
structure Opened (t : Tracer) (who : Principal) (ctx : TraceContext) : Prop where
  live : ∃ acc, t.live.lookup ctx.spanId = some acc ∧ acc.Plain ∧ acc.principal = who.agentId ∧
    acc.level = who.levelName

variable {who : Principal} {req : Request} {spanId spanName : String} {now : UInt64}

theorem opened_start (named : Json.utf8 req.name = true) (plain : Json.utf8 spanName = true)
    (own : ctx.spanId = spanId) : (t.start req spanId spanName now).Opened req.who ctx := by
  have found : (t.start req spanId spanName now).live.lookup ctx.spanId = some
      { principal := req.who.agentId, level := req.who.levelName, tool := req.name,
        name := spanName, startMs := now } := by
    rw [own]
    exact AList.lookup_insert _
  refine ⟨⟨_, found, ⟨named, plain, ?_⟩, rfl, rfl⟩⟩
  intro key value found
  simp [AList.lookup_empty] at found

theorem Opened.start (h : t.Opened who ctx) (other : ctx.spanId ≠ spanId) (req : Request)
    (spanName : String) (now : UInt64) : (t.start req spanId spanName now).Opened who ctx := by
  obtain ⟨acc, found, texts⟩ := h.live
  exact ⟨acc, (AList.lookup_insert_ne other).trans found, texts⟩

/-- Attributes that are UTF-8 may be set of any span. -/
theorem Opened.set (h : t.Opened who ctx) (ctx' : TraceContext) (plain : Json.utf8 key = true)
    (fine : Json.utf8 value = true) : (t.set ctx' key value).Opened who ctx := by
  obtain ⟨acc, found, texts⟩ := h.live
  unfold Tracer.set
  split
  · exact h
  · next acc' found' =>
    by_cases same : ctx.spanId = ctx'.spanId
    · rw [← same, found] at found'
      obtain rfl := Option.some.inj found'
      refine ⟨{ acc with attrs := acc.attrs.insert key value }, ?_, { texts.1 with attrs := ?_ },
        texts.2⟩
      · rw [same]
        exact AList.lookup_insert _
      · intro key' value' stored
        rw [UnorderedMap.lookup_insert] at stored
        split at stored
        · next here =>
          obtain rfl := Option.some.inj stored
          exact ⟨here ▸ plain, fine⟩
        · exact texts.1.attrs stored
    · exact ⟨acc, (AList.lookup_insert_ne same).trans found, texts⟩

theorem Opened.erase (h : t.Opened who ctx) (other : ctx.spanId ≠ spanId) :
    Opened { t with live := t.live.erase spanId } who ctx := by
  obtain ⟨acc, found, texts⟩ := h.live
  exact ⟨acc, (AList.lookup_erase_ne other).trans found, texts⟩

/-- An open span that ends is closed, and exported exactly if its texts are UTF-8. -/
theorem Opened.finish (h : t.Opened who ctx) (klass : FailureClass) (ms : UInt64) :
    ∃ result, t.finish ctx klass ms = ({ t with live := t.live.erase ctx.spanId }, result) ∧
      ((∃ text, result = .ok text) ↔ Json.utf8 t.service = true ∧
        Json.utf8 who.agentId = true ∧ Json.utf8 who.levelName = true ∧ ctx.Legible) := by
  obtain ⟨acc, found, plain, principal, level⟩ := h.live
  refine ⟨(t.payload acc ctx klass ms).dump, ?_, ?_⟩
  · rw [Tracer.finish, found]
  · rw [Json.dump_ok_iff, allUtf8_payload_iff plain, principal, level]

/-! ## All spans -/

/-- Every text that the tracer has gathered is UTF-8. -/
structure Sound (t : Tracer) : Prop where
  service : Json.utf8 t.service = true
  live : ∀ {spanId acc}, t.live.lookup spanId = some acc → acc.Plain ∧
    Json.utf8 acc.principal = true ∧ Json.utf8 acc.level = true

theorem Sound.start (h : t.Sound) (named : Json.utf8 req.name = true)
    (agentId : Json.utf8 req.who.agentId = true) (level : Json.utf8 req.who.levelName = true)
    (plain : Json.utf8 spanName = true) (spanId : String) (now : UInt64) :
    (t.start req spanId spanName now).Sound where
  service := h.service
  live := by
    intro spanId' acc found
    rw [Tracer.start, UnorderedMap.lookup_insert] at found
    split at found
    · obtain rfl := Option.some.inj found
      exact ⟨⟨named, plain, fun found => by simp [AList.lookup_empty] at found⟩, agentId, level⟩
    · exact h.live found

theorem Sound.set (h : t.Sound) (ctx : TraceContext) (plain : Json.utf8 key = true)
    (fine : Json.utf8 value = true) : (t.set ctx key value).Sound := by
  unfold Tracer.set
  split
  · exact h
  · next acc found =>
    obtain ⟨texts, client⟩ := h.live found
    refine ⟨h.service, fun {spanId acc'} found' => ?_⟩
    rw [UnorderedMap.lookup_insert] at found'
    split at found'
    · obtain rfl := Option.some.inj found'
      refine ⟨{ texts with attrs := fun {key' value'} stored => ?_ }, client⟩
      rw [UnorderedMap.lookup_insert] at stored
      split at stored
      · next here =>
        obtain rfl := Option.some.inj stored
        exact ⟨here ▸ plain, fine⟩
      · exact texts.attrs stored
    · exact h.live found'

/-- A span with ids in UTF-8 is exported when it ends, or it was not open. -/
theorem Sound.finish (h : t.Sound) (ids : ctx.Legible) (klass : FailureClass) (ms : UInt64) :
    ∃ t' text, t.finish ctx klass ms = (t', .ok text) ∧ t'.Sound := by
  unfold Tracer.finish
  split
  · exact ⟨t, "", rfl, h⟩
  · next acc found =>
    obtain ⟨plain, client⟩ := h.live found
    obtain ⟨text, dumped⟩ := Json.dump_ok_iff.mpr
      ((allUtf8_payload_iff plain klass ms).mpr ⟨h.service, client.1, client.2, ids⟩)
    rw [dumped]
    refine ⟨{ t with live := t.live.erase ctx.spanId }, text, rfl, h.service, ?_⟩
    intro spanId acc' found'
    rw [UnorderedMap.lookup_erase] at found'
    split at found'
    · cases found'
    · exact h.live found'

end Tracer

end Perfacet
