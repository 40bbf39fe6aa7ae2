import Perfacet.Frontend.Gate
import Perfacet.Ir.Utf8
import Perfacet.Pipeline.Replies

/-!
# The summary of a running call

A duplicate is told which call it is a duplicate of, by the first 200 bytes of its serialised
parameters. The serialiser does not escape what is not ASCII, so the cut can go through a
character, and then the answer cannot be serialised.

## Main definitions

* `CutsBetween` — the 200 bytes end with a character

## Main results

* `utf8_summaryOf_iff` — when a summary is UTF-8
* `allUtf8_answerDuplicate`, `allUtf8_wrapRpc` — when an answer can be serialised
* `duplicate_dumps_iff` — when a duplicate can be answered
-/

namespace Perfacet

/-- The serialised parameters are at most 200 bytes long, or can be cut there. -/
def CutsBetween (params : Json) : Prop :=
  ∀ c ∈ (params.erase "_meta").write[200]?, ¬ Json.IsContinuation c

instance : DecidablePred CutsBetween := fun params =>
  decidable_of_iff (((params.erase "_meta").write[200]?).all
    fun c => !decide (Json.IsContinuation c)) (by simp [CutsBetween, Option.all_eq_true])

variable {params id body : Json} {text summary : String}

namespace Json

theorem allUtf8_erase {j : Json} (ok : j.allUtf8 = true) (key : String) :
    (j.erase key).allUtf8 = true := by
  cases j with
  | obj members =>
    rw [allUtf8, allUtf8Members_iff] at ok
    rw [erase, allUtf8, allUtf8Members_iff]
    exact fun m member => ok m (List.mem_of_mem_filter member)
  | _ => exact ok

theorem utf8_append {s t : String} (complete : utf8 s = true) : utf8 (s ++ t) = utf8 t := by
  rw [utf8, String.toList_append]
  exact utf8From_append complete

/-- What stands before an ASCII text has to be UTF-8. -/
theorem utf8_before_ascii {s t : String} {c : Char} {rest : List Char}
    (first : t.toList = c :: rest) (ascii : c.toNat < 0x80) :
    utf8 (s ++ t) = true ↔ utf8 s = true ∧ utf8 t = true := by
  rw [utf8, String.toList_append, first, utf8_append_ascii owes_nil ascii, utf8, utf8, first]

end Json

/-- The summary of parameters that are UTF-8 is UTF-8 if the cut is between two characters. -/
theorem utf8_summaryOf_iff (ok : params.allUtf8 = true) : ∃ summary,
    summaryOf params = .ok summary ∧ (Json.utf8 summary = true ↔ CutsBetween params) := by
  have fine := Json.allUtf8_erase ok "_meta"
  have whole := Json.utf8_write _ fine
  rw [summaryOf, Json.dump, if_pos fine]
  refine ⟨_, rfl, ?_⟩
  rw [String.length_ofList, String.toList_ofList]
  by_cases long : 200 < (params.erase "_meta").write.length
  · rw [if_pos long, Json.utf8_before_ascii (c := '.') rfl (by decide), Json.utf8,
      String.toList_ofList, Json.utf8_take_iff whole]
    exact and_iff_left (by decide)
  · rw [if_neg long, Json.utf8, String.toList_ofList, whole, CutsBetween,
      List.getElem?_eq_none (not_lt.mp long)]
    simp

/-! ## The answer -/

theorem allUtf8_callToolText_iff (text : String) (isError : Bool) :
    (callToolText text isError).allUtf8 = true ↔ Json.utf8 text = true := by
  constructor
  · intro ok
    have items := Json.allUtf8_of_field? ok (Json.field?_callToolText text isError).2
    rw [Json.allUtf8, Json.allUtf8Items, Bool.and_eq_true] at items
    have found : (Json.ofMembers [("type", .str "text"), ("text", .str text)]).field? "text" =
        some (.str text) := by
      simp [Json.ofMembers, Json.field?, Json.lookup_setField]
    exact Json.allUtf8_of_field? items.1 found
  · intro plain
    have keys : Json.utf8 "content" = true ∧ Json.utf8 "isError" = true ∧
        Json.utf8 "type" = true ∧ Json.utf8 "text" = true := by decide
    have item : (Json.ofMembers [("type", .str "text"), ("text", .str text)]).allUtf8 = true := by
      apply Json.allUtf8_ofMembers
      simp [Json.allUtf8, plain, keys]
    apply Json.allUtf8_ofMembers
    simp [Json.allUtf8, Json.allUtf8Items, item, keys]

/-- An answer can be serialised if its body can. -/
theorem allUtf8_wrapRpc (numbered : id.allUtf8 = true) (r : Response) :
    (HttpMcp.wrapRpc id r).allUtf8 = true ↔ r.body.allUtf8 = true := by
  have frame : (Json.ofMembers [("jsonrpc", .str "2.0"), ("id", id)]).allUtf8 = true := by
    apply Json.allUtf8_ofMembers
    have keys : Json.utf8 "jsonrpc" = true ∧ Json.utf8 "2.0" = true ∧ Json.utf8 "id" = true := by
      decide
    simp [Json.allUtf8, numbered, keys]
  have carried (key : String) (plain : Json.utf8 key = true) :
      ((Json.ofMembers [("jsonrpc", .str "2.0"), ("id", id)]).set key r.body).allUtf8 = true ↔
        r.body.allUtf8 = true := by
    have found : ((Json.ofMembers [("jsonrpc", .str "2.0"), ("id", id)]).set key r.body).field?
        key = some r.body := by
      rw [Json.field?_set _ rfl, if_pos rfl]
    exact ⟨fun ok => Json.allUtf8_of_field? ok found, Json.allUtf8_set frame plain⟩
  rw [HttpMcp.wrapRpc]
  split
  · exact carried "error" (by decide)
  · exact carried "result" (by decide)

/-- The answer to a duplicate that takes no task handle is UTF-8 if the summary is: the summary
stands between UTF-8 texts, and an ASCII character comes after it. -/
theorem allUtf8_answerDuplicate {env : Env} {s : PipelineState} {req : Request} {key : ToolKey}
    {hit : InFlightEntry} {clk : Clock} (plain : req.caps.tasks = false)
    (named : Json.utf8 key.str = true) (drawn : Json.utf8 hit.inflightId = true) :
    (s.answerDuplicate env req key hit clk).2.body.allUtf8 = true ↔
      Json.utf8 hit.paramsSummary = true := by
  have body : (s.answerDuplicate env req key hit clk).2.body =
      callToolText ("in-flight call still running for " ++ key.str ++ "; params=" ++
        hit.paramsSummary ++ "; elapsed_ms=" ++ toString (clk 0 - hit.startedAtMs).toNat ++
        "; confirm with _meta[\"" ++ kConfirmKey ++ "\"]=\"if_" ++ hit.inflightId ++ "\"")
        true := by
    rw [PipelineState.answerDuplicate, plain]
    rfl
  have digits : Json.utf8 (toString (clk 0 - hit.startedAtMs).toNat) = true :=
    Json.utf8_toString_nat _
  rw [body, allUtf8_callToolText_iff]
  simp only [String.append_assoc]
  rw [Json.utf8_append (by decide), Json.utf8_append named, Json.utf8_append (by decide),
    Json.utf8_before_ascii (String.toList_append ..) (by decide),
    Json.utf8_append (by decide), Json.utf8_append digits, Json.utf8_append (by decide),
    Json.utf8_append (by decide), Json.utf8_append (by decide), Json.utf8_append drawn]
  exact and_iff_left (by decide)

/-- The summary of UTF-8 parameters is UTF-8, and a duplicate that takes no task handle can be
answered with it, if and only if the byte after the first 200 of the serialised parameters, if
there is one, does not continue a character. -/
theorem duplicate_dumps_iff (ok : params.allUtf8 = true) : ∃ summary,
    summaryOf params = .ok summary ∧ (Json.utf8 summary = true ↔ CutsBetween params) ∧
    ∀ (env : Env) (s : PipelineState) (req : Request) (key : ToolKey) (hit : InFlightEntry)
      (clk : Clock) (id : Json), req.caps.tasks = false → hit.paramsSummary = summary →
      Json.utf8 key.str = true → Json.utf8 hit.inflightId = true → id.allUtf8 = true →
      ((∃ text, (HttpMcp.wrapRpc id (s.answerDuplicate env req key hit clk).2).dump = .ok text) ↔
        CutsBetween params) := by
  obtain ⟨summary, made, cut⟩ := utf8_summaryOf_iff ok
  refine ⟨summary, made, cut, ?_⟩
  intro env s req key hit clk id plain stored named drawn numbered
  rw [Json.dump_ok_iff, allUtf8_wrapRpc numbered, allUtf8_answerDuplicate plain named drawn, stored]
  exact cut

namespace SummaryExample

/-- Parameters with one argument, which stands after six bytes. -/
def paramsOf (argument : List Char) : Json := .ofMembers [("a", .str (String.ofList argument))]

/-- The two bytes of a letter that is not ASCII. -/
def letter : List Char := [Char.ofNat 0xC3, Char.ofNat 0xA9]

/-- The letter is cut off as a whole. -/
def fitting : Json := paramsOf (List.replicate 194 'x' ++ letter)

/-- The cut goes through the letter. -/
def split : Json := paramsOf (List.replicate 193 'x' ++ letter)

/-- A running call with a summary. -/
def running (summary : String) : InFlightEntry :=
  { inflightId := "5a", startedAtMs := 0, taskId := none, paramsSummary := summary,
    key := ⟨"b", "t"⟩, agentId := "ann", paramsHash := "" }

/-- The answer to a duplicate of it. -/
def answer (summary : String) : Json :=
  HttpMcp.wrapRpc (.int 1) ((PipelineExample.start {}).answerDuplicate (PipelineExample.gateway {})
    (PipelineExample.call "b__t" 1) ⟨"b", "t"⟩ (running summary) PipelineExample.clk).2

end SummaryExample

open SummaryExample

/-- A letter that is cut off as a whole does no harm. -/
theorem duplicate_dumps_iff_fitting : ∃ summary, summaryOf fitting = .ok summary ∧
    Json.utf8 summary = true ∧ ∃ text, (answer summary).dump = .ok text := by
  have cuts : CutsBetween fitting := by decide +kernel
  have ok : fitting.allUtf8 = true := by decide +kernel
  obtain ⟨summary, made, cut, dumps⟩ := duplicate_dumps_iff ok
  have answers := dumps (PipelineExample.gateway {}) (PipelineExample.start {})
    (PipelineExample.call "b__t" 1) ⟨"b", "t"⟩ (running summary) PipelineExample.clk (.int 1)
    rfl rfl (by decide) (show Json.utf8 "5a" = true by decide) rfl
  exact ⟨summary, made, cut.mpr cuts, answers.mpr cuts⟩

/-- A letter that is cut into two makes the summary and the answer invalid. -/
theorem summary_not_utf8 : split.allUtf8 = true ∧ ∃ summary, summaryOf split = .ok summary ∧
    Json.utf8 summary = false ∧ (answer summary).dump = .error (.typeError 316) := by
  have ok : split.allUtf8 = true := by decide +kernel
  have cuts : ¬ CutsBetween split := by decide +kernel
  obtain ⟨summary, made, cut⟩ := utf8_summaryOf_iff ok
  have broken : ¬ Json.utf8 summary = true := fun fine => cuts (cut.mp fine)
  refine ⟨ok, summary, made, (Bool.not_eq_true _).mp broken, if_neg fun fine => broken ?_⟩
  exact (allUtf8_answerDuplicate rfl (by decide) (show Json.utf8 "5a" = true by decide)).mp
    ((allUtf8_wrapRpc rfl _).mp fine)

end Perfacet
