import Perfacet.Ir.JsonText
import Perfacet.Lib.Except
import Perfacet.Lib.Lines
import Perfacet.Policy.Elevation

/-!
# Reading the grant log

The grant log is a file of JSON lines. What is no JSON is skipped, and so is what is no object or
has no id. The fields are read by accessors that throw on a value of another type, and nothing
catches what they throw: one such line makes the whole file unreadable.

The JSON parser is not part of the repository; `parse` is what is used of it. It does not throw.

## Main definitions

* `GrantLog.parseFile` — the file, byte by byte
* `GrantLog.WellTyped` — the members that are there have the types that are read
* `GrantRecord.SaidBy` — what an object says of a grant
* `GrantLog.LastWriter` — a record that no later line of the file overwrites

## Main results

* `GrantLog.ofLine_iff` — what is read from an object
* `GrantLog.parseFile_ok_iff` — when a file can be read
* `GrantLog.lookup_parseFile` — the table is that of the last writers
* `GrantTable.write_line_inj` — two records are written differently
-/

namespace Perfacet

/-! ## The members of an object -/

namespace Json

/-- A member is read: the default if it is not there. -/
def Reads {α : Type} (get : Json → Except JsonError α) (j : Json) (key : String) (default x : α) :
    Prop :=
  j.field? key = none ∧ x = default ∨ ∃ v, j.field? key = some v ∧ get v = .ok x

variable {α : Type} {get : Json → Except JsonError α} {members : List (String × Json)}
  {key : String} {default x : α}

theorem valueAs_ok_iff :
    valueAs get (.obj members) key default = .ok x ↔ Reads get (.obj members) key default x := by
  rw [valueAs, Reads, field?]
  cases members.lookup key with
  | none => simp [eq_comm]
  | some v => simp

theorem valueString_eq_valueAs (j : Json) (key default : String) :
    j.valueString key default = valueAs getString j key default := by
  cases j <;> rfl

/-- `value(key, default)` reads a member that is a string or missing, of an object. -/
theorem valueString_eq_ok {j : Json} {key default text : String} :
    j.valueString key default = .ok text ↔
      j.isObject = true ∧ Reads getString j key default text := by
  rw [valueString_eq_valueAs]
  cases j with
  | obj members => exact valueAs_ok_iff.trans (and_iff_right rfl).symm
  | _ => simp [valueAs, isObject]

/-- A text that is read from a UTF-8 value is UTF-8. -/
theorem utf8_of_reads {j : Json} {key text : String} (ok : j.allUtf8 = true)
    (read : Reads getString j key "" text) : utf8 text = true := by
  rcases read with ⟨-, rfl⟩ | ⟨v, found, said⟩
  · rfl
  · have fine := allUtf8_of_field? ok found
    cases v with
    | str s =>
      obtain rfl := Except.ok.inj said
      exact fine
    | _ => cases said

end Json

/-- What an object says of a grant: the members that are there, and defaults for the others. -/
structure GrantRecord.SaidBy (trunc : FloatText → ℤ) (r : GrantRecord) (j : Json) : Prop where
  id : Json.Reads Json.getString j "id" "" r.id
  agent : Json.Reads Json.getString j "agent" "" r.agent
  bumpTo : Json.Reads Json.getString j "bump_to" "" r.bumpTo
  rank : ∃ n, Json.Reads (Json.getInt trunc) j "rank" 0 n ∧ r.rank = UInt16.ofInt n
  status : Json.Reads Json.getString j "status" "" r.status
  expiresAt : Json.Reads (Json.getUnsigned trunc) j "expiresAt" 0 r.expiresAt
  tsMs : Json.Reads (Json.getUnsigned trunc) j "ts_ms" 0 r.tsMs

namespace GrantLog

variable (parse : String → Option Json) (trunc : FloatText → ℤ)

/-- What is read from a line: an empty line is skipped. -/
def read (line : List Char) : Option Json :=
  if line.isEmpty then none else parse (String.ofList line)

/-- `JsonlGrantStore::parseFile`, on what the file contains. -/
def parseFile (content : List Char) : Except JsonError GrantTable :=
  GrantTable.parseFile trunc ((Lines.lines '\n' content).map (read parse))

/-- A member that is there has a type that can be read. -/
def Typed (type : Json → Bool) (j : Json) (key : String) : Prop :=
  ∀ v, j.field? key = some v → type v = true

/-- A line holds a record: an object with an id that says of the grant what the record says. -/
def HeldBy (r : GrantRecord) (line : List Char) : Prop :=
  r.id ≠ "" ∧ ∃ members, read parse line = some (.obj members) ∧ r.SaidBy trunc (.obj members)

/-- A line of the file holds the record, and no later line holds one with its id. -/
def LastWriter (r : GrantRecord) (content : List Char) : Prop :=
  ∃ earlier line later, Lines.lines '\n' content = earlier ++ line :: later ∧
    HeldBy parse trunc r line ∧
    ∀ l ∈ later, ∀ r' : GrantRecord, HeldBy parse trunc r' l → r'.id ≠ r.id

/-- Numbers and booleans are read as a rank. -/
def isRank : Json → Bool
  | .int _ | .float _ | .bool _ => true
  | _ => false

/-- Every member of a grant that is there has the type that is read. -/
structure WellTyped (j : Json) : Prop where
  id : Typed Json.isString j "id"
  agent : Typed Json.isString j "agent"
  bumpTo : Typed Json.isString j "bump_to"
  rank : Typed isRank j "rank"
  status : Typed Json.isString j "status"
  expiresAt : Typed Json.isNumber j "expiresAt"
  tsMs : Typed Json.isNumber j "ts_ms"

variable {parse trunc} {r : GrantRecord} {j : Json} {members : List (String × Json)}
  {content : List Char} {t : GrantTable}

theorem typed_iff {α : Type} {get : Json → Except JsonError α} {type : Json → Bool}
    (reads : ∀ v, (∃ x, get v = .ok x) ↔ type v = true) (key : String) (default : α) :
    Typed type j key ↔ ∃ x, Json.Reads get j key default x := by
  simp only [Typed, Json.Reads, ← reads]
  cases j.field? key with
  | none => simp
  | some v => simp

variable (trunc) in
theorem getInt_ok_iff (v : Json) : (∃ n, v.getInt trunc = .ok n) ↔ isRank v = true := by
  cases v <;> simp [Json.getInt, isRank]

/-- A grant is read from an object if the object says so. -/
theorem ofLine_iff :
    GrantRecord.ofLine trunc (.obj members) = .ok r ↔ r.SaidBy trunc (.obj members) := by
  simp only [GrantRecord.ofLine, Json.valueString_eq_valueAs, Except.bind_eq_ok,
    Json.valueAs_ok_iff]
  constructor
  · rintro ⟨id, id', agent, agent', bumpTo, bumpTo', rank, rank', status, status', expiresAt,
      expiresAt', tsMs, tsMs', made⟩
    obtain rfl := Except.ok.inj made
    exact ⟨id', agent', bumpTo', ⟨rank, rank', rfl⟩, status', expiresAt', tsMs'⟩
  · rintro ⟨id, agent, bumpTo, ⟨rank, rank', narrowed⟩, status, expiresAt, tsMs⟩
    refine ⟨_, id, _, agent, _, bumpTo, rank, rank', _, status, _, expiresAt, _, tsMs, ?_⟩
    rw [← narrowed]
    rfl

variable (trunc) in
/-- An object can be read if its members have the types that are read. -/
theorem exists_ofLine_iff :
    (∃ r, GrantRecord.ofLine trunc (.obj members) = .ok r) ↔ WellTyped (.obj members) := by
  simp only [ofLine_iff]
  have text := fun key => typed_iff @Json.getString_ok_iff key "" (j := .obj members)
  have time := fun key => typed_iff (@Json.getUnsigned_ok_iff trunc) key 0 (j := .obj members)
  have number := typed_iff (getInt_ok_iff trunc) "rank" 0 (j := .obj members)
  constructor
  · rintro ⟨r, said⟩
    obtain ⟨n, rank, -⟩ := said.rank
    exact ⟨(text "id").mpr ⟨_, said.id⟩, (text "agent").mpr ⟨_, said.agent⟩,
      (text "bump_to").mpr ⟨_, said.bumpTo⟩, number.mpr ⟨n, rank⟩,
      (text "status").mpr ⟨_, said.status⟩, (time "expiresAt").mpr ⟨_, said.expiresAt⟩,
      (time "ts_ms").mpr ⟨_, said.tsMs⟩⟩
  · intro typed
    obtain ⟨id, id'⟩ := (text "id").mp typed.id
    obtain ⟨agent, agent'⟩ := (text "agent").mp typed.agent
    obtain ⟨bumpTo, bumpTo'⟩ := (text "bump_to").mp typed.bumpTo
    obtain ⟨rank, rank'⟩ := number.mp typed.rank
    obtain ⟨status, status'⟩ := (text "status").mp typed.status
    obtain ⟨expiresAt, expiresAt'⟩ := (time "expiresAt").mp typed.expiresAt
    obtain ⟨tsMs, tsMs'⟩ := (time "ts_ms").mp typed.tsMs
    exact ⟨{ id := id, agent := agent, bumpTo := bumpTo, rank := UInt16.ofInt rank,
             status := status, expiresAt := expiresAt, tsMs := tsMs },
      ⟨id', agent', bumpTo', ⟨rank, rank', rfl⟩, status', expiresAt', tsMs'⟩⟩

/-- A line is no obstacle: it is no object, or one whose members have the types that are read. -/
def Fine (line : Option Json) : Prop := ∀ j, line = some j → j.isObject = true → WellTyped j

variable (trunc) in
theorem addLine_ok_iff (t : GrantTable) (line : Option Json) :
    (∃ t', t.addLine trunc line = .ok t') ↔ Fine line := by
  unfold GrantTable.addLine
  split
  · next members =>
    simp only [Fine, Option.some.injEq, forall_eq', Json.isObject, forall_const,
      ← exists_ofLine_iff trunc, Except.bind_eq_ok]
    constructor
    · rintro ⟨t', r, read, -⟩
      exact ⟨r, read⟩
    · rintro ⟨r, read⟩
      exact ⟨_, r, read, rfl⟩
  · next other =>
    refine ⟨fun _ j here object => ?_, fun _ => ⟨t, rfl⟩⟩
    cases j with
    | obj members => exact absurd here (other members)
    | _ => cases object

variable (parse trunc) in
/-- A file can be read if no line is an obstacle. -/
theorem parseFile_ok_iff (content : List Char) : (∃ t, parseFile parse trunc content = .ok t) ↔
    ∀ line ∈ Lines.lines '\n' content, Fine (read parse line) := by
  rw [parseFile, GrantTable.parseFile, Except.foldlM_ok_iff (addLine_ok_iff trunc),
    List.forall_mem_map]

theorem heldBy_iff (line : List Char) :
    HeldBy parse trunc r line ↔ r.ReadFrom trunc (read parse line) := by
  constructor
  · rintro ⟨named, members, here, said⟩
    exact ⟨named, members, here, ofLine_iff.mpr said⟩
  · rintro ⟨named, members, here, made⟩
    exact ⟨named, members, here, ofLine_iff.mp made⟩

theorem lastWriter_iff : LastWriter parse trunc r content ↔
    r.Counts trunc ((Lines.lines '\n' content).map (read parse)) := by
  simp only [LastWriter, GrantRecord.Counts, heldBy_iff]
  constructor
  · rintro ⟨earlier, line, later, split, held, last⟩
    refine ⟨earlier.map (read parse), read parse line, later.map (read parse), ?_, held, ?_⟩
    · rw [split, List.map_append, List.map_cons]
    · exact List.forall_mem_map.mpr last
  · rintro ⟨earlier, line, later, split, held, last⟩
    obtain ⟨earlier, others, whole, rfl, rest⟩ := List.map_eq_append_iff.mp split
    obtain ⟨line, later, rfl, rfl, rfl⟩ := List.map_eq_cons_iff.mp rest
    exact ⟨earlier, line, later, whole, held, List.forall_mem_map.mp last⟩

/-- The table of a file holds the records of the last writers. -/
theorem lookup_parseFile (loaded : parseFile parse trunc content = .ok t) (id : String) :
    t.lookup id = some r ↔ r.id = id ∧ LastWriter parse trunc r content := by
  rw [lastWriter_iff]
  exact GrantTable.lookup_parseFile loaded

/-- The key of a record is its id. -/
theorem id_of_lookup (loaded : parseFile parse trunc content = .ok t) {id : String}
    (found : t.lookup id = some r) : r.id = id :=
  ((lookup_parseFile loaded id).mp found).1

end GrantLog

/-! ## Writing -/

namespace GrantTable

variable {r r' : GrantRecord}

/-- The members of a line, in the order in which they are written. -/
theorem line_eq (r : GrantRecord) : line r = .obj
    [("agent", .str r.agent), ("bump_to", .str r.bumpTo), ("expiresAt", .int r.expiresAt.toNat),
      ("id", .str r.id), ("rank", .int r.rank.toNat), ("status", .str r.status),
      ("ts_ms", .int r.tsMs.toNat)] := by
  simp only [line, Json.ofMembers, List.foldl_cons, List.foldl_nil, Json.setField, String.reduceLT,
    String.reduceEq, if_true, if_false]

/-- A record can be written if its texts are UTF-8. -/
theorem allUtf8_line_iff : (line r).allUtf8 = true ↔
    Json.utf8 r.agent = true ∧ Json.utf8 r.bumpTo = true ∧ Json.utf8 r.id = true ∧
      Json.utf8 r.status = true := by
  have keys : ∀ key ∈ ["agent", "bump_to", "expiresAt", "id", "rank", "status", "ts_ms"],
      Json.utf8 key = true := by decide
  simp only [List.forall_mem_cons, List.not_mem_nil, false_implies, implies_true, and_true] at keys
  simp [line_eq, Json.allUtf8, Json.allUtf8Members, keys]

/-- Two records are written differently. -/
theorem write_line_inj (same : (line r).write = (line r').write) : r = r' := by
  have comma : Char.isDigit ',' = false := rfl
  have brace : Char.isDigit '\x7d' = false := rfl
  simp only [line_eq, Json.write, Json.writeMembers, List.append_assoc, List.cons_append,
    List.cons.injEq, List.append_cancel_left_eq, true_and] at same
  obtain ⟨agent, same⟩ := Json.quote_append_inj same
  simp only [List.cons.injEq, List.append_cancel_left_eq, true_and] at same
  obtain ⟨bumpTo, same⟩ := Json.quote_append_inj same
  simp only [List.cons.injEq, List.append_cancel_left_eq, true_and] at same
  obtain ⟨expiresAt, same⟩ := Json.natural_append_inj comma same
  simp only [List.append_cancel_left_eq, List.cons.injEq, true_and] at same
  obtain ⟨id, same⟩ := Json.quote_append_inj same
  simp only [List.cons.injEq, List.append_cancel_left_eq, true_and] at same
  obtain ⟨rank, same⟩ := Json.natural_append_inj comma same
  simp only [List.append_cancel_left_eq, List.cons.injEq, true_and] at same
  obtain ⟨status, same⟩ := Json.quote_append_inj same
  simp only [List.cons.injEq, List.append_cancel_left_eq, true_and] at same
  obtain ⟨tsMs, -⟩ := Json.natural_append_inj brace same
  cases r
  cases r'
  simp only [GrantRecord.mk.injEq]
  exact ⟨id, agent, bumpTo, UInt16.toNat_inj.mp rank, status, UInt64.toNat_inj.mp expiresAt,
    UInt64.toNat_inj.mp tsMs⟩

end GrantTable

namespace LogExample

/-- A parser that knows the texts of some values; any other text is no JSON to it. -/
def knowing (values : List Json) (text : String) : Option Json :=
  values.find? fun j => text = String.ofList j.write

/-- No number that occurs is anything but an integer. -/
def integral (_ : FloatText) : ℤ := 0

/-- A file with a value in every line. -/
def file (values : List Json) : List Char := values.flatMap fun j => j.write ++ ['\n']

/-- An approved grant. -/
def grant (id : String) (expiresAt : UInt64) : GrantRecord where
  id := id
  agent := "bot"
  bumpTo := "L2"
  rank := 1
  status := "approved"
  expiresAt := expiresAt
  tsMs := 0

end LogExample

end Perfacet
