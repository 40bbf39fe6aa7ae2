import Mathlib.Data.List.Basic
import Mathlib.Data.List.Induction

/-!
# JSON values

What the gateway uses of `nlohmann::json`: the value type, the accessors `contains`,
`value`, `get`, `operator[]` and `erase`, and the serialiser `dump` with the errors it
throws.

A `std::string` holds bytes; here it is a `String` with one character for each byte,
so `size()` is the length and whether the bytes form UTF-8 is a predicate. An object
is the list of its members in key order, as the `std::map` behind it is.

## Main definitions

* `Json`, `Json.dump` — the value type and its serialiser
* `Json.valueString`, `Json.getString` — the accessors that throw

## Main results

* `lookup_setField`, `lookup_eraseField` — what the writers do to a member
* `allUtf8_of_field?`, `allUtf8_ofMembers` — the parts of a value and the value are UTF-8
* `newline_notMem_write` — what is written is one line
-/

namespace Perfacet

/-- What the serialiser prints for a number that is not an integer: digits, an exponent, or
the `null` of a number that is not finite. -/
structure FloatText where
  text : String
  printed : ∀ c ∈ text.toList, c.isAlphanum ∨ c = '+' ∨ c = '-' ∨ c = '.'
  deriving Repr

/-- A JSON value. `float` keeps the text that the serialiser prints. -/
inductive Json
  | null
  | bool (b : Bool)
  | int (n : Int)
  | float (number : FloatText)
  | str (s : String)
  | arr (items : List Json)
  | obj (members : List (String × Json))
  deriving Repr, Inhabited

/-- What an accessor or the serialiser throws: `type_error` with its number. -/
inductive JsonError
  | typeError (id : ℕ)
  deriving DecidableEq, Repr

namespace Json

/-! ## UTF-8 -/

/-- The ranges that the bytes after a leading byte have to lie in. -/
def utf8Tail (b : ℕ) : Option (List (ℕ × ℕ)) :=
  if b ≤ 0x7F then some []
  else if 0xC2 ≤ b ∧ b ≤ 0xDF then some [(0x80, 0xBF)]
  else if b = 0xE0 then some [(0xA0, 0xBF), (0x80, 0xBF)]
  else if b = 0xED then some [(0x80, 0x9F), (0x80, 0xBF)]
  else if 0xE1 ≤ b ∧ b ≤ 0xEF then some [(0x80, 0xBF), (0x80, 0xBF)]
  else if b = 0xF0 then some [(0x90, 0xBF), (0x80, 0xBF), (0x80, 0xBF)]
  else if 0xF1 ≤ b ∧ b ≤ 0xF3 then some [(0x80, 0xBF), (0x80, 0xBF), (0x80, 0xBF)]
  else if b = 0xF4 then some [(0x80, 0x8F), (0x80, 0xBF), (0x80, 0xBF)]
  else none

/-- The serialiser's decoder, started with the ranges still owed. -/
def utf8From : List (ℕ × ℕ) → List Char → Bool
  | owed, [] => owed.isEmpty
  | [], c :: rest =>
    match utf8Tail c.toNat with
    | some owed => utf8From owed rest
    | none => false
  | (low, high) :: owed, c :: rest =>
    decide (low ≤ c.toNat ∧ c.toNat ≤ high) && utf8From owed rest

/-- Whether the bytes of a string are well-formed UTF-8. -/
def utf8 (s : String) : Bool := utf8From [] s.toList

/-- A literal of the source that is not ASCII, as its bytes. -/
def ofUnicode (s : String) : String :=
  String.ofList (s.toUTF8.data.toList.map fun b => Char.ofNat b.toNat)

/-! ## The serialiser -/

/-- A digit as `printf` prints it with `%x`. -/
def hexDigit (n : ℕ) : Char :=
  if n < 10 then Char.ofNat ('0'.toNat + n) else Char.ofNat ('a'.toNat + (n - 10))

/-- One byte of a string as `dump` writes it; bytes above ASCII are copied. -/
def escapeChar (c : Char) : List Char :=
  if c = '"' then ['\\', '"']
  else if c = '\\' then ['\\', '\\']
  else if c.toNat = 8 then ['\\', 'b']
  else if c.toNat = 9 then ['\\', 't']
  else if c.toNat = 10 then ['\\', 'n']
  else if c.toNat = 12 then ['\\', 'f']
  else if c.toNat = 13 then ['\\', 'r']
  else if c.toNat < 0x20 then
    ['\\', 'u', '0', '0', hexDigit (c.toNat / 16), hexDigit (c.toNat % 16)]
  else [c]

/-- A string with its quotes. -/
def quote (s : String) : List Char := '"' :: s.toList.flatMap escapeChar ++ ['"']

mutual

/-- The characters that `dump` writes for a value. -/
def write : Json → List Char
  | .null => "null".toList
  | .bool true => "true".toList
  | .bool false => "false".toList
  | .int n => (toString n).toList
  | .float number => number.text.toList
  | .str s => quote s
  | .arr items => '[' :: writeItems items ++ [']']
  | .obj members => '\x7b' :: writeMembers members ++ ['\x7d']

/-- The elements of an array, separated by commas. -/
def writeItems : List Json → List Char
  | [] => []
  | [j] => write j
  | j :: rest => write j ++ ',' :: writeItems rest

/-- The members of an object, separated by commas. -/
def writeMembers : List (String × Json) → List Char
  | [] => []
  | [(k, v)] => quote k ++ ':' :: write v
  | (k, v) :: rest => quote k ++ ':' :: write v ++ ',' :: writeMembers rest

end

mutual

/-- Every string in the value, keys included, is well-formed UTF-8. -/
def allUtf8 : Json → Bool
  | .str s => utf8 s
  | .arr items => allUtf8Items items
  | .obj members => allUtf8Members members
  | _ => true

def allUtf8Items : List Json → Bool
  | [] => true
  | j :: rest => allUtf8 j && allUtf8Items rest

def allUtf8Members : List (String × Json) → Bool
  | [] => true
  | (k, v) :: rest => utf8 k && allUtf8 v && allUtf8Members rest

end

/-- `dump()`: it throws on the first string that is not UTF-8. -/
def dump (j : Json) : Except JsonError String :=
  if j.allUtf8 then .ok (String.ofList j.write) else .error (.typeError 316)

/-! ## Accessors -/

def isNull : Json → Bool
  | .null => true
  | _ => false

def isObject : Json → Bool
  | .obj _ => true
  | _ => false

def isString : Json → Bool
  | .str _ => true
  | _ => false

def isNumber : Json → Bool
  | .int _ | .float _ => true
  | _ => false

/-- `empty()`: null and containers without elements. -/
def isEmpty : Json → Bool
  | .null => true
  | .arr items => items.isEmpty
  | .obj members => members.isEmpty
  | _ => false

/-- The member under a key, if the value is an object that has one. -/
def field? (j : Json) (key : String) : Option Json :=
  match j with
  | .obj members => members.lookup key
  | _ => none

/-- `contains(key)`: false on everything that is not an object. -/
def contains (j : Json) (key : String) : Bool := (j.field? key).isSome

/-- `get<std::string>()`. -/
def getString : Json → Except JsonError String
  | .str s => .ok s
  | _ => .error (.typeError 302)

/-- `value(key, default)` with a string default: it throws on a value that is not an
object and on a member that is not a string. -/
def valueString (j : Json) (key default : String) : Except JsonError String :=
  match j with
  | .obj members =>
    match members.lookup key with
    | some v => v.getString
    | none => .ok default
  | _ => .error (.typeError 306)

/-- `get<int>()`, before the result is narrowed; `trunc` is the integer part of a number. -/
def getInt (trunc : FloatText → Int) : Json → Except JsonError Int
  | .int n => .ok n
  | .float number => .ok (trunc number)
  | .bool b => .ok (if b then 1 else 0)
  | _ => .error (.typeError 302)

/-- `get<uint64_t>()`: unlike `get<int>()` it refuses a boolean. -/
def getUnsigned (trunc : FloatText → Int) : Json → Except JsonError UInt64
  | .int n => .ok (UInt64.ofInt n)
  | .float number => .ok (UInt64.ofInt (trunc number))
  | _ => .error (.typeError 302)

/-- `value(key, default)` with a default of another type: `get` is how it is converted. -/
def valueAs {α : Type} (get : Json → Except JsonError α) (j : Json) (key : String) (default : α) :
    Except JsonError α :=
  match j with
  | .obj members =>
    match members.lookup key with
    | some v => get v
    | none => .ok default
  | _ => .error (.typeError 306)

theorem getString_ok_iff {j : Json} : (∃ s, j.getString = .ok s) ↔ j.isString = true := by
  cases j <;> simp [getString, isString]

theorem getUnsigned_ok_iff {trunc : FloatText → Int} {j : Json} :
    (∃ n, j.getUnsigned trunc = .ok n) ↔ j.isNumber = true := by
  cases j <;> simp [getUnsigned, isNumber]

theorem valueString_of_field? {j v : Json} {key default : String} (found : j.field? key = some v) :
    j.valueString key default = v.getString := by
  cases j with
  | obj members =>
    rw [field?] at found
    simp only [valueString, found]
  | null | bool | int | float | str | arr => cases found

theorem valueString_of_field?_none {j v : Json} {key key' default : String}
    (absent : j.field? key = none) (found : j.field? key' = some v) :
    j.valueString key default = .ok default := by
  cases j with
  | obj members =>
    rw [field?] at absent
    simp only [valueString, absent]
  | null | bool | int | float | str | arr => cases found

theorem valueAs_of_field? {α : Type} {get : Json → Except JsonError α} {j v : Json} {key : String}
    {default : α} (found : j.field? key = some v) : valueAs get j key default = get v := by
  cases j with
  | obj members =>
    rw [field?] at found
    simp only [valueAs, found]
  | null | bool | int | float | str | arr => cases found

/-! ## Writers -/

/-- Insert or overwrite a member, keeping the key order. -/
def setField (key : String) (v : Json) : List (String × Json) → List (String × Json)
  | [] => [(key, v)]
  | (k, w) :: rest =>
    if key < k then (key, v) :: (k, w) :: rest
    else if key = k then (key, v) :: rest
    else (k, w) :: setField key v rest

/-- Drop a member. -/
def eraseField (key : String) (members : List (String × Json)) : List (String × Json) :=
  members.filter fun m => m.1 ≠ key

/-- `j[key] = v` on an object; null becomes an object, and the gateway writes to nothing
else. -/
def set (j : Json) (key : String) (v : Json) : Json :=
  match j with
  | .obj members => .obj (setField key v members)
  | _ => .obj [(key, v)]

/-- `erase(key)` on an object. -/
def erase (j : Json) (key : String) : Json :=
  match j with
  | .obj members => .obj (eraseField key members)
  | _ => j

/-- An object written as an initializer list. -/
def ofMembers (members : List (String × Json)) : Json :=
  .obj (members.foldl (fun acc m => setField m.1 m.2 acc) [])

/-- `Json::object()`. -/
def object : Json := .obj []

variable {key key' : String} {v : Json} {members : List (String × Json)}

theorem lookup_setField (key key' : String) (v : Json) (members : List (String × Json)) :
    (setField key v members).lookup key' = if key' = key then some v else members.lookup key' := by
  induction members with
  | nil =>
    rw [setField, List.lookup_cons, List.lookup_nil, beq_eq_decide]
    by_cases same : key' = key <;> simp [same]
  | cons m rest ih =>
    obtain ⟨k, w⟩ := m
    rw [setField]
    split
    · rw [List.lookup_cons, beq_eq_decide]
      by_cases same : key' = key <;> simp [same]
    · split
      · next here =>
        subst here
        simp only [List.lookup_cons, beq_eq_decide]
        by_cases same : key' = key <;> simp [same]
      · next later =>
        simp only [List.lookup_cons, beq_eq_decide, ih]
        by_cases same : key' = k
        · have apart : k ≠ key := Ne.symm later
          simp [same, apart]
        · simp [same]

theorem lookup_eraseField (key key' : String) (members : List (String × Json)) :
    (eraseField key members).lookup key' = if key' = key then none else members.lookup key' := by
  induction members with
  | nil => simp [eraseField]
  | cons m rest ih =>
    obtain ⟨k, w⟩ := m
    rw [eraseField] at ih ⊢
    by_cases dropped : k = key
    · rw [List.filter_cons_of_neg (by simp [dropped]), ih, List.lookup_cons, beq_eq_decide]
      by_cases same : key' = key <;> simp [same, dropped]
    · rw [List.filter_cons_of_pos (by simp [dropped])]
      simp only [List.lookup_cons, beq_eq_decide, ih]
      by_cases same : key' = k
      · simp [same, dropped]
      · simp [same]

theorem field?_set (j : Json) (obj : j.isObject) (key key' : String) (v : Json) :
    (j.set key v).field? key' = if key' = key then some v else j.field? key' := by
  cases j with
  | obj members => exact lookup_setField key key' v members
  | _ => cases obj

theorem field?_erase (j : Json) (key key' : String) :
    (j.erase key).field? key' = if key' = key then none else j.field? key' := by
  cases j with
  | obj members => exact lookup_eraseField key key' members
  | _ => simp [erase, field?]

/-- A member that is overwritten goes; everything else that is there was there before. -/
theorem mem_setField {m : String × Json} (member : m ∈ setField key v members) :
    m = (key, v) ∨ m ∈ members := by
  induction members with
  | nil => exact .inl (List.mem_singleton.mp member)
  | cons first rest ih =>
    obtain ⟨k, w⟩ := first
    rw [setField] at member
    split at member
    · exact List.mem_cons.mp member
    · split at member
      · rcases List.mem_cons.mp member with here | later
        · exact .inl here
        · exact .inr (List.mem_cons_of_mem _ later)
      · rcases List.mem_cons.mp member with here | later
        · exact .inr (here ▸ List.mem_cons_self)
        · exact (ih later).imp_right (List.mem_cons_of_mem _)

theorem mem_of_lookup (found : members.lookup key = some v) : (key, v) ∈ members := by
  obtain ⟨before, after, rfl, -⟩ := List.lookup_eq_some_iff.mp found
  simp

/-! ## UTF-8 of a value and of its parts -/

theorem allUtf8Members_iff :
    allUtf8Members members = true ↔ ∀ m ∈ members, utf8 m.1 = true ∧ m.2.allUtf8 = true := by
  induction members with
  | nil => simp [allUtf8Members]
  | cons m rest ih =>
    obtain ⟨k, w⟩ := m
    simp [allUtf8Members, ih, and_assoc]

theorem allUtf8_of_field? {j : Json} (ok : j.allUtf8 = true) (found : j.field? key = some v) :
    v.allUtf8 = true := by
  cases j with
  | obj members =>
    rw [allUtf8] at ok
    exact (allUtf8Members_iff.mp ok (key, v) (mem_of_lookup found)).2
  | _ => cases found

/-- A member that an object has, or a value in its place. -/
theorem allUtf8_getD_field? {j default : Json} (ok : j.allUtf8 = true)
    (fine : default.allUtf8 = true) : ((j.field? key).getD default).allUtf8 = true := by
  cases found : j.field? key with
  | none => exact fine
  | some v => exact allUtf8_of_field? ok found

theorem allUtf8_set {j : Json} (ok : j.allUtf8 = true) (plain : utf8 key = true)
    (fine : v.allUtf8 = true) : (j.set key v).allUtf8 = true := by
  cases j with
  | obj members =>
    rw [allUtf8, allUtf8Members_iff] at ok
    rw [set, allUtf8, allUtf8Members_iff]
    intro m member
    rcases mem_setField member with rfl | earlier
    · exact ⟨plain, fine⟩
    · exact ok m earlier
  | _ => simp [set, allUtf8, allUtf8Members, plain, fine]

theorem allUtf8_ofMembers (ok : ∀ m ∈ members, utf8 m.1 = true ∧ m.2.allUtf8 = true) :
    (ofMembers members).allUtf8 = true := by
  rw [ofMembers, allUtf8, allUtf8Members_iff]
  induction members using List.reverseRecOn with
  | nil => simp
  | append_singleton rest m ih =>
    rw [List.foldl_append]
    intro m' member
    rcases mem_setField member with rfl | earlier
    · exact ok m (by simp)
    · exact ih (fun m member => ok m (by simp [member])) m' earlier

/-! ## Line breaks -/

theorem hexDigit_ne_newline : ∀ n < 16, hexDigit n ≠ '\n' := by decide

/-- The serialiser escapes line breaks. -/
theorem newline_notMem_escapeChar (c : Char) : '\n' ∉ escapeChar c := by
  have newline : ∀ d : Char, d.toNat ≠ 10 → '\n' ≠ d := by
    rintro d other rfl
    exact other rfl
  unfold escapeChar
  split_ifs with quotation backslash backspace tab line feed ret control
  any_goals decide
  · have low := hexDigit_ne_newline (c.toNat / 16) (by omega)
    have high := hexDigit_ne_newline (c.toNat % 16) (by omega)
    simp [low.symm, high.symm]
  · simpa using newline c line

theorem newline_notMem_quote (s : String) : '\n' ∉ quote s := by
  simp [quote, newline_notMem_escapeChar]

theorem newline_notMem_toString (n : Int) : '\n' ∉ (toString n).toList := by
  have digits : ∀ m : ℕ, '\n' ∉ (toString m).toList := by
    intro m member
    have digit := Nat.isDigit_of_mem_toDigits (b := 10) (by decide) (by decide)
      (show '\n' ∈ Nat.toDigits 10 m by simpa using member)
    exact absurd digit (by decide)
  cases n with
  | ofNat m => exact digits m
  | negSucc m =>
    show '\n' ∉ ("-" ++ toString (m + 1)).toList
    rw [String.toList_append, List.mem_append]
    rintro (sign | digit)
    · exact absurd sign (by decide)
    · exact digits _ digit

theorem newline_notMem_float (number : FloatText) : '\n' ∉ number.text.toList := by
  intro member
  have printed := number.printed _ member
  exact absurd printed (by decide)

mutual

/-- What is written has no line break. -/
theorem newline_notMem_write : ∀ j : Json, '\n' ∉ j.write
  | .null => by decide
  | .bool true => by decide
  | .bool false => by decide
  | .int n => newline_notMem_toString n
  | .float number => newline_notMem_float number
  | .str s => newline_notMem_quote s
  | .arr items => by simp [write, newline_notMem_writeItems items]
  | .obj members => by simp [write, newline_notMem_writeMembers members]

theorem newline_notMem_writeItems : ∀ items : List Json, '\n' ∉ writeItems items
  | [] => by simp [writeItems]
  | [j] => newline_notMem_write j
  | j :: j' :: rest => by
    simp [writeItems, newline_notMem_write j, newline_notMem_writeItems (j' :: rest)]

theorem newline_notMem_writeMembers : ∀ members : List (String × Json),
    '\n' ∉ writeMembers members
  | [] => by simp [writeMembers]
  | [(k, v)] => by simp [writeMembers, newline_notMem_quote k, newline_notMem_write v]
  | (k, v) :: m :: rest => by
    simp [writeMembers, newline_notMem_quote k, newline_notMem_write v,
      newline_notMem_writeMembers (m :: rest)]

end

@[simp] theorem isObject_set (j : Json) (key : String) (v : Json) : (j.set key v).isObject := by
  cases j <;> rfl

@[simp] theorem isObject_erase (j : Json) (key : String) :
    (j.erase key).isObject = j.isObject := by
  cases j <;> rfl

end Json

end Perfacet
