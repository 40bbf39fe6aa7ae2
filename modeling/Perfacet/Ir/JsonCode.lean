import Perfacet.Ir.JsonText

/-!
# Values and their texts

The values that a parser returns: the keys of an object ascend strictly, and the numbers that are
not integers are finite. How such a number is printed is left open; it is digits with a point or an
exponent. Then the serialiser writes different texts for different values, and where a text ends is
seen from what follows it.

## Main definitions

* `Json.FloatPrinter` — what is known of the numbers that are not integers
* `Json.Parsed` — the values that a parser returns

## Main results

* `Json.write_append_inj` — a value and what stands behind it, if that cannot belong to a number
* `Json.write_injective` — different values have different texts
-/

namespace Perfacet

namespace Json

/-- The characters of a number. -/
def numberChar (c : Char) : Bool := c.isDigit || c ∈ ['+', '-', '.', 'e']

/-- What the serialiser prints for the finite numbers that are not integers. -/
structure FloatPrinter (prints : FloatText → Prop) : Prop where
  number : ∀ f, prints f → ∀ c ∈ f.text.toList, numberChar c = true
  digit : ∀ f, prints f → ∃ c ∈ f.text.toList, c.isDigit = true
  fraction : ∀ f, prints f → '.' ∈ f.text.toList ∨ 'e' ∈ f.text.toList

/-- Keys in the order of a `std::map`. -/
def Ascending (members : List (String × Json)) : Prop :=
  (members.map Prod.fst).Pairwise (· < ·)

mutual

/-- The values that a parser returns. -/
def Parsed (prints : FloatText → Prop) : Json → Prop
  | .float number => prints number
  | .str s => utf8 s = true
  | .arr items => ParsedItems prints items
  | .obj members => Ascending members ∧ ParsedMembers prints members
  | _ => True

def ParsedItems (prints : FloatText → Prop) : List Json → Prop
  | [] => True
  | j :: rest => Parsed prints j ∧ ParsedItems prints rest

def ParsedMembers (prints : FloatText → Prop) : List (String × Json) → Prop
  | [] => True
  | (k, v) :: rest => utf8 k = true ∧ Parsed prints v ∧ ParsedMembers prints rest

end

/-- What may stand behind a value: nothing that could belong to a number. -/
def Stops (x : List Char) : Prop := ∀ c ∈ x.head?, numberChar c = false

variable {prints : FloatText → Prop} {j k : Json} {c : Char} {x y t u : List Char}

theorem stops_cons (other : numberChar c = false) : Stops (c :: x) := by
  intro d first
  obtain rfl := Option.some.inj first
  exact other

theorem parsedMembers_iff {members : List (String × Json)} :
    ParsedMembers prints members ↔ ∀ m ∈ members, utf8 m.1 = true ∧ m.2.Parsed prints := by
  induction members with
  | nil => simp [ParsedMembers]
  | cons m rest ih =>
    obtain ⟨key, v⟩ := m
    simp [ParsedMembers, ih, and_assoc]

mutual

theorem Parsed.allUtf8 : ∀ j : Json, Parsed prints j → j.allUtf8 = true
  | .null, _ => rfl
  | .bool _, _ => rfl
  | .int _, _ => rfl
  | .float _, _ => rfl
  | .str _, parsed => parsed
  | .arr items, parsed => ParsedItems.allUtf8 items parsed
  | .obj members, parsed => ParsedMembers.allUtf8 members parsed.2

theorem ParsedItems.allUtf8 : ∀ items : List Json, ParsedItems prints items →
    allUtf8Items items = true
  | [], _ => rfl
  | j :: rest, parsed => by
    rw [allUtf8Items, Parsed.allUtf8 j parsed.1, ParsedItems.allUtf8 rest parsed.2]
    rfl

theorem ParsedMembers.allUtf8 : ∀ members : List (String × Json), ParsedMembers prints members →
    allUtf8Members members = true
  | [], _ => rfl
  | (k, v) :: rest, parsed => by
    rw [allUtf8Members, parsed.1, Parsed.allUtf8 v parsed.2.1,
      ParsedMembers.allUtf8 rest parsed.2.2]
    rfl

end

/-! ## How a text starts -/

/-- The character that the texts of a kind of value start with; the numbers have none. -/
def lead : Json → Option Char
  | .null => some 'n'
  | .bool true => some 't'
  | .bool false => some 'f'
  | .int _ | .float _ => none
  | .str _ => some '"'
  | .arr _ => some '['
  | .obj _ => some '\x7b'

theorem toList_negSucc (n : ℕ) :
    (toString (Int.negSucc n)).toList = '-' :: (toString ((n + 1 : ℕ) : Int)).toList := by
  show ("-" ++ toString (n + 1)).toList = _
  rw [String.toList_append]
  rfl

theorem isDigit_of_mem_toString {n : ℕ} (member : c ∈ (toString (n : Int)).toList) :
    c.isDigit = true := by
  rw [toList_natural] at member
  exact Nat.isDigit_of_mem_toDigits (by decide) (by decide) member

theorem exists_digit_toString (n : ℕ) : ∃ c ∈ (toString (n : Int)).toList, c.isDigit = true := by
  have some : (toString (n : Int)).toList ≠ [] := by
    rw [toList_natural]
    exact Nat.toDigits_ne_nil
  obtain ⟨c, member⟩ := List.exists_mem_of_ne_nil _ some
  exact ⟨c, member, isDigit_of_mem_toString member⟩

/-- An integer is digits, behind a sign if it is negative. -/
theorem int_chars (n : Int) :
    (∀ c ∈ (toString n).toList, c.isDigit = true ∨ c = '-') ∧
      ∃ c ∈ (toString n).toList, c.isDigit = true := by
  cases n with
  | ofNat n =>
    exact ⟨fun c member => .inl (isDigit_of_mem_toString member), exists_digit_toString n⟩
  | negSucc n =>
    rw [toList_negSucc]
    refine ⟨?_, ?_⟩
    · rintro c (_ | ⟨_, member⟩)
      · exact .inr rfl
      · exact .inl (isDigit_of_mem_toString member)
    · obtain ⟨c, member, digit⟩ := exists_digit_toString (n + 1)
      exact ⟨c, List.mem_cons_of_mem _ member, digit⟩

theorem int_inj {n m : Int} (same : (toString n).toList = (toString m).toList) : n = m := by
  have natural : ∀ a b : ℕ, (toString (a : Int)).toList = (toString (b : Int)).toList → a = b := by
    intro a b same
    exact (natural_append_inj (c := ',') (x := []) (y := []) rfl (by rw [same])).1
  have apart : ∀ a b : ℕ, (toString (a : Int)).toList ≠ (toString (Int.negSucc b)).toList := by
    intro a b same
    have sign : '-' ∈ (toString (a : Int)).toList := by
      rw [same, toList_negSucc]
      exact List.mem_cons_self
    exact absurd (isDigit_of_mem_toString sign) (by decide)
  cases n with
  | ofNat n =>
    cases m with
    | ofNat m => exact congrArg Int.ofNat (natural n m same)
    | negSucc m => exact absurd same (apart n m)
  | negSucc n =>
    cases m with
    | ofNat m => exact absurd same.symm (apart m n)
    | negSucc m =>
      rw [toList_negSucc, toList_negSucc] at same
      have same := natural _ _ (List.cons.inj same).2
      rw [Nat.succ.inj same]

/-- A number is written with the characters of a number, and has a digit. -/
theorem number_chars (floats : FloatPrinter prints) (parsed : Parsed prints j)
    (number : lead j = none) :
    (∀ c ∈ write j, numberChar c = true) ∧ ∃ c ∈ write j, c.isDigit = true := by
  cases j with
  | int n =>
    refine ⟨fun c member => ?_, (int_chars n).2⟩
    rcases (int_chars n).1 c member with digit | rfl
    · rw [numberChar, digit, Bool.true_or]
    · decide
  | float f => exact ⟨floats.number f parsed, floats.digit f parsed⟩
  | bool b => cases b <;> cases number
  | null | str | arr | obj => cases number

theorem write_of_lead (first : lead j = some c) : ∃ rest, write j = c :: rest := by
  cases j with
  | bool b => cases b <;> exact ⟨_, by cases first; rfl⟩
  | int | float => cases first
  | null | str | arr | obj => exact ⟨_, by cases first; rfl⟩

theorem numberChar_lead (first : lead j = some c) : numberChar c = false := by
  cases j with
  | bool b => cases b <;> cases first <;> decide
  | int | float => cases first
  | null | str | arr | obj => cases first; decide

/-- The first character of a text. -/
theorem exists_write_eq_cons (floats : FloatPrinter prints) (parsed : Parsed prints j) :
    ∃ c rest, write j = c :: rest ∧ (lead j = some c ∨ lead j = none ∧ numberChar c = true) := by
  cases first : lead j with
  | some c =>
    obtain ⟨rest, text⟩ := write_of_lead first
    exact ⟨c, rest, text, .inl rfl⟩
  | none =>
    obtain ⟨number, c, member, -⟩ := number_chars floats parsed first
    cases text : write j with
    | nil =>
      rw [text] at member
      cases member
    | cons c rest => exact ⟨c, rest, rfl, .inr ⟨rfl, number c (text ▸ List.mem_cons_self)⟩⟩

/-- The kind of a value is seen from the first character of its text. -/
theorem lead_eq (floats : FloatPrinter prints) (parsed : Parsed prints j)
    (parsed' : Parsed prints k) (same : write j ++ x = write k ++ y) : lead j = lead k := by
  obtain ⟨c, rest, text, kind⟩ := exists_write_eq_cons floats parsed
  obtain ⟨c', rest', text', kind'⟩ := exists_write_eq_cons floats parsed'
  rw [text, text'] at same
  obtain ⟨rfl, -⟩ := List.cons.inj same
  rcases kind with first | ⟨none, number⟩
  · rcases kind' with first' | ⟨none', number'⟩
    · rw [first, first']
    · rw [numberChar_lead first] at number'
      cases number'
  · rcases kind' with first' | ⟨none', number'⟩
    · rw [numberChar_lead first'] at number
      cases number
    · rw [none, none']

/-- A number ends where something stands that cannot belong to it. -/
theorem number_append_inj (number : ∀ c ∈ t, numberChar c = true)
    (number' : ∀ c ∈ u, numberChar c = true) (stops : Stops x) (stops' : Stops y)
    (same : t ++ x = u ++ y) : t = u ∧ x = y := by
  have ends : ∀ {t x : List Char}, (∀ c ∈ t, numberChar c = true) → Stops x →
      (t ++ x).takeWhile numberChar = t := by
    intro t x number stops
    rw [List.takeWhile_append_of_pos number]
    cases x with
    | nil => rw [List.takeWhile_nil, List.append_nil]
    | cons c x =>
      rw [List.takeWhile_cons_of_neg (by simp [stops c rfl]), List.append_nil]
  have texts : t = u := by rw [← ends number stops, same, ends number' stops']
  rw [texts] at same
  exact ⟨texts, List.append_cancel_left same⟩

/-- Two numbers with one text. -/
theorem number_inj (floats : FloatPrinter prints) (parsed : Parsed prints j)
    (parsed' : Parsed prints k) (number : lead j = none) (number' : lead k = none)
    (same : write j = write k) : j = k := by
  have apart : ∀ (n : Int) (f : FloatText), prints f → (toString n).toList ≠ f.text.toList := by
    intro n f printed same
    have chars := (int_chars n).1
    rw [same] at chars
    rcases floats.fraction f printed with point | exponent
    · exact absurd (chars '.' point) (by decide)
    · exact absurd (chars 'e' exponent) (by decide)
  cases j with
  | int n =>
    cases k with
    | int m => rw [int_inj same]
    | float f => exact absurd same (apart n f parsed')
    | bool b => cases b <;> cases number'
    | null | str | arr | obj => cases number'
  | float f =>
    cases k with
    | int m => exact absurd same.symm (apart m f parsed)
    | float g =>
      obtain ⟨text, _⟩ := f
      obtain ⟨text', _⟩ := g
      obtain rfl : text = text' := String.toList_injective same
      rfl
    | bool b => cases b <;> cases number'
    | null | str | arr | obj => cases number'
  | bool b => cases b <;> cases number
  | null | str | arr | obj => cases number

/-! ## Where a text ends -/

theorem writeItems_cons_cons (j j' : Json) (rest : List Json) :
    writeItems (j :: j' :: rest) = write j ++ ',' :: writeItems (j' :: rest) := by
  rw [writeItems]
  exact List.cons_ne_nil j' rest

theorem writeMembers_cons_cons (key : String) (v : Json) (m : String × Json)
    (rest : List (String × Json)) :
    writeMembers ((key, v) :: m :: rest) =
      quote key ++ ':' :: write v ++ ',' :: writeMembers (m :: rest) := by
  rw [writeMembers]
  exact List.cons_ne_nil m rest

/-- The elements of an array start with the first one. -/
theorem exists_writeItems_eq (j : Json) (rest : List Json) :
    ∃ behind, writeItems (j :: rest) = write j ++ behind := by
  cases rest with
  | nil => exact ⟨[], (List.append_nil _).symm⟩
  | cons j' rest => exact ⟨_, writeItems_cons_cons j j' rest⟩

/-- No value starts with what ends an array. -/
theorem write_ne_close (floats : FloatPrinter prints) (parsed : Parsed prints j) :
    ']' :: x ≠ write j ++ y := by
  intro same
  obtain ⟨c, rest, text, kind⟩ := exists_write_eq_cons floats parsed
  rw [text] at same
  obtain ⟨rfl, -⟩ := List.cons.inj same
  rcases kind with first | ⟨-, number⟩
  · cases j with
    | bool b => cases b <;> cases first
    | null | int | float | str | arr | obj => cases first
  · exact absurd number (by decide)

/-- No string starts with what ends an object. -/
theorem writeMembers_ne_close (m : String × Json) (rest : List (String × Json)) :
    '\x7d' :: x ≠ writeMembers (m :: rest) ++ y := by
  intro same
  obtain ⟨key, v⟩ := m
  cases rest with
  | nil => exact absurd (List.cons.inj same).1 (by decide)
  | cons m' rest =>
    rw [writeMembers_cons_cons] at same
    exact absurd (List.cons.inj same).1 (by decide)

mutual

/-- A value and what stands behind it are seen from the text. -/
theorem write_append_inj (floats : FloatPrinter prints) : ∀ (j k : Json) (x y : List Char),
    Parsed prints j → Parsed prints k → Stops x → Stops y → write j ++ x = write k ++ y →
      j = k ∧ x = y
  | .arr items, k, x, y, parsed, parsed', stops, stops', same => by
    -- the first character tells the kind of a value
    have kind := lead_eq floats parsed parsed' same
    cases k with
    | arr items' =>
      simp only [write, List.cons_append, List.append_assoc, List.nil_append] at same
      obtain ⟨rfl, behind⟩ :=
        writeItems_append_inj floats items items' x y parsed parsed' (List.cons.inj same).2
      exact ⟨rfl, behind⟩
    | bool b => cases b <;> cases kind
    | null | int | float | str | obj => cases kind
  | .obj members, k, x, y, parsed, parsed', stops, stops', same => by
    have kind := lead_eq floats parsed parsed' same
    cases k with
    | obj members' =>
      simp only [write, List.cons_append, List.append_assoc, List.nil_append] at same
      obtain ⟨rfl, behind⟩ :=
        writeMembers_append_inj floats members members' x y parsed.2 parsed'.2
          (List.cons.inj same).2
      exact ⟨rfl, behind⟩
    | bool b => cases b <;> cases kind
    | null | int | float | str | arr => cases kind
  | .str s, k, x, y, parsed, parsed', stops, stops', same => by
    have kind := lead_eq floats parsed parsed' same
    cases k with
    | str s' =>
      obtain ⟨rfl, behind⟩ := quote_append_inj same
      exact ⟨rfl, behind⟩
    | bool b => cases b <;> cases kind
    | null | int | float | arr | obj => cases kind
  | .null, k, x, y, parsed, parsed', stops, stops', same => by
    have kind := lead_eq floats parsed parsed' same
    cases k with
    | null => exact ⟨rfl, List.append_cancel_left same⟩
    | bool b => cases b <;> cases kind
    | int | float | str | arr | obj => cases kind
  | .bool b, k, x, y, parsed, parsed', stops, stops', same => by
    have kind := lead_eq floats parsed parsed' same
    cases k with
    | bool b' =>
      obtain rfl : b = b' := by cases b <;> cases b' <;> first | rfl | cases kind
      exact ⟨rfl, List.append_cancel_left same⟩
    | null | int | float | str | arr | obj => cases b <;> cases kind
  | .int n, k, x, y, parsed, parsed', stops, stops', same => by
    have kind := lead_eq floats parsed parsed' same
    obtain ⟨texts, behind⟩ := number_append_inj (number_chars floats parsed rfl).1
      (number_chars floats parsed' kind.symm).1 stops stops' same
    exact ⟨number_inj floats parsed parsed' rfl kind.symm texts, behind⟩
  | .float f, k, x, y, parsed, parsed', stops, stops', same => by
    have kind := lead_eq floats parsed parsed' same
    obtain ⟨texts, behind⟩ := number_append_inj (number_chars floats parsed rfl).1
      (number_chars floats parsed' kind.symm).1 stops stops' same
    exact ⟨number_inj floats parsed parsed' rfl kind.symm texts, behind⟩

theorem writeItems_append_inj (floats : FloatPrinter prints) :
    ∀ (items items' : List Json) (x y : List Char), ParsedItems prints items →
      ParsedItems prints items' → writeItems items ++ ']' :: x = writeItems items' ++ ']' :: y →
        items = items' ∧ x = y
  | [], [], x, y, _, _, same => ⟨rfl, (List.cons.inj same).2⟩
  | [], k :: rest', x, y, _, parsed', same => by
    obtain ⟨behind, text⟩ := exists_writeItems_eq k rest'
    rw [text, List.append_assoc] at same
    exact absurd same (write_ne_close floats parsed'.1)
  | j :: rest, [], x, y, parsed, _, same => by
    obtain ⟨behind, text⟩ := exists_writeItems_eq j rest
    rw [text, List.append_assoc] at same
    exact absurd same.symm (write_ne_close floats parsed.1)
  | [j], [k], x, y, parsed, parsed', same => by
    obtain ⟨rfl, behind⟩ := write_append_inj floats j k _ _ parsed.1 parsed'.1
      (stops_cons rfl) (stops_cons rfl) same
    exact ⟨rfl, (List.cons.inj behind).2⟩
  | [j], k :: k' :: rest', x, y, parsed, parsed', same => by
    rw [writeItems_cons_cons, List.append_assoc] at same
    have behind := (write_append_inj floats j k _ _ parsed.1 parsed'.1
      (stops_cons rfl) (stops_cons rfl) same).2
    exact absurd (List.cons.inj behind).1 (by decide)
  | j :: j' :: rest, [k], x, y, parsed, parsed', same => by
    rw [writeItems_cons_cons, List.append_assoc] at same
    have behind := (write_append_inj floats j k _ _ parsed.1 parsed'.1
      (stops_cons rfl) (stops_cons rfl) same).2
    exact absurd (List.cons.inj behind).1 (by decide)
  | j :: j' :: rest, k :: k' :: rest', x, y, parsed, parsed', same => by
    rw [writeItems_cons_cons, writeItems_cons_cons, List.append_assoc, List.append_assoc] at same
    obtain ⟨rfl, behind⟩ := write_append_inj floats j k _ _ parsed.1 parsed'.1
      (stops_cons rfl) (stops_cons rfl) same
    obtain ⟨others, behind⟩ := writeItems_append_inj floats (j' :: rest) (k' :: rest') x y
      parsed.2 parsed'.2 (List.cons.inj behind).2
    exact ⟨by rw [others], behind⟩

theorem writeMembers_append_inj (floats : FloatPrinter prints) :
    ∀ (members members' : List (String × Json)) (x y : List Char),
      ParsedMembers prints members → ParsedMembers prints members' →
        writeMembers members ++ '\x7d' :: x = writeMembers members' ++ '\x7d' :: y →
          members = members' ∧ x = y
  | [], [], x, y, _, _, same => ⟨rfl, (List.cons.inj same).2⟩
  | [], m :: rest', x, y, _, _, same => absurd same (writeMembers_ne_close m rest')
  | m :: rest, [], x, y, _, _, same => absurd same.symm (writeMembers_ne_close m rest)
  | [(key, v)], [(key', v')], x, y, parsed, parsed', same => by
    rw [writeMembers, writeMembers, List.append_assoc, List.append_assoc] at same
    obtain ⟨rfl, value⟩ := quote_append_inj same
    obtain ⟨rfl, behind⟩ := write_append_inj floats v v' _ _ parsed.2.1 parsed'.2.1
      (stops_cons rfl) (stops_cons rfl) (List.cons.inj value).2
    exact ⟨rfl, (List.cons.inj behind).2⟩
  | [(key, v)], (key', v') :: m :: rest', x, y, parsed, parsed', same => by
    rw [writeMembers_cons_cons, writeMembers] at same
    simp only [List.append_assoc, List.cons_append] at same
    obtain ⟨rfl, value⟩ := quote_append_inj same
    have behind := (write_append_inj floats v v' _ _ parsed.2.1 parsed'.2.1
      (stops_cons rfl) (stops_cons rfl) (List.cons.inj value).2).2
    exact absurd (List.cons.inj behind).1 (by decide)
  | (key, v) :: m :: rest, [(key', v')], x, y, parsed, parsed', same => by
    rw [writeMembers_cons_cons, writeMembers] at same
    simp only [List.append_assoc, List.cons_append] at same
    obtain ⟨rfl, value⟩ := quote_append_inj same
    have behind := (write_append_inj floats v v' _ _ parsed.2.1 parsed'.2.1
      (stops_cons rfl) (stops_cons rfl) (List.cons.inj value).2).2
    exact absurd (List.cons.inj behind).1 (by decide)
  | (key, v) :: m :: rest, (key', v') :: m' :: rest', x, y, parsed, parsed', same => by
    rw [writeMembers_cons_cons, writeMembers_cons_cons] at same
    simp only [List.append_assoc, List.cons_append] at same
    obtain ⟨rfl, value⟩ := quote_append_inj same
    obtain ⟨rfl, behind⟩ := write_append_inj floats v v' _ _ parsed.2.1 parsed'.2.1
      (stops_cons rfl) (stops_cons rfl) (List.cons.inj value).2
    obtain ⟨others, behind⟩ := writeMembers_append_inj floats (m :: rest) (m' :: rest') x y
      parsed.2.2 parsed'.2.2 (List.cons.inj behind).2
    exact ⟨by rw [others], behind⟩

end

end Json

end Perfacet
