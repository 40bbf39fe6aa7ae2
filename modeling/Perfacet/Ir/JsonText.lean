import Perfacet.Ir.Json

/-!
# Reading back what was written

The serialiser loses nothing of strings and natural numbers: where one ends is seen from the text,
and two of them have different texts. So there can be a parser that reads back what is written.

## Main results

* `Json.unescapeChar_escapeChar` — an escaped byte is read back
* `Json.quote_append_inj`, `Json.natural_append_inj` — what stands behind a string or a number, and
  the string or number itself
-/

namespace Perfacet

namespace Json

/-- What a hexadecimal digit stands for. -/
def hexValue (c : Char) : ℕ :=
  if c.isDigit then c.toNat - '0'.toNat else c.toNat - 'a'.toNat + 10

/-- The byte that a letter behind a backslash stands for. -/
def unescapeLetter (c : Char) : Char :=
  if c = 'b' then Char.ofNat 8
  else if c = 't' then Char.ofNat 9
  else if c = 'n' then Char.ofNat 10
  else if c = 'f' then Char.ofNat 12
  else if c = 'r' then Char.ofNat 13
  else c

/-- The first byte of a string that was escaped, and what stands behind it. -/
def unescapeChar : List Char → Option (Char × List Char)
  | [] => none
  | '\\' :: 'u' :: _ :: _ :: high :: low :: rest =>
    some (Char.ofNat (16 * hexValue high + hexValue low), rest)
  | '\\' :: c :: rest => some (unescapeLetter c, rest)
  | c :: rest => some (c, rest)

theorem hexValue_hexDigit : ∀ n < 16, hexValue (hexDigit n) = n := by decide

/-- What was escaped is read back, whatever stands behind it. -/
theorem unescapeChar_escapeChar (c : Char) (rest : List Char) :
    unescapeChar (escapeChar c ++ rest) = some (c, rest) := by
  have named : ∀ n, c.toNat = n → Char.ofNat n = c := fun n same => same ▸ Char.ofNat_toNat c
  unfold escapeChar
  split_ifs with quotation backslash backspace tab line feed ret control
  · rw [quotation]; rfl
  · rw [backslash]; rfl
  · rw [← named 8 backspace]; rfl
  · rw [← named 9 tab]; rfl
  · rw [← named 10 line]; rfl
  · rw [← named 12 feed]; rfl
  · rw [← named 13 ret]; rfl
  · simp only [List.cons_append, List.nil_append, unescapeChar]
    rw [hexValue_hexDigit _ (by omega), hexValue_hexDigit _ (by omega), Nat.div_add_mod,
      Char.ofNat_toNat]
  · rw [List.singleton_append, unescapeChar.eq_def]
    split
    · next nil => cases nil
    · next same => exact absurd (List.cons.inj same).1 backslash
    · next same => exact absurd (List.cons.inj same).1 backslash
    · next same => cases same; rfl

/-- A string ends at its quotation mark: the marks in it are escaped. -/
theorem quotation_ne_escapeChar (c : Char) (x y : List Char) : '"' :: x ≠ escapeChar c ++ y := by
  intro same
  have read : unescapeChar ('"' :: x) = some (c, y) := by rw [same, unescapeChar_escapeChar]
  obtain rfl : '"' = c := (Prod.mk.inj (Option.some.inj read)).1
  exact absurd (List.cons.inj same).1 (by decide)

theorem escape_append_inj {s s' x y : List Char}
    (same : s.flatMap escapeChar ++ '"' :: x = s'.flatMap escapeChar ++ '"' :: y) :
    s = s' ∧ x = y := by
  induction s generalizing s' with
  | nil =>
    cases s' with
    | nil => exact ⟨rfl, (List.cons.inj same).2⟩
    | cons d s' =>
      rw [List.flatMap_cons, List.append_assoc] at same
      exact absurd same (quotation_ne_escapeChar d x _)
  | cons c s ih =>
    cases s' with
    | nil =>
      rw [List.flatMap_cons, List.append_assoc] at same
      exact absurd same.symm (quotation_ne_escapeChar c y _)
    | cons d s' =>
      rw [List.flatMap_cons, List.flatMap_cons, List.append_assoc, List.append_assoc] at same
      have read := congrArg unescapeChar same
      rw [unescapeChar_escapeChar, unescapeChar_escapeChar] at read
      obtain ⟨rfl, rest⟩ := Prod.mk.inj (Option.some.inj read)
      obtain ⟨rfl, behind⟩ := ih rest
      exact ⟨rfl, behind⟩

/-- A string and what stands behind it are seen from the text. -/
theorem quote_append_inj {s s' : String} {x y : List Char}
    (same : quote s ++ x = quote s' ++ y) : s = s' ∧ x = y := by
  simp only [quote, List.cons_append, List.append_assoc] at same
  obtain ⟨inside, behind⟩ := escape_append_inj (List.cons.inj same).2
  exact ⟨String.toList_injective inside, behind⟩

theorem toList_natural (n : ℕ) : (toString (n : Int)).toList = Nat.toDigits 10 n := by
  show (toString n).toList = _
  simp

/-- A number ends where there is no digit. -/
theorem takeWhile_toDigits (n : ℕ) {c : Char} (stop : c.isDigit = false) (x : List Char) :
    (Nat.toDigits 10 n ++ c :: x).takeWhile Char.isDigit = Nat.toDigits 10 n := by
  rw [List.takeWhile_append_of_pos fun d member =>
    Nat.isDigit_of_mem_toDigits (b := 10) (by decide) (by decide) member,
    List.takeWhile_cons_of_neg (by simp [stop]), List.append_nil]

/-- A number and what stands behind it are seen from the text. -/
theorem natural_append_inj {n m : ℕ} {c : Char} {x y : List Char} (stop : c.isDigit = false)
    (same : (toString (n : Int)).toList ++ c :: x = (toString (m : Int)).toList ++ c :: y) :
    n = m ∧ x = y := by
  rw [toList_natural, toList_natural] at same
  have digits : Nat.toDigits 10 n = Nat.toDigits 10 m := by
    rw [← takeWhile_toDigits n stop x, same, takeWhile_toDigits m stop y]
  constructor
  · rw [← Nat.ofDigitChars_ten_toDigits (n := n), digits, Nat.ofDigitChars_ten_toDigits]
  · rw [digits] at same
    exact (List.cons.inj (List.append_cancel_left same)).2

end Json

end Perfacet
