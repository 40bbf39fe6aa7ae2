import Perfacet.Ir.Json

/-!
# Where UTF-8 texts can be cut

The decoder keeps the ranges of the bytes that are still owed of a character. Whether a text can
be cut at a place can be seen from the byte after it: a byte that continues a character lies in
every range that may be owed, and in none that starts a character.

## Main definitions

* `Json.owedAfter` — what is owed after some bytes
* `Json.IsContinuation` — the bytes that continue a character

## Main results

* `Json.utf8_take_iff` — the places where a text can be cut
* `Json.utf8_append_ascii` — what comes before an ASCII byte has to be complete
* `Json.utf8_write` — what the serialiser writes is UTF-8
-/

namespace Perfacet

namespace Json

/-- The ranges still owed after some bytes, unless one of them is misplaced. -/
def owedAfter : List (ℕ × ℕ) → List Char → Option (List (ℕ × ℕ))
  | owed, [] => some owed
  | [], c :: rest =>
    match utf8Tail c.toNat with
    | some owed => owedAfter owed rest
    | none => none
  | (low, high) :: owed, c :: rest =>
    if low ≤ c.toNat ∧ c.toNat ≤ high then owedAfter owed rest else none

/-- The bytes that continue a character. -/
def IsContinuation (c : Char) : Prop := 0x80 ≤ c.toNat ∧ c.toNat ≤ 0xBF

instance : DecidablePred IsContinuation := fun c =>
  inferInstanceAs (Decidable (0x80 ≤ c.toNat ∧ c.toNat ≤ 0xBF))

/-- Only bytes that continue a character are owed. -/
def Owes (owed : List (ℕ × ℕ)) : Prop := ∀ range ∈ owed, 0x80 ≤ range.1 ∧ range.2 ≤ 0xBF

variable {owed owed' : List (ℕ × ℕ)} {c : Char} {x y : List Char}

theorem owes_nil : Owes [] := fun _ member => by cases member

theorem owes_utf8Tail {b : ℕ} (starts : utf8Tail b = some owed) : Owes owed := by
  unfold utf8Tail at starts
  split_ifs at starts <;> cases starts <;> simp [Owes]

/-- No character starts with a byte that continues one. -/
theorem not_isContinuation_of_starts (starts : utf8Tail c.toNat = some owed) :
    ¬ IsContinuation c := by
  rintro ⟨low, high⟩
  unfold utf8Tail at starts
  split_ifs at starts <;> omega

theorem utf8Tail_of_ascii {b : ℕ} (ascii : b < 0x80) : utf8Tail b = some [] := if_pos (by omega)

/-- A text is UTF-8 if nothing is owed in the end. -/
theorem utf8From_iff : utf8From owed x = true ↔ owedAfter owed x = some [] := by
  fun_induction owedAfter owed x with
  | case1 owed => cases owed <;> simp [utf8From]
  | case2 c rest owed starts ih => rw [utf8From, starts]; exact ih
  | case3 c rest misplaced => rw [utf8From, misplaced]; simp
  | case4 low high owed c rest inside ih => simp [utf8From, inside, ih]
  | case5 low high owed c rest outside => simp [utf8From, outside]

theorem owedAfter_append (owed : List (ℕ × ℕ)) (x y : List Char) :
    owedAfter owed (x ++ y) = (owedAfter owed x).bind fun owed' => owedAfter owed' y := by
  fun_induction owedAfter owed x with
  | case1 owed => rfl
  | case2 c rest owed starts ih => rw [List.cons_append, owedAfter, starts]; exact ih
  | case3 c rest misplaced => rw [List.cons_append, owedAfter, misplaced]; rfl
  | case4 low high owed c rest inside ih => rw [List.cons_append, owedAfter, if_pos inside, ih]
  | case5 low high owed c rest outside => rw [List.cons_append, owedAfter, if_neg outside]; rfl

theorem owes_owedAfter (h : Owes owed) (after : owedAfter owed x = some owed') : Owes owed' := by
  fun_induction owedAfter owed x with
  | case1 owed => cases after; exact h
  | case2 c rest owed starts ih => exact ih (owes_utf8Tail starts) after
  | case3 c rest misplaced => cases after
  | case4 low high owed c rest inside ih =>
    exact ih (fun range member => h range (List.mem_cons_of_mem _ member)) after
  | case5 low high owed c rest outside => cases after

/-! ## Cutting -/

/-- The first part of a UTF-8 text is UTF-8 if the second one does not start with a byte that
continues a character. -/
theorem utf8From_left_iff (h : Owes owed) (whole : utf8From owed (x ++ y) = true) :
    utf8From owed x = true ↔ ∀ c ∈ y.head?, ¬ IsContinuation c := by
  rw [utf8From_iff] at whole ⊢
  rw [owedAfter_append] at whole
  obtain ⟨rest, after, complete⟩ := Option.bind_eq_some_iff.mp whole
  have owes := owes_owedAfter h after
  rw [after, Option.some.injEq]
  constructor
  · rintro rfl c first
    cases y with
    | nil => cases first
    | cons c' y =>
      obtain rfl := Option.some.inj first
      rw [owedAfter] at complete
      split at complete
      · next starts => exact not_isContinuation_of_starts starts
      · cases complete
  · intro starts
    cases rest with
    | nil => rfl
    | cons range rest =>
      obtain ⟨low, high⟩ := range
      cases y with
      | nil => cases complete
      | cons c y =>
        rw [owedAfter] at complete
        split at complete
        · next inside =>
          obtain ⟨above, below⟩ := owes (low, high) List.mem_cons_self
          exact absurd ⟨Nat.le_trans above inside.1, Nat.le_trans inside.2 below⟩ (starts c rfl)
        · cases complete

/-- A UTF-8 text can be cut where the next byte does not continue a character. -/
theorem utf8_take_iff {text : List Char} (whole : utf8From [] text = true) (n : ℕ) :
    utf8From [] (text.take n) = true ↔ ∀ c ∈ text[n]?, ¬ IsContinuation c := by
  rw [← List.head?_drop]
  exact utf8From_left_iff owes_nil ((List.take_append_drop n text).symm ▸ whole)

/-- What comes before an ASCII byte has to be complete. -/
theorem utf8_append_ascii (h : Owes owed) (ascii : c.toNat < 0x80) :
    utf8From owed (x ++ c :: y) = true ↔ utf8From owed x = true ∧ utf8From [] (c :: y) = true := by
  rw [utf8From_iff, utf8From_iff, utf8From_iff, owedAfter_append]
  cases after : owedAfter owed x with
  | none => simp
  | some rest =>
    have owes := owes_owedAfter h after
    cases rest with
    | nil => simp
    | cons range rest =>
      obtain ⟨low, high⟩ := range
      have above := (owes (low, high) List.mem_cons_self).1
      have outside : ¬ (low ≤ c.toNat ∧ c.toNat ≤ high) := by
        dsimp only at above
        omega
      simp [owedAfter, outside]

theorem utf8From_append (complete : utf8From owed x = true) :
    utf8From owed (x ++ y) = utf8From [] y := by
  rw [Bool.eq_iff_iff, utf8From_iff, utf8From_iff, owedAfter_append, utf8From_iff.mp complete]
  rfl

/-! ## What the serialiser writes -/

theorem utf8_of_ascii (ascii : ∀ c ∈ x, c.toNat < 0x80) : utf8From [] x = true := by
  induction x with
  | nil => rfl
  | cons c x ih =>
    obtain ⟨first, others⟩ := List.forall_mem_cons.mp ascii
    rw [utf8From, utf8Tail_of_ascii first]
    exact ih others

theorem hexDigit_ascii : ∀ n < 16, (hexDigit n).toNat < 0x80 := by decide

/-- An ASCII byte is written in ASCII. -/
theorem escapeChar_ascii (ascii : c.toNat < 0x80) : ∀ d ∈ escapeChar c, d.toNat < 0x80 := by
  have pair : ∀ d : Char, d.toNat < 0x80 → ∀ e ∈ ['\\', d], e.toNat < 0x80 := by
    intro d small
    exact List.forall_mem_cons.mpr ⟨by decide, List.forall_mem_singleton.mpr small⟩
  unfold escapeChar
  split_ifs with h₁ h₂ h₃ h₄ h₅ h₆ h₇ control
  iterate 7 exact pair _ (by decide)
  · have first := hexDigit_ascii (c.toNat / 16) (by omega)
    have second := hexDigit_ascii (c.toNat % 16) (by omega)
    intro d member
    simp only [List.mem_cons, List.not_mem_nil, or_false] at member
    rcases member with rfl | rfl | rfl | rfl | rfl | rfl
    iterate 4 decide
    · exact first
    · exact second
  · simpa using ascii

/-- Any other byte is copied. -/
theorem escapeChar_of_le (other : 0x80 ≤ c.toNat) : escapeChar c = [c] := by
  unfold escapeChar
  have quotation : c ≠ '"' := by rintro rfl; exact absurd other (by decide)
  have backslash : c ≠ '\\' := by rintro rfl; exact absurd other (by decide)
  rw [if_neg quotation, if_neg backslash]
  split_ifs <;> first | omega | rfl

/-- Escaping keeps characters whole. -/
theorem utf8From_escape (complete : utf8From owed x = true) (h : Owes owed) :
    utf8From owed (x.flatMap escapeChar) = true := by
  rw [utf8From_iff] at complete
  fun_induction owedAfter owed x with
  | case1 owed =>
    cases complete
    rfl
  | case2 c rest owed starts ih =>
    have others := ih complete (owes_utf8Tail starts)
    rw [List.flatMap_cons]
    by_cases ascii : c.toNat < 0x80
    · rw [utf8Tail_of_ascii ascii] at starts
      cases starts
      rw [utf8From_append (utf8_of_ascii (escapeChar_ascii ascii))]
      exact others
    · rw [escapeChar_of_le (Nat.le_of_not_lt ascii), List.singleton_append, utf8From, starts]
      exact others
  | case3 c rest misplaced => cases complete
  | case4 low high owed c rest inside ih =>
    have above := (h (low, high) List.mem_cons_self).1
    have others := ih complete fun range member => h range (List.mem_cons_of_mem _ member)
    rw [List.flatMap_cons, escapeChar_of_le (Nat.le_trans above inside.1), List.singleton_append,
      utf8From, others, decide_eq_true inside]
    rfl
  | case5 low high owed c rest outside => cases complete

theorem utf8From_cons_ascii (ascii : c.toNat < 0x80) : utf8From [] (c :: x) = utf8From [] x := by
  rw [utf8From, utf8Tail_of_ascii ascii]

theorem utf8_quote {s : String} (plain : utf8 s = true) : utf8From [] (quote s) = true := by
  have inside := utf8From_escape plain owes_nil
  rw [quote, List.cons_append, utf8From_cons_ascii (by decide), utf8From_append inside]
  rfl

theorem ascii_of_alphanum (printed : c.isAlphanum = true) : c.toNat < 0x80 := by
  have ranges : ((decide (c.val ≥ 'A'.val ∧ c.val ≤ 'Z'.val) ||
      (decide (c.val ≥ 'a'.val) && decide (c.val ≤ 'z'.val))) ||
      (decide (c.val ≥ '0'.val) && decide (c.val ≤ '9'.val))) = true := printed
  simp only [Bool.or_eq_true, Bool.and_eq_true, decide_eq_true_eq, ge_iff_le,
    UInt32.le_iff_toNat_le] at ranges
  have same : c.val.toNat = c.toNat := rfl
  rw [same] at ranges
  simp at ranges
  omega

theorem utf8_toString_nat (n : ℕ) : utf8From [] (toString n).toList = true := by
  refine utf8_of_ascii fun c member => ascii_of_alphanum ?_
  have digit := Nat.isDigit_of_mem_toDigits (b := 10) (by decide) (by decide)
    (show c ∈ Nat.toDigits 10 n by simpa using member)
  rw [Char.isAlphanum, digit, Bool.or_true]

theorem utf8_toString (n : Int) : utf8From [] (toString n).toList = true := by
  cases n with
  | ofNat n => exact utf8_toString_nat n
  | negSucc n =>
    show utf8From [] ("-" ++ toString (n + 1)).toList = true
    rw [String.toList_append, utf8From_append (by decide)]
    exact utf8_toString_nat (n + 1)

theorem utf8_float (number : FloatText) : utf8From [] number.text.toList = true := by
  refine utf8_of_ascii fun c member => ?_
  rcases number.printed c member with printed | rfl | rfl | rfl
  · exact ascii_of_alphanum printed
  all_goals decide

mutual

/-- The serialiser writes UTF-8 if all strings are UTF-8. -/
theorem utf8_write : ∀ j : Json, j.allUtf8 = true → utf8From [] j.write = true
  | .null, _ => by decide
  | .bool true, _ => by decide
  | .bool false, _ => by decide
  | .int n, _ => utf8_toString n
  | .float number, _ => utf8_float number
  | .str s, plain => utf8_quote plain
  | .arr items, plain => by
    rw [write, List.cons_append, utf8From_cons_ascii (by decide),
      utf8From_append (utf8_writeItems items plain)]
    rfl
  | .obj members, plain => by
    rw [write, List.cons_append, utf8From_cons_ascii (by decide),
      utf8From_append (utf8_writeMembers members plain)]
    rfl

theorem utf8_writeItems : ∀ items : List Json, allUtf8Items items = true →
    utf8From [] (writeItems items) = true
  | [], _ => rfl
  | [j], plain => by
    rw [allUtf8Items, Bool.and_eq_true] at plain
    exact utf8_write j plain.1
  | j :: j' :: rest, plain => by
    rw [allUtf8Items, Bool.and_eq_true] at plain
    rw [writeItems, utf8From_append (utf8_write j plain.1), utf8From_cons_ascii (by decide)]
    · exact utf8_writeItems (j' :: rest) plain.2
    · exact List.cons_ne_nil j' rest

theorem utf8_writeMembers : ∀ members : List (String × Json), allUtf8Members members = true →
    utf8From [] (writeMembers members) = true
  | [], _ => rfl
  | [(k, v)], plain => by
    rw [allUtf8Members, Bool.and_eq_true, Bool.and_eq_true] at plain
    rw [writeMembers, utf8From_append (utf8_quote plain.1.1), utf8From_cons_ascii (by decide)]
    exact utf8_write v plain.1.2
  | (k, v) :: m :: rest, plain => by
    rw [allUtf8Members, Bool.and_eq_true, Bool.and_eq_true] at plain
    rw [writeMembers, List.append_assoc, utf8From_append (utf8_quote plain.1.1),
      List.cons_append, utf8From_cons_ascii (by decide), utf8From_append (utf8_write v plain.1.2),
      utf8From_cons_ascii (by decide)]
    · exact utf8_writeMembers (m :: rest) plain.2
    · exact List.cons_ne_nil m rest

end

/-- Exactly the values whose strings are UTF-8 can be serialised. -/
theorem dump_ok_iff {j : Json} : (∃ text, j.dump = .ok text) ↔ j.allUtf8 = true := by
  rw [dump]
  split
  · next ok => simp [ok]
  · next bad => simp [bad]

end Json

end Perfacet
