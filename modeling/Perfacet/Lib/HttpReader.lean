import Mathlib.Data.List.Basic

/-!
# Messages with a head and a body of known length

A message is a head and a body. The head is a row of lines, each ended by a carriage return and a
line feed, up to a line that is empty; a field of the head says how long the body is. One who
reads a stream of messages in this way needs nothing that marks the end of a body, so a body may
contain anything.

## Main definitions

* `HttpReader.read` — the first message of a stream
* `HttpReader.readAll` — all messages of a stream
* `HttpReader.Wrote` — a message as it is written

## Main results

* `HttpReader.readAll_of_wrote` — what is written one after the other is read again
-/

namespace HttpReader

/-- The lines up to the empty one, and what stands behind it; `line` is what has been read of the
first line, backwards. -/
def readLines (line : List Char) : List Char → Option (List (List Char) × List Char)
  | '\r' :: '\n' :: rest =>
    if line = [] then some ([], rest)
    else (readLines [] rest).map fun read => (line.reverse :: read.1, read.2)
  | c :: rest => readLines (c :: line) rest
  | [] => none

/-- The name of a field in lower case, and its value. -/
def field (line : List Char) : List Char × List Char :=
  ((line.takeWhile (· ≠ ':')).map Char.toLower,
    ((line.dropWhile (· ≠ ':')).drop 1).dropWhile (· = ' '))

/-- A number that is written in decimal. -/
def number (digits : List Char) : Option ℕ :=
  if digits ≠ [] ∧ digits.all Char.isDigit then some (Nat.ofDigitChars 10 digits 0) else none

/-- What the first field of a name says. -/
def fieldOf (name : List Char) (fields : List (List Char)) : Option (List Char) :=
  ((fields.map field).find? fun f => f.1 = name).map Prod.snd

/-- The length of the body. -/
def contentLength (fields : List (List Char)) : Option ℕ :=
  (fieldOf "content-length".toList fields).bind number

/-- A message: its first line, the other lines of its head, and its body. -/
structure Message where
  first : List Char
  fields : List (List Char)
  body : List Char
  deriving DecidableEq, Repr

/-- The first message of a stream, and what stands behind it. -/
def read (stream : List Char) : Option (Message × List Char) :=
  match readLines [] stream with
  | some (first :: fields, rest) =>
    match contentLength fields with
    | some n => if n ≤ rest.length then some (⟨first, fields, rest.take n⟩, rest.drop n) else none
    | none => none
  | _ => none

/-- All messages of a stream, which has no more than `n` of them. -/
def readAll : ℕ → List Char → Option (List Message)
  | _, [] => some []
  | 0, _ :: _ => none
  | n + 1, c :: stream =>
    match read (c :: stream) with
    | some (m, rest) => (readAll n rest).map (m :: ·)
    | none => none

/-- A message as it is written. -/
def Message.write (m : Message) : List Char :=
  (m.first :: m.fields).flatMap (· ++ ['\r', '\n']) ++ ['\r', '\n'] ++ m.body

/-- A line that can be seen: it is not empty and has no carriage return. -/
def Line (line : List Char) : Prop := line ≠ [] ∧ '\r' ∉ line

instance (line : List Char) : Decidable (Line line) := inferInstanceAs (Decidable (_ ∧ _))

/-- A message whose head has lines that can be seen, and says how long the body is. -/
structure Wrote (m : Message) : Prop where
  first : Line m.first
  fields : ∀ line ∈ m.fields, Line line
  length : contentLength m.fields = some m.body.length

variable {line rest : List Char} {m : Message}

/-- What is not a carriage return belongs to the line. -/
theorem readLines_append (plain : '\r' ∉ line) (before rest : List Char) :
    readLines before (line ++ rest) = readLines (line.reverse ++ before) rest := by
  induction line generalizing before with
  | nil => rfl
  | cons c line ih =>
    obtain ⟨other, others⟩ := List.ne_and_not_mem_of_not_mem_cons plain
    rw [List.cons_append, readLines, ih others, List.reverse_cons, List.append_assoc]
    · rfl
    · rintro rest rfl
      exact absurd rfl other

/-- A line of the head. -/
theorem readLines_line (seen : Line line) (rest : List Char) :
    readLines [] (line ++ ['\r', '\n'] ++ rest) =
      (readLines [] rest).map fun read => (line :: read.1, read.2) := by
  rw [List.append_assoc, readLines_append seen.2, List.append_nil]
  show (if line.reverse = [] then _ else _) = _
  rw [if_neg fun none => seen.1 (List.reverse_eq_nil_iff.mp none), List.reverse_reverse]
  rfl

/-- The lines of a head. -/
theorem readLines_lines {lines : List (List Char)} (seen : ∀ line ∈ lines, Line line)
    (rest : List Char) :
    readLines [] (lines.flatMap (· ++ ['\r', '\n']) ++ ['\r', '\n'] ++ rest) =
      some (lines, rest) := by
  induction lines with
  | nil => rfl
  | cons line lines ih =>
    obtain ⟨first, others⟩ := List.forall_mem_cons.mp seen
    rw [List.flatMap_cons, List.append_assoc, List.append_assoc, readLines_line first,
      ← List.append_assoc, ih others]
    rfl

/-- A message is read as it was written, whatever stands behind it. -/
theorem read_write (wrote : Wrote m) (rest : List Char) :
    read (m.write ++ rest) = some (m, rest) := by
  have lines : readLines [] (m.write ++ rest) = some (m.first :: m.fields, m.body ++ rest) := by
    rw [Message.write, List.append_assoc]
    exact readLines_lines (List.forall_mem_cons.mpr ⟨wrote.first, wrote.fields⟩) _
  rw [read, lines]
  dsimp only
  rw [wrote.length]
  dsimp only
  rw [if_pos (by simp), List.take_left, List.drop_left]

theorem write_ne_nil (m : Message) : m.write ≠ [] := by
  simp [Message.write]

/-- Messages that are written one after the other are read one after the other. -/
theorem readAll_of_wrote {ms : List Message} (wrote : ∀ m ∈ ms, Wrote m) :
    readAll ms.length (ms.flatMap Message.write) = some ms := by
  induction ms with
  | nil => rfl
  | cons m ms ih =>
    obtain ⟨first, others⟩ := List.forall_mem_cons.mp wrote
    have read := read_write first (ms.flatMap Message.write)
    rw [List.flatMap_cons, List.length_cons]
    cases written : m.write ++ ms.flatMap Message.write with
    | nil => exact absurd (List.append_eq_nil_iff.mp written).1 (write_ne_nil m)
    | cons c stream =>
      rw [written] at read
      rw [readAll, read]
      dsimp only
      rw [ih others]
      rfl

/-! ## Fields and numbers -/

theorem takeWhile_ne {c : Char} {x : List Char} (plain : c ∉ x) (y : List Char) :
    (x ++ c :: y).takeWhile (· ≠ c) = x := by
  have inside : ∀ d ∈ x, decide (d ≠ c) = true := fun d member =>
    decide_eq_true fun same => plain (same ▸ member)
  rw [List.takeWhile_append_of_pos inside]
  simp

theorem dropWhile_ne {c : Char} {x : List Char} (plain : c ∉ x) (y : List Char) :
    (x ++ c :: y).dropWhile (· ≠ c) = c :: y := by
  have inside : ∀ d ∈ x, decide (d ≠ c) = true := fun d member =>
    decide_eq_true fun same => plain (same ▸ member)
  rw [List.dropWhile_append_of_pos inside]
  simp

/-- A field is seen from its line. -/
theorem field_append {name value : List Char} (plain : ':' ∉ name) (trimmed : ' ' ∉ value) :
    field (name ++ [':', ' '] ++ value) = (name.map Char.toLower, value) := by
  have rest : value.dropWhile (· = ' ') = value := by
    cases value with
    | nil => rfl
    | cons c value =>
      have other : c ≠ ' ' := fun same => trimmed (same ▸ List.mem_cons_self ..)
      exact List.dropWhile_cons_of_neg (by simpa using other)
  rw [field, List.append_assoc, List.cons_append, takeWhile_ne plain, dropWhile_ne plain]
  show (_, (' ' :: ([] ++ value)).dropWhile (· = ' ')) = _
  rw [List.nil_append, List.dropWhile_cons_of_pos (by decide), rest]

theorem fieldOf_cons_self {name value line : List Char} (same : field line = (name, value))
    (lines : List (List Char)) : fieldOf name (line :: lines) = some value := by
  rw [fieldOf, List.map_cons, same, List.find?_cons_of_pos (by simp)]
  rfl

theorem fieldOf_cons_of_ne {name line : List Char} (other : (field line).1 ≠ name)
    (lines : List (List Char)) : fieldOf name (line :: lines) = fieldOf name lines := by
  rw [fieldOf, List.map_cons, List.find?_cons_of_neg (by simpa using other)]
  rfl

/-- The digits of a number are none of the characters that a head is made of. -/
theorem notMem_toDigits {c : Char} (other : c.isDigit = false) (n : ℕ) :
    c ∉ Nat.toDigits 10 n := by
  intro member
  rw [Nat.isDigit_of_mem_toDigits (by decide) (by decide) member] at other
  cases other

theorem number_toDigits (n : ℕ) : number (Nat.toDigits 10 n) = some n := by
  rw [number, if_pos ⟨Nat.toDigits_ne_nil, List.all_eq_true.mpr fun c member =>
    Nat.isDigit_of_mem_toDigits (by decide) (by decide) member⟩, Nat.ofDigitChars_ten_toDigits]

end HttpReader
