import Perfacet.Lib.Transition
import Perfacet.Policy.GrantStore

/-!
# The table and the log

A grant that is asked for or approved is put into the table, and a job appends its line to the
file. The jobs write in the order in which they were posted, each some time after its call; it is
after that, again, that it clears the flag that keeps refreshes off.

The table always says what the file will say once the jobs are done, if the file's last line is
ended to begin with. If it is not, the first line that is appended continues it, and both are lost.

## Main definitions

* `GrantJournal`, `GrantJournal.machine` — the store with its file and its jobs
* `GrantLog.ReadsBack` — what is relied on of the JSON parser
* `GrantLog.Sealed` — a line can be appended to the file
* `GrantJournal.Agrees` — the table says what the file will say

## Main results

* `GrantLog.parseFile_line` — a line that is appended is read as its record
* `GrantJournal.Kept.step` — what every call and every job keeps
* `journal_agrees` — the table agrees with the file in every run
-/

namespace Perfacet

/-- The store, its file, the lines that posted jobs are still to write, in order, and how many jobs
have written and are about to clear the flag. -/
structure GrantJournal where
  store : GrantStore
  file : Option LogFile
  jobs : List (List Char) := []
  clearing : ℕ := 0

/-- A call, with the identifier that it draws, or a step of a job. -/
inductive JournalInput
  | appendPending (hex agent bumpTo : String) (rank : Rank) (now : UInt64)
  | approveById (id : String) (now ttlOverride clock : UInt64)
  | approveDirect (hex agent : String) (rank : Rank) (bumpTo : String) (now : UInt64)
  | write (mtimeNs : ℤ)
  | clear

namespace GrantJournal

/-- `appendLine`: the table first, then the line, whose text may not be there. -/
def append (s : GrantJournal) (r : GrantRecord) : GrantJournal :=
  let jobs := match (GrantTable.line r).dump with
    | .ok text => s.jobs ++ [text.toList]
    | .error _ => s.jobs
  { s with store := s.store.appendLine r, jobs := jobs }

/-- What is in the file; a file that is not there is made when a line is written. -/
def content (s : GrantJournal) : List Char :=
  match s.file with
  | some f => f.content
  | none => []

/-- What the jobs are going to append to it. -/
def pending (s : GrantJournal) : List Char := s.jobs.flatMap fun line => line ++ ['\n']

section Machine

variable (parse : String → Option Json) (trunc : FloatText → ℤ) (onExpire : Bool) (ttlMs : UInt64)

/-- `approveById`. It refreshes the table first; `clock` is what the refresh reads. -/
def approveById (s : GrantJournal) (id : String) (now ttlOverride clock : UInt64) : GrantJournal :=
  match s.store.refreshOnWorker parse trunc onExpire s.file clock with
  | .error _ => s
  | .ok (store, _) =>
    match store.table.lookup id with
    | none => { s with store := store }
    | some r =>
      -- an override of zero means the time of the configuration
      let ttl := if 0 < ttlOverride then ttlOverride else ttlMs
      append { s with store := store }
        { r with status := "approved", expiresAt := now + ttl, tsMs := now }

def step (s : GrantJournal) : JournalInput → Option GrantJournal
  | .appendPending hex agent bumpTo rank now =>
    some (s.append (GrantTable.pending ("g_" ++ hex) agent bumpTo rank now))
  | .approveById id now ttlOverride clock =>
    some (s.approveById parse trunc onExpire ttlMs id now ttlOverride clock)
  | .approveDirect hex agent rank bumpTo now =>
    some (s.append { id := "g_" ++ hex, agent := agent, bumpTo := bumpTo, rank := rank,
                     status := "approved", expiresAt := now + ttlMs, tsMs := now })
  | .write mtimeNs =>
    match s.jobs with
    | [] => none
    | line :: jobs =>
      -- the line is written outside the lock, and the flag is cleared by a step of its own
      some { s with file := some ⟨s.content ++ (line ++ ['\n']), mtimeNs⟩, jobs := jobs,
                    clearing := s.clearing + 1 }
  | .clear =>
    if s.clearing = 0 then none
    else some { s with store := s.store.clearDirty, clearing := s.clearing - 1 }

/-- The gateway and the command line refresh a new store before they use it. -/
def machine (file : Option LogFile) : TransitionSystem GrantJournal JournalInput where
  init s := ∃ store reports clock,
    GrantStore.refreshOnWorker parse trunc onExpire {} file clock = .ok (store, reports) ∧
      s = { store := store, file := file }
  step := step parse trunc onExpire ttlMs

/-- The table says what the file will say once the jobs are done. -/
def Agrees (s : GrantJournal) : Prop :=
  GrantLog.parseFile parse trunc (s.content ++ s.pending) = .ok s.store.table

end Machine

/-- The texts of a call are UTF-8, and a call that refreshes finds no line that is still to be
written although the flag was cleared. -/
def Clean (s : GrantJournal) : JournalInput → Prop
  | .appendPending hex agent bumpTo _ _ | .approveDirect hex agent _ bumpTo _ =>
    Json.utf8 ("g_" ++ hex) = true ∧ Json.utf8 agent = true ∧ Json.utf8 bumpTo = true
  | .approveById _ _ _ _ => s.store.dirty = true ∨ s.jobs = []
  | .write _ | .clear => True

end GrantJournal

/-! ## Appending a line to a file -/

namespace GrantLog

section Parser

variable (parse : String → Option Json) (trunc : FloatText → ℤ)

/-- What is relied on of the parser: it reads back what was written for a grant, and what it reads
is UTF-8. -/
structure ReadsBack : Prop where
  line : ∀ r, (GrantTable.line r).allUtf8 = true →
    parse (String.ofList (GrantTable.line r).write) = some (GrantTable.line r)
  utf8 : ∀ text j, parse text = some j → j.allUtf8 = true

/-- The rest of a line is no value, and does not disturb what is appended to it, as blanks do. -/
structure Skipped (rest : List Char) : Prop where
  invalid : parse (String.ofList rest) = none
  line : ∀ r, (GrantTable.line r).allUtf8 = true →
    parse (String.ofList (rest ++ (GrantTable.line r).write)) = some (GrantTable.line r)

/-- The last line of the file is ended, or does no harm. -/
def Sealed (content : List Char) : Prop :=
  ∃ whole rest, content = whole ++ rest ∧ Lines.Ended '\n' whole ∧ '\n' ∉ rest ∧
    (rest = [] ∨ Skipped parse rest)

end Parser

variable {parse : String → Option Json} {trunc : FloatText → ℤ} {content : List Char}
  {r : GrantRecord} {t : GrantTable}

theorem sealed_of_ended (ended : Lines.Ended '\n' content) : Sealed parse content :=
  ⟨content, [], (List.append_nil _).symm, ended, List.not_mem_nil, .inl rfl⟩

/-- A line that is appended to a file is read as its record. -/
theorem parseFile_line (reads : ReadsBack parse) (fine : Sealed parse content)
    (loaded : parseFile parse trunc content = .ok t) (named : r.id ≠ "")
    (plain : (GrantTable.line r).allUtf8 = true) :
    parseFile parse trunc (content ++ ((GrantTable.line r).write ++ ['\n'])) =
      .ok (t.insert r.id r) := by
  obtain ⟨whole, rest, rfl, ended, noBreak, harmless⟩ := fine
  have text : '\n' ∉ rest ++ (GrantTable.line r).write := by
    simp [noBreak, Json.newline_notMem_write]
  have lines : Lines.lines '\n' (whole ++ rest ++ ((GrantTable.line r).write ++ ['\n'])) =
      Lines.lines '\n' whole ++ [rest ++ (GrantTable.line r).write] := by
    rw [List.append_assoc, Lines.lines_append ended, ← List.append_assoc,
      Lines.lines_line text [], Lines.lines]
  have nonempty : (rest ++ (GrantTable.line r).write).isEmpty = false := by
    simp [GrantTable.line_eq, Json.write]
  have parsed : read parse (rest ++ (GrantTable.line r).write) = some (GrantTable.line r) := by
    rw [read, nonempty]
    rcases harmless with rfl | skipped
    · exact reads.line r plain
    · exact skipped.line r plain
  have before : GrantTable.parseFile trunc ((Lines.lines '\n' whole).map (read parse)) = .ok t := by
    rcases harmless with rfl | skipped
    · rwa [List.append_nil] at loaded
    · by_cases none : rest = []
      · rwa [none, List.append_nil] at loaded
      · -- the rest of the file is a line of its own, with nothing in it
        have invalid : read parse rest = .none := by
          rw [read, skipped.invalid, ite_self]
        rw [parseFile, Lines.lines_append ended, Lines.lines_rest noBreak none, List.map_append,
          List.map_singleton, invalid, GrantTable.parseFile_append] at loaded
        obtain ⟨t', first, same⟩ := Except.bind_eq_ok.mp loaded
        rw [first, ← Except.ok.inj same]
  rw [parseFile, lines, List.map_append, List.map_singleton, parsed]
  exact GrantTable.parseFile_append_line before named

/-- The records of a table that was read have their keys as ids, and can be written. -/
theorem of_lookup (reads : ReadsBack parse) (loaded : parseFile parse trunc content = .ok t)
    {id : String} (found : t.lookup id = some r) :
    r.id ≠ "" ∧ Json.utf8 r.id = true ∧ Json.utf8 r.agent = true ∧ Json.utf8 r.bumpTo = true := by
  obtain ⟨-, earlier, line, later, -, ⟨named, members, here, said⟩, -⟩ :=
    (lookup_parseFile loaded id).mp found
  have ok : (Json.obj members).allUtf8 = true := by
    rw [read] at here
    split at here
    · cases here
    · exact reads.utf8 _ _ here
  exact ⟨named, Json.utf8_of_reads ok said.id, Json.utf8_of_reads ok said.agent,
    Json.utf8_of_reads ok said.bumpTo⟩

end GrantLog

/-! ## What every step keeps -/

namespace GrantJournal

variable {parse : String → Option Json} {trunc : FloatText → ℤ} {onExpire : Bool} {ttlMs : UInt64}
  {s s' : GrantJournal} {r : GrantRecord} {input : JournalInput} {file : Option LogFile}

/-- The table says what the file will say, and a line can be appended to that. -/
structure Kept (parse : String → Option Json) (trunc : FloatText → ℤ) (s : GrantJournal) :
    Prop where
  agrees : s.Agrees parse trunc
  fine : GrantLog.Sealed parse (s.content ++ s.pending)

theorem Kept.append (kept : s.Kept parse trunc) (reads : GrantLog.ReadsBack parse)
    (named : r.id ≠ "") (plain : (GrantTable.line r).allUtf8 = true) :
    (s.append r).Kept parse trunc := by
  have jobs : (s.append r).jobs = s.jobs ++ [(GrantTable.line r).write] := by
    simp [GrantJournal.append, Json.dump, plain]
  have grown : (s.append r).content ++ (s.append r).pending =
      (s.content ++ s.pending) ++ ((GrantTable.line r).write ++ ['\n']) := by
    rw [pending, jobs, List.flatMap_append, List.flatMap_singleton, ← List.append_assoc]
    rfl
  constructor
  · rw [Agrees, grown]
    exact GrantLog.parseFile_line reads kept.fine kept.agrees named plain
  · rw [grown]
    exact GrantLog.sealed_of_ended (Lines.ended_line _ _)

/-- A refresh that finds every line written does not change the table. -/
theorem Kept.refresh (kept : s.Kept parse trunc) {store : GrantStore} {reports : List GrantRecord}
    {clock : UInt64} (clean : s.store.dirty = true ∨ s.jobs = [])
    (refreshed : s.store.refreshOnWorker parse trunc onExpire s.file clock = .ok (store, reports)) :
    Kept parse trunc { s with store := store } := by
  suffices same : store.table = s.store.table from ⟨by rw [Agrees, same]; exact kept.agrees,
    kept.fine⟩
  by_cases examined : ∃ f, s.store.Examines s.file f
  · obtain ⟨f, examines⟩ := examined
    have written : s.jobs = [] := clean.resolve_left (by simp [examines.clean])
    have agrees := kept.agrees
    rw [Agrees, pending, written, content, examines.there, List.flatMap_nil,
      List.append_nil] at agrees
    rw [GrantStore.refresh_of_examines parse trunc onExpire clock examines, agrees] at refreshed
    obtain ⟨rfl, -⟩ := Prod.mk.inj (Except.ok.inj refreshed)
    rfl
  · have others := GrantStore.refresh_of_not_examines parse trunc onExpire clock
      fun f examines => examined ⟨f, examines⟩
    rcases others with stays | ⟨gone, idle, empty⟩
    · rw [stays] at refreshed
      obtain ⟨rfl, -⟩ := Prod.mk.inj (Except.ok.inj refreshed)
      rfl
    · have written : s.jobs = [] := clean.resolve_left (by simp [idle])
      have agrees := kept.agrees
      rw [Agrees, pending, written, content, gone] at agrees
      rw [empty] at refreshed
      obtain ⟨rfl, -⟩ := Prod.mk.inj (Except.ok.inj refreshed)
      exact Except.ok.inj agrees

/-- Every call and every step of a job keeps the agreement, if the texts are UTF-8 and no refresh
comes between the end of a job and the line of the next. -/
theorem Kept.step (kept : s.Kept parse trunc) (reads : GrantLog.ReadsBack parse)
    (clean : s.Clean input) (step : s.step parse trunc onExpire ttlMs input = some s') :
    s'.Kept parse trunc := by
  have drawn : ∀ hex : String, "g_" ++ hex ≠ "" := by
    intro hex empty
    have := congrArg String.toList empty
    simp at this
  have status : Json.utf8 "pending" = true ∧ Json.utf8 "approved" = true := by decide
  cases input with
  | appendPending hex agent bumpTo rank now =>
    obtain rfl := Option.some.inj step
    obtain ⟨hex', agent', bumpTo'⟩ := clean
    exact kept.append reads (drawn hex) (GrantTable.allUtf8_line_iff.mpr
      ⟨agent', bumpTo', hex', status.1⟩)
  | approveDirect hex agent rank bumpTo now =>
    obtain rfl := Option.some.inj step
    obtain ⟨hex', agent', bumpTo'⟩ := clean
    exact kept.append reads (drawn hex) (GrantTable.allUtf8_line_iff.mpr
      ⟨agent', bumpTo', hex', status.2⟩)
  | approveById id now ttlOverride clock =>
    obtain rfl := Option.some.inj step
    rw [approveById]
    split
    · exact kept
    · next store reports refreshed =>
      have kept' := kept.refresh clean refreshed
      dsimp only
      split
      · exact kept'
      · next r found =>
        obtain ⟨named, id', agent', bumpTo'⟩ := GrantLog.of_lookup reads kept'.agrees found
        exact kept'.append reads named (GrantTable.allUtf8_line_iff.mpr
          ⟨agent', bumpTo', id', status.2⟩)
  | write mtimeNs =>
    simp only [GrantJournal.step] at step
    split at step
    · cases step
    · next line jobs posted =>
      obtain rfl := Option.some.inj step
      -- a line moves from the jobs to the file
      have moved : s.content ++ s.pending =
          (s.content ++ (line ++ ['\n'])) ++ jobs.flatMap fun line => line ++ ['\n'] := by
        simp [pending, posted]
      obtain ⟨agrees, fine⟩ := kept
      rw [Agrees, moved] at agrees
      rw [moved] at fine
      exact ⟨agrees, fine⟩
  | clear =>
    simp only [GrantJournal.step] at step
    split at step
    · cases step
    · obtain rfl := Option.some.inj step
      exact ⟨kept.agrees, kept.fine⟩

/-- A store that was refreshed agrees with its file, unless the file was modified at the very time
that stands for no file. -/
theorem kept_of_init {init : GrantJournal}
    (first : (machine parse trunc onExpire ttlMs file).init init)
    (fine : ∀ f, file = some f → GrantLog.Sealed parse f.content)
    (dated : ∀ f, file = some f → f.mtimeNs = -1 →
      GrantLog.parseFile parse trunc f.content = .ok ∅) : init.Kept parse trunc := by
  obtain ⟨store, reports, clock, refreshed, rfl⟩ := first
  cases file with
  | none =>
    rw [GrantStore.refreshOnWorker, if_neg (by decide), if_pos (by decide)] at refreshed
    obtain ⟨rfl, -⟩ := Prod.mk.inj (Except.ok.inj refreshed)
    exact ⟨rfl, GrantLog.sealed_of_ended Lines.ended_nil⟩
  | some f =>
    have all : f.content ++ pending { store := store, file := some f } = f.content :=
      List.append_nil _
    suffices loaded : GrantLog.parseFile parse trunc f.content = .ok store.table from
      ⟨by rw [Agrees]; exact all ▸ loaded, by rw [content]; exact all ▸ fine f rfl⟩
    by_cases examined : GrantStore.Examines {} (some f) f
    · rw [GrantStore.refresh_of_examines parse trunc onExpire clock examined] at refreshed
      cases parsed : GrantLog.parseFile parse trunc f.content with
      | ok t =>
        rw [parsed] at refreshed
        obtain ⟨rfl, -⟩ := Prod.mk.inj (Except.ok.inj refreshed)
        rfl
      | error e =>
        rw [parsed] at refreshed
        cases refreshed
    · have odd : f.mtimeNs = -1 := by
        by_contra modified
        exact examined ⟨rfl, rfl, modified⟩
      rw [GrantStore.refreshOnWorker, if_neg (by decide), if_pos odd] at refreshed
      obtain ⟨rfl, -⟩ := Prod.mk.inj (Except.ok.inj refreshed)
      exact dated f rfl odd

end GrantJournal

open GrantJournal

/-- After every call the table says, field by field, what the file will say when the lines that were
posted are written, and so does it when they are, in every run in which no refresh comes between
the end of a job and the line of the next, if the last line of the starting file is ended. -/
theorem journal_agrees {parse : String → Option Json} {trunc : FloatText → ℤ} {onExpire : Bool}
    {ttlMs : UInt64} {file : Option LogFile}
    {h : List (TransitionSystem.Step GrantJournal JournalInput)} {s : GrantJournal}
    (reads : GrantLog.ReadsBack parse)
    (fine : ∀ f, file = some f → GrantLog.Sealed parse f.content)
    (dated : ∀ f, file = some f → f.mtimeNs = -1 →
      GrantLog.parseFile parse trunc f.content = .ok ∅)
    (run : (machine parse trunc onExpire ttlMs file).Run h s)
    (clean : ∀ t ∈ h, t.pre.Clean t.input) : s.Agrees parse trunc := by
  refine (run.invariant_where (C := fun t => t.pre.Clean t.input) (I := Kept parse trunc) ?_ ?_
    clean).agrees
  · exact fun init first => kept_of_init first fine dated
  · exact fun t step clean kept => kept.step reads clean step

/-! ## An example -/

namespace JournalExample

open LogExample

open Classical in
/-- A parser that knows the texts of all grants: no two have the same. -/
noncomputable def ofGrants (text : String) : Option Json :=
  if known : ∃ r, (GrantTable.line r).allUtf8 = true ∧
      text = String.ofList (GrantTable.line r).write then some (GrantTable.line known.choose)
  else none

theorem readsBack_ofGrants : GrantLog.ReadsBack ofGrants where
  line r plain := by
    have known : ∃ r', (GrantTable.line r').allUtf8 = true ∧
      String.ofList (GrantTable.line r).write = String.ofList (GrantTable.line r').write :=
        ⟨r, plain, rfl⟩
    have same := GrantTable.write_line_inj (String.ofList_injective known.choose_spec.2)
    rw [ofGrants, dif_pos known, ← same]
  utf8 text j read := by
    rw [ofGrants] at read
    split at read
    · next known =>
      obtain rfl := Option.some.inj read
      exact known.choose_spec.1
    · cases read

/-- What `approveDirect` makes of its arguments. -/
def direct : GrantRecord := { grant "g_2" 907 with tsMs := 7 }

def approve : JournalInput := .approveDirect "2" "bot" 1 "L2" 7

/-- The store after the call, over a file. -/
def approved (table : GrantTable) (file : Option LogFile) : GrantJournal where
  store := { table := AList.insert "g_2" direct table, lastMtimeNs := -1, dirty := true }
  file := file
  jobs := [(GrantTable.line direct).write]

/-- A grant whose line is not ended. -/
def unended : LogFile := ⟨(GrantTable.line (grant "g_1" 900)).write, 5⟩

def one : GrantTable := AList.insert "g_1" (grant "g_1" 900) ∅

/-- A parser that knows the two grants. -/
def two : String → Option Json :=
  knowing [GrantTable.line (grant "g_1" 900), GrantTable.line direct]

end JournalExample

open JournalExample LogExample

/-- A grant is approved where there is no file yet, and its line is written. -/
theorem journal_agrees_fresh : ∃ h s, (machine ofGrants integral true 900 none).Run h s ∧
    s.jobs = [] ∧ s.store.table.lookup "g_2" = some direct ∧ s.Agrees ofGrants integral := by
  have first : (machine ofGrants integral true 900 none).init
      { store := { lastMtimeNs := 0 }, file := none } := ⟨_, _, 0, rfl, rfl⟩
  have called : (machine ofGrants integral true 900 none).step
      { store := { lastMtimeNs := 0 }, file := none } approve = some (approved ∅ none) := rfl
  have written : (machine ofGrants integral true 900 none).step (approved ∅ none) (.write 8) = _ :=
    rfl
  have run := ((TransitionSystem.Run.start first).next called).next written
  refine ⟨_, _, run, rfl, rfl, journal_agrees readsBack_ofGrants (by simp) (by simp) run ?_⟩
  intro t member
  rcases List.mem_cons.mp member with rfl | member
  · trivial
  · rw [List.mem_singleton.mp member]
    exact ⟨by decide, by decide, by decide⟩

/-- The two grants in one line are no JSON. -/
theorem parseFile_glued : GrantLog.parseFile two integral
    (unended.content ++ ((GrantTable.line direct).write ++ ['\n'])) = .ok ∅ := by
  have glued : two (String.ofList (unended.content ++ (GrantTable.line direct).write)) = none := by
    decide +kernel
  have one : '\n' ∉ unended.content ++ (GrantTable.line direct).write := by
    simp [unended, Json.newline_notMem_write]
  rw [GrantLog.parseFile, ← List.append_assoc, Lines.lines_line one [], List.map_cons,
    GrantLog.read, glued, ite_self]
  rfl

/-- A grant is approved behind a line that is not ended: the table has two grants then, and the file
none. -/
theorem unended_line_lost : ∃ h s, (machine two integral true 900 (some unended)).Run h s ∧
    s.jobs = [] ∧ s.store.table.lookup "g_2" = some direct ∧
      s.store.table.lookup "g_1" = some (grant "g_1" 900) ∧
        GrantLog.parseFile two integral s.content = .ok ∅ := by
  have first : (machine two integral true 900 (some unended)).init
      { store := { table := one, lastMtimeNs := 5 }, file := some unended } := ⟨_, _, 0, rfl, rfl⟩
  have called : (machine two integral true 900 (some unended)).step
      { store := { table := one, lastMtimeNs := 5 }, file := some unended } approve =
        some (approved one (some unended)) := rfl
  have written : (machine two integral true 900 (some unended)).step
      (approved one (some unended)) (.write 8) = _ := rfl
  have run := ((TransitionSystem.Run.start first).next called).next written
  exact ⟨_, _, run, rfl, rfl, rfl, parseFile_glued⟩

end Perfacet
