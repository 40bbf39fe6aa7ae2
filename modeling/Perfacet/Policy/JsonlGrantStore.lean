import Perfacet.Lib.Transition
import Perfacet.Policy.Access

/-!
# The grant log and its snapshot

Grants are lines of a file. The gateway reads them from a table in memory that refreshes
replace by what the file says, and puts a grant into the table itself before a posted job
writes its line. The steps of appends, jobs and refreshes interleave on several threads: only
the sections under the lock are one step.

`dirty` is meant to keep refreshes off while a line is not written yet. It is one flag for any
number of jobs, so the first job that is done clears it for all.

## Main definitions

* `JsonlGrantStore`, `JsonlGrantStore.machine` — the store, the file, and the code under way
* `JsonlGrantStore.Retains` — the table holds every grant that was appended, or a newer one
* `JsonlGrantStore.swaps` — the refresh that replaces the table in a step

## Main results

* `JsonlGrantStore.lookup_parseFile` — of the lines with one id the last one counts
* `JsonlGrantStore.took_of_step` — what a step may be
-/

namespace Perfacet

/-- A record, numbered in the order in which records are made. The number is not in the source;
it says which of two records is newer. -/
structure Stamped where
  stamp : ℕ
  record : GrantRecord
  deriving DecidableEq, Repr

/-- The file: what is read from each of its lines, and when it was written last. -/
structure GrantFile where
  lines : List (Option Stamped)
  mtimeNs : ℤ
  deriving DecidableEq, Repr

/-- A posted job: it writes its line, and then clears the flag. -/
structure WriteJob where
  line : Stamped
  written : Bool
  deriving DecidableEq, Repr

/-- How far a refresh is, with what it has seen. -/
inductive Refresh
  | absent
  | statted (mtime : ℤ)
  | checked (mtime : ℤ)
  | parsed (mtime : ℤ) (lines : List (Option Stamped))
  deriving DecidableEq, Repr

/-- The lines that a refresh is about to take over; a file that is not there has none. -/
def Refresh.lines : Refresh → Option (List (Option Stamped))
  | .absent => some []
  | .parsed _ lines => some lines
  | .statted _ | .checked _ => none

/-- The store, with the file and the jobs and refreshes under way. `made` counts the records,
and `appended` lists those that `appendLine` has put into the table. -/
structure JsonlGrantStore where
  table : UnorderedMap String Stamped := ∅
  lastMtimeNs : ℤ := -1
  dirty : Bool := false
  file : Option GrantFile
  jobs : UnorderedMap ℕ WriteJob := ∅
  refreshes : UnorderedMap ℕ Refresh := ∅
  nextRefresh : ℕ := 0
  made : ℕ := 1
  appended : List Stamped := []

/-- What may happen next. -/
inductive GrantInput
  | append (r : GrantRecord)
  | write (job : ℕ) (mtime : ℤ)
  | clear (job : ℕ)
  | elsewhere (line : Option GrantRecord) (mtime : ℤ)
  | stat
  | lock (refresh : ℕ)
  | parse (refresh : ℕ)
  | abandon (refresh : ℕ)

namespace JsonlGrantStore

/-- A line is added to the file, which is made if it is not there. -/
def addLine (s : JsonlGrantStore) (line : Option Stamped) (mtime : ℤ) : JsonlGrantStore :=
  let lines := match s.file with
    | some f => f.lines
    | none => []
  { s with file := some { lines := lines ++ [line], mtimeNs := mtime } }

/-- `parseFile`: of several lines with one id the last one counts. -/
def parseFile (lines : List (Option Stamped)) : UnorderedMap String Stamped :=
  lines.foldl
    (fun t line => match line with
      | some l => t.insert l.record.id l
      | none => t)
    ∅

/-- The locked section of `appendLine`, which also posts the job. -/
def appendLine (s : JsonlGrantStore) (r : GrantRecord) : JsonlGrantStore :=
  let line : Stamped := { stamp := s.made, record := r }
  { s with
    table := s.table.insert r.id line
    -- the next refresh is to read the file
    lastMtimeNs := -1
    dirty := true
    jobs := s.jobs.insert s.made { line := line, written := false }
    made := s.made + 1
    appended := line :: s.appended }

/-- A refresh goes on to its next step. -/
def goOn (s : JsonlGrantStore) (k : ℕ) (r : Refresh) : JsonlGrantStore :=
  { s with refreshes := s.refreshes.insert k r }

/-- A refresh is over. -/
def done (s : JsonlGrantStore) (k : ℕ) : JsonlGrantStore :=
  { s with refreshes := s.refreshes.erase k }

/-- A locked section of `refreshOnWorker`: that for a file that is not there, the check before
the file is read, or the swap. -/
def lock (s : JsonlGrantStore) (k : ℕ) : Refresh → Option JsonlGrantStore
  | .absent =>
    if s.dirty then some (s.done k)
    else if s.lastMtimeNs ≠ 0 then some { s.done k with lastMtimeNs := 0, table := ∅ }
    else some (s.done k)
  | .statted mtime =>
    if s.dirty then some (s.done k)
    else if mtime = s.lastMtimeNs then some (s.done k)
    else some (s.goOn k (.checked mtime))
  | .checked _ => none
  | .parsed mtime lines =>
    -- the file may have been read before the record was appended
    if s.dirty then some (s.done k)
    else some { s.done k with lastMtimeNs := mtime, table := parseFile lines }

/-- One step. Every record that is appended has an id. -/
def step (s : JsonlGrantStore) : GrantInput → Option JsonlGrantStore
  | .append r => if r.id = "" then none else some (s.appendLine r)
  | .write job mtime =>
    -- the line reaches the file, and the flag is still set
    match s.jobs.lookup job with
    | some { line, written := false } =>
      some { s.addLine (some line) mtime with
        jobs := s.jobs.insert job { line := line, written := true } }
    | _ => none
  | .clear job =>
    -- the flag is cleared even if other jobs have not written yet
    match s.jobs.lookup job with
    | some { line := _, written := true } =>
      some { s with dirty := false, jobs := s.jobs.erase job }
    | _ => none
  | .elsewhere line mtime =>
    -- somebody else writes into the file
    some { s.addLine (line.map fun r => { stamp := s.made, record := r }) mtime with
      made := s.made + 1 }
  | .stat =>
    -- the time is read before the lock is taken
    let r : Refresh := match s.file with
      | some f => .statted f.mtimeNs
      | none => .absent
    some { s.goOn s.nextRefresh r with nextRefresh := s.nextRefresh + 1 }
  | .lock k =>
    match s.refreshes.lookup k with
    | some r => s.lock k r
    | none => none
  | .parse k =>
    -- the file is read between the two locked sections
    match s.refreshes.lookup k, s.file with
    | some (.checked mtime), some f => some (s.goOn k (.parsed mtime f.lines))
    | _, _ => none
  | .abandon k => if (s.refreshes.lookup k).isSome then some (s.done k) else none

/-- The store over a file that is there already, or not. -/
def initial (file : Option (List (Option GrantRecord) × ℤ)) : JsonlGrantStore where
  file := file.map fun f =>
    { lines := f.1.map (·.map fun r => { stamp := 0, record := r }), mtimeNs := f.2 }

def machine : TransitionSystem JsonlGrantStore GrantInput where
  init s := ∃ file, s = initial file
  step := step

/-! ## What the table holds -/

/-- `l` is `a`, or a newer record with the same id. -/
def Renews (l a : Stamped) : Prop := l.record.id = a.record.id ∧ (l = a ∨ a.stamp < l.stamp)

instance (l a : Stamped) : Decidable (Renews l a) := by unfold Renews; infer_instance

/-- The table holds every record that was appended, or a newer one with its id. -/
def Retains (s : JsonlGrantStore) : Prop :=
  ∀ a ∈ s.appended, ∃ l, s.table.lookup a.record.id = some l ∧ Renews l a

instance (s : JsonlGrantStore) : Decidable s.Retains :=
  decidable_of_iff
    (∀ a ∈ s.appended, (s.table.lookup a.record.id).any (fun l => decide (Renews l a)) = true)
    (by simp only [Retains, Option.any_eq_true, decide_eq_true_eq])

def read (s : JsonlGrantStore) (k : ℕ) : Option (List (Option Stamped)) :=
  (s.refreshes.lookup k).bind Refresh.lines

/-- The refresh that replaces the table in this step, if one does: it has read the file, or has
seen that there is none, and the flag is clear. -/
def swaps (s : JsonlGrantStore) : GrantInput → Option ℕ
  | .lock k =>
    match s.refreshes.lookup k with
    | some .absent => if s.dirty ∨ s.lastMtimeNs = 0 then none else some k
    | some (.parsed _ _) => if s.dirty then none else some k
    | _ => none
  | _ => none

/-- The last of some lines with an id. -/
def newest (lines : List (Option Stamped)) (id : String) : Option Stamped :=
  (lines.reverse.filterMap fun line => line).find? fun l => decide (l.record.id = id)

variable {s s' : JsonlGrantStore} {input : GrantInput} {lines : List (Option Stamped)} {k : ℕ}

theorem newest_concat_some (lines : List (Option Stamped)) (l : Stamped) (id : String) :
    newest (lines ++ [some l]) id = if l.record.id = id then some l else newest lines id := by
  unfold newest
  by_cases same : l.record.id = id <;> simp [same]

theorem newest_concat_none (lines : List (Option Stamped)) (id : String) :
    newest (lines ++ [none]) id = newest lines id := by
  simp [newest]

theorem mem_of_newest {id : String} {l : Stamped} (found : newest lines id = some l) :
    some l ∈ lines ∧ l.record.id = id := by
  have named := List.find?_some found
  obtain ⟨line, member, rfl⟩ := List.mem_filterMap.mp (List.mem_of_find?_eq_some found)
  exact ⟨List.mem_reverse.mp member, of_decide_eq_true named⟩

/-- The table of a file has the last line with each id. -/
theorem lookup_parseFile (lines : List (Option Stamped)) (id : String) :
    (parseFile lines).lookup id = newest lines id := by
  induction lines using List.reverseRecOn with
  | nil => simp [parseFile, newest, AList.lookup_empty]
  | append_singleton lines line ih =>
    rw [parseFile, List.foldl_append]
    cases line with
    | none => rw [newest_concat_none, ← ih, parseFile, List.foldl_cons, List.foldl_nil]
    | some l =>
      rw [newest_concat_some, ← ih, parseFile, List.foldl_cons, List.foldl_nil,
        UnorderedMap.lookup_insert]
      simp only [eq_comm]

theorem read_goOn (s : JsonlGrantStore) (k k' : ℕ) (r : Refresh) :
    (s.goOn k r).read k' = if k' = k then r.lines else s.read k' := by
  simp only [read, goOn, UnorderedMap.lookup_insert]
  split <;> rfl

theorem read_done (s : JsonlGrantStore) (k k' : ℕ) :
    (s.done k).read k' = if k' = k then none else s.read k' := by
  simp only [read, done, UnorderedMap.lookup_erase]
  split <;> rfl

/-- What a step may be. -/
inductive Took (s : JsonlGrantStore) : GrantInput → JsonlGrantStore → Prop
  | append (r : GrantRecord) : Took s (.append r) (s.appendLine r)
  | write (job : ℕ) (mtime : ℤ) (line : Stamped) :
      s.jobs.lookup job = some { line := line, written := false } →
      Took s (.write job mtime) { s.addLine (some line) mtime with
        jobs := s.jobs.insert job { line := line, written := true } }
  | clear (job : ℕ) (line : Stamped) :
      s.jobs.lookup job = some { line := line, written := true } →
      Took s (.clear job) { s with dirty := false, jobs := s.jobs.erase job }
  | elsewhere (line : Option GrantRecord) (mtime : ℤ) :
      Took s (.elsewhere line mtime)
        { s.addLine (line.map fun r => { stamp := s.made, record := r }) mtime with
          made := s.made + 1 }
  | absent : s.file = none →
      Took s .stat { s.goOn s.nextRefresh .absent with nextRefresh := s.nextRefresh + 1 }
  | statted (f : GrantFile) : s.file = some f →
      Took s .stat
        { s.goOn s.nextRefresh (.statted f.mtimeNs) with nextRefresh := s.nextRefresh + 1 }
  | swapped (k : ℕ) (mtime : ℤ) (lines : List (Option Stamped)) :
      s.swaps (.lock k) = some k → s.read k = some lines →
      Took s (.lock k) { s.done k with lastMtimeNs := mtime, table := parseFile lines }
  | ended (k : ℕ) : s.swaps (.lock k) = none → Took s (.lock k) (s.done k)
  | checked (k : ℕ) (mtime : ℤ) : s.swaps (.lock k) = none →
      Took s (.lock k) (s.goOn k (.checked mtime))
  | parsed (k : ℕ) (mtime : ℤ) (f : GrantFile) : s.file = some f →
      Took s (.parse k) (s.goOn k (.parsed mtime f.lines))
  | abandoned (k : ℕ) : Took s (.abandon k) (s.done k)

/-- A locked section of a refresh. -/
theorem took_of_lock {r : Refresh} (found : s.refreshes.lookup k = some r)
    (locked : s.lock k r = some s') : s.Took (.lock k) s' := by
  cases r with
  | absent =>
    simp only [lock] at locked
    split_ifs at locked with dirty known
    · cases locked
      exact .ended k (by simp only [swaps, found, dirty, true_or, if_true])
    · cases locked
      refine .swapped k 0 [] ?_ (by rw [read, found]; rfl)
      simp [swaps, found, dirty, known]
    · cases locked
      exact .ended k (by simp only [swaps, found, not_not.mp known, or_true, if_true])
  | statted mtime =>
    have kept : s.swaps (.lock k) = none := by simp only [swaps, found]
    simp only [lock] at locked
    split_ifs at locked
    · cases locked
      exact .ended k kept
    · cases locked
      exact .ended k kept
    · cases locked
      exact .checked k mtime kept
  | checked mtime => cases locked
  | parsed mtime lines =>
    simp only [lock] at locked
    split_ifs at locked with dirty
    · cases locked
      exact .ended k (by simp only [swaps, found, dirty, if_true])
    · cases locked
      refine .swapped k mtime lines ?_ (by rw [read, found]; rfl)
      simp [swaps, found, dirty]

theorem took_of_step (step : s.step input = some s') : s.Took input s' := by
  cases input with
  | append r =>
    simp only [JsonlGrantStore.step] at step
    split at step
    · cases step
    · cases step
      exact .append r
  | write job mtime =>
    simp only [JsonlGrantStore.step] at step
    split at step
    · next line found =>
      cases step
      exact .write job mtime line found
    · cases step
  | clear job =>
    simp only [JsonlGrantStore.step] at step
    split at step
    · next line found =>
      cases step
      exact .clear job line found
    · cases step
  | elsewhere line mtime =>
    cases step
    exact .elsewhere line mtime
  | stat =>
    simp only [JsonlGrantStore.step] at step
    cases file : s.file with
    | none =>
      rw [file] at step
      cases step
      exact .absent file
    | some f =>
      rw [file] at step
      cases step
      exact .statted f file
  | lock k =>
    simp only [JsonlGrantStore.step] at step
    split at step
    · next found => exact took_of_lock found step
    · cases step
  | parse k =>
    simp only [JsonlGrantStore.step] at step
    split at step
    · next mtime f _ file =>
      cases step
      exact .parsed k mtime f file
    · cases step
  | abandon k =>
    simp only [JsonlGrantStore.step] at step
    split at step
    · cases step
      exact .abandoned k
    · cases step

end JsonlGrantStore

namespace GrantExample

def grant (id agent : String) : GrantRecord where
  id := id
  agent := agent
  bumpTo := "L2"
  rank := 2
  status := "approved"
  expiresAt := 60000
  tsMs := 0

/-- A grant, its job, and a refresh that reads the file afterwards. -/
def quiet : List GrantInput :=
  [.append (grant "g_1" "alice"), .write 1 10, .clear 1, .stat, .lock 0, .parse 0, .lock 0]

/-- The job of the first of two grants clears the flag while that of the second still waits. -/
def hasty : List GrantInput :=
  [.append (grant "g_1" "alice"), .append (grant "g_2" "bob"), .write 1 10, .clear 1,
    .stat, .lock 0, .parse 0, .lock 0]

end GrantExample

end Perfacet
