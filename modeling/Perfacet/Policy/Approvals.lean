import Perfacet.Policy.JsonlGrantStore

/-!
# Approvals from elsewhere

The command line approves a grant in a process of its own: it appends a line to the log. The gateway
finds out when it refreshes its table, which it does only if the file was modified since: a refresh
compares the time of the file, not what is in it, and it reads the file some time after it has read
the time.

Nothing is missed as long as no write gets the time of a version that has been read before. A clock
that stands still between two writes, or is set back, may hide the second one.

## Main definitions

* `JsonlGrantStore.refreshOnWorker` — a refresh that nothing comes in between
* `JsonlGrantStore.Tells` — a write that can be told from what has been read

## Main results

* `JsonlGrantStore.caught_up_of_run` — a refresh takes over all that is in the file
-/

namespace Perfacet

namespace JsonlGrantStore

/-- The steps of a refresh one after the other. -/
def refreshOnWorker (s : JsonlGrantStore) : Option JsonlGrantStore := do
  let k := s.nextRefresh
  let s ← s.step .stat
  let s ← s.step (.lock k)
  if (s.refreshes.lookup k).isNone then some s
  else
    let s ← s.step (.parse k)
    s.step (.lock k)

/-- What is written gets another time than the version that the table is from, and than those that
refreshes have read and are about to take over. -/
def Tells (s : JsonlGrantStore) : GrantInput → Prop
  | .write _ mtime | .elsewhere _ mtime =>
    mtime ≠ s.lastMtimeNs ∧ ∀ k lines, s.refreshes.lookup k ≠ some (.parsed mtime lines)
  | .append _ | .clear _ | .stat | .lock _ | .parse _ | .abandon _ => True

variable {s s' : JsonlGrantStore} {i : GrantInput} {f : GrantFile} {k : ℕ} {r : Refresh}
  {h : List (TransitionSystem.Step JsonlGrantStore GrantInput)}

/-- What has the time of the file says what the file says; `0` and `-1` are no times, they stand for
tables that are not from the file. -/
structure Told (s : JsonlGrantStore) : Prop where
  table : ∀ f, s.file = some f → 0 < f.mtimeNs → f.mtimeNs = s.lastMtimeNs →
    s.table = parseFile f.lines
  parsed : ∀ f k lines, s.file = some f → s.refreshes.lookup k = some (.parsed f.mtimeNs lines) →
    lines = f.lines

/-! ## One step -/

/-- A refresh goes on without having read the file. -/
theorem Told.goOn (told : s.Told) (unread : ∀ mtime lines, r ≠ .parsed mtime lines) :
    (s.goOn k r).Told where
  table := told.table
  parsed f k' lines file found := by
    change (s.refreshes.insert k r).lookup k' = _ at found
    rw [UnorderedMap.lookup_insert] at found
    split at found
    · exact absurd (Option.some.inj found) (unread _ _)
    · exact told.parsed f k' lines file found

theorem Told.done (told : s.Told) (k : ℕ) : (s.done k).Told where
  table := told.table
  parsed f k' lines file found := by
    change (s.refreshes.erase k).lookup k' = _ at found
    rw [UnorderedMap.lookup_erase] at found
    split at found
    · cases found
    · exact told.parsed f k' lines file found

/-- A line is written, and the file has a time that nothing else has. -/
theorem told_addLine (line : Option Stamped) {mtime : ℤ} (new : mtime ≠ s.lastMtimeNs)
    (unread : ∀ k lines, s.refreshes.lookup k ≠ some (.parsed mtime lines)) :
    (s.addLine line mtime).Told where
  table f file _ same := by
    obtain rfl := Option.some.inj file
    exact absurd same new
  parsed f k lines file found := by
    obtain rfl := Option.some.inj file
    exact absurd found (unread k lines)

/-- A refresh swaps the table for what it has read. -/
theorem Told.lock (told : s.Told) (found : s.refreshes.lookup k = some r)
    (locked : s.lock k r = some s') : s'.Told := by
  have ended := told.done k
  cases r with
  | absent =>
    simp only [JsonlGrantStore.lock] at locked
    split_ifs at locked
    · obtain rfl := Option.some.inj locked
      exact ended
    · obtain rfl := Option.some.inj locked
      refine ⟨fun f file real same => ?_, ended.parsed⟩
      exact absurd same (ne_of_gt real)
    · obtain rfl := Option.some.inj locked
      exact ended
  | statted mtime =>
    simp only [JsonlGrantStore.lock] at locked
    split_ifs at locked
    · obtain rfl := Option.some.inj locked
      exact ended
    · obtain rfl := Option.some.inj locked
      exact ended
    · obtain rfl := Option.some.inj locked
      exact told.goOn fun _ _ read => by cases read
  | checked mtime => cases locked
  | parsed mtime lines =>
    simp only [JsonlGrantStore.lock] at locked
    split_ifs at locked
    · obtain rfl := Option.some.inj locked
      exact ended
    · obtain rfl := Option.some.inj locked
      refine ⟨fun f file _ same => ?_, ended.parsed⟩
      -- what was read with the time of the file is what is in the file
      change f.mtimeNs = mtime at same
      subst same
      rw [told.parsed f k lines file found]

theorem Told.step (told : s.Told) (taken : s.step i = some s') (tells : s.Tells i) : s'.Told := by
  cases i with
  | append r =>
    obtain ⟨-, same⟩ := Option.ite_none_left_eq_some.mp taken
    obtain rfl := Option.some.inj same
    refine ⟨fun f _ real same => ?_, told.parsed⟩
    -- an append is no reason not to read the file again
    change f.mtimeNs = -1 at same
    omega
  | write job mtime =>
    simp only [JsonlGrantStore.step] at taken
    split at taken
    · next line _ =>
      obtain rfl := Option.some.inj taken
      have written := told_addLine (some line) tells.1 tells.2
      exact ⟨written.table, written.parsed⟩
    · cases taken
  | clear job =>
    simp only [JsonlGrantStore.step] at taken
    split at taken
    · obtain rfl := Option.some.inj taken
      exact ⟨told.table, told.parsed⟩
    · cases taken
  | elsewhere line mtime =>
    obtain rfl := Option.some.inj taken
    have written := told_addLine (line.map fun r => { stamp := s.made, record := r })
      tells.1 tells.2
    exact ⟨written.table, written.parsed⟩
  | stat =>
    simp only [JsonlGrantStore.step] at taken
    cases file : s.file with
    | none =>
      rw [file] at taken
      obtain rfl := Option.some.inj taken
      have statted := told.goOn (k := s.nextRefresh) (r := .absent) fun _ _ read => by cases read
      exact ⟨statted.table, statted.parsed⟩
    | some f =>
      rw [file] at taken
      obtain rfl := Option.some.inj taken
      have statted := told.goOn (k := s.nextRefresh) (r := .statted f.mtimeNs) fun _ _ read => by
        cases read
      exact ⟨statted.table, statted.parsed⟩
  | lock k =>
    simp only [JsonlGrantStore.step] at taken
    split at taken
    · next found => exact told.lock found taken
    · cases taken
  | parse k =>
    simp only [JsonlGrantStore.step] at taken
    split at taken
    · next mtime f found file =>
      obtain rfl := Option.some.inj taken
      refine ⟨told.table, fun f' k' lines file' read => ?_⟩
      obtain rfl := Option.some.inj (file.symm.trans file')
      change (s.refreshes.insert k _).lookup k' = _ at read
      rw [UnorderedMap.lookup_insert] at read
      split at read
      · cases Option.some.inj read
        rfl
      · exact told.parsed f k' lines file read
    · cases taken
  | abandon k =>
    obtain ⟨-, same⟩ := Option.ite_none_right_eq_some.mp taken
    obtain rfl := Option.some.inj same
    exact told.done k

theorem step_lock (found : s.refreshes.lookup k = some r) : s.step (.lock k) = s.lock k r := by
  simp only [JsonlGrantStore.step, found]

theorem lookup_goOn (s : JsonlGrantStore) (k : ℕ) (r : Refresh) :
    (s.goOn k r).refreshes.lookup k = some r := by
  rw [JsonlGrantStore.goOn, UnorderedMap.lookup_insert, if_pos rfl]

theorem lookup_done (s : JsonlGrantStore) (k : ℕ) : (s.done k).refreshes.lookup k = none := by
  rw [JsonlGrantStore.done, UnorderedMap.lookup_erase, if_pos rfl]

theorem lock_statted (clean : s.dirty = false) (mtime : ℤ) : s.lock k (.statted mtime) =
    some (if mtime = s.lastMtimeNs then s.done k else s.goOn k (.checked mtime)) := by
  rw [JsonlGrantStore.lock, clean, if_neg Bool.false_ne_true]
  split <;> rfl

theorem lock_parsed (clean : s.dirty = false) (mtime : ℤ) (lines : List (Option Stamped)) :
    s.lock k (.parsed mtime lines) =
      some { s.done k with lastMtimeNs := mtime, table := parseFile lines } := by
  rw [JsonlGrantStore.lock, clean, if_neg Bool.false_ne_true]

theorem refresh_eq {s₁ s₂ : JsonlGrantStore} (first : s.step .stat = some s₁)
    (second : s₁.step (.lock s.nextRefresh) = some s₂) : s.refreshOnWorker =
      if (s₂.refreshes.lookup s.nextRefresh).isNone then some s₂
      else (s₂.step (.parse s.nextRefresh)).bind fun s₃ => s₃.step (.lock s.nextRefresh) := by
  simp only [JsonlGrantStore.refreshOnWorker, first, second, Option.bind_eq_bind, Option.bind_some]

/-- A refresh that nothing comes in between, while no line is known to be under way: the table is
that of the file. -/
theorem Told.refreshOnWorker (told : s.Told) (file : s.file = some f) (real : 0 < f.mtimeNs)
    (clean : s.dirty = false) :
    ∃ s', s.refreshOnWorker = some s' ∧ s'.table = parseFile f.lines := by
  let k := s.nextRefresh
  let s₁ : JsonlGrantStore := { s.goOn k (.statted f.mtimeNs) with nextRefresh := k + 1 }
  have first : s.step .stat = some s₁ := by
    simp only [JsonlGrantStore.step, file]
    rfl
  have statted : s₁.refreshes.lookup k = some (.statted f.mtimeNs) := lookup_goOn s k _
  have second := (step_lock statted).trans (lock_statted (s := s₁) clean f.mtimeNs)
  by_cases same : f.mtimeNs = s.lastMtimeNs
  · -- the refresh ends with the check of the time
    rw [if_pos (by exact same)] at second
    refine ⟨s₁.done k, ?_, told.table f file real same⟩
    rw [refresh_eq first second, lookup_done]
    rfl
  · rw [if_neg (by exact same)] at second
    let s₂ := s₁.goOn k (.checked f.mtimeNs)
    let s₃ := s₂.goOn k (.parsed f.mtimeNs f.lines)
    have checked : s₂.refreshes.lookup k = some (.checked f.mtimeNs) := lookup_goOn s₁ k _
    have third : s₂.step (.parse k) = some s₃ := by
      have there : s₂.file = some f := file
      simp only [JsonlGrantStore.step, checked, there]
      rfl
    have parsed : s₃.refreshes.lookup k = some (.parsed f.mtimeNs f.lines) := lookup_goOn s₂ k _
    have fourth := (step_lock parsed).trans (lock_parsed (s := s₃) clean f.mtimeNs f.lines)
    refine ⟨{ s₃.done k with lastMtimeNs := f.mtimeNs, table := parseFile f.lines }, ?_, rfl⟩
    rw [refresh_eq first second, checked, third]
    exact fourth

/-- In every run in which the writes can be told from what has been read, a refresh that the flag
does not keep off finds all that is in the file, whoever has written it. -/
theorem caught_up_of_run (run : machine.Run h s) (tells : ∀ t ∈ h, t.pre.Tells t.input)
    (file : s.file = some f) (real : 0 < f.mtimeNs) (clean : s.dirty = false) :
    ∃ s', s.refreshOnWorker = some s' ∧ ∀ id, s'.table.lookup id = newest f.lines id := by
  have told : s.Told := by
    refine run.invariant_where (C := fun t => t.pre.Tells t.input) ?_
      (fun _ taken tells told => told.step taken tells) tells
    rintro _ ⟨file, rfl⟩
    refine ⟨fun f _ real same => ?_, fun f k lines _ found => ?_⟩
    · change f.mtimeNs = -1 at same
      omega
    · cases found
  obtain ⟨s', refreshed, table⟩ := told.refreshOnWorker file real clean
  exact ⟨s', refreshed, fun id => by rw [table, lookup_parseFile]⟩

/-- Whether a write can be told from what has been read. -/
def tells (s : JsonlGrantStore) : GrantInput → Bool
  | .write _ mtime | .elsewhere _ mtime =>
    mtime ≠ s.lastMtimeNs && s.refreshes.entries.all fun e => match e.2 with
      | .parsed mtime' _ => mtime' ≠ mtime
      | .absent | .statted _ | .checked _ => true
  | .append _ | .clear _ | .stat | .lock _ | .parse _ | .abandon _ => true

theorem tells_of_checked (checked : s.tells i = true) : s.Tells i := by
  have unread {mtime : ℤ} (all : s.refreshes.entries.all (fun e => match e.2 with
      | .parsed mtime' _ => mtime' ≠ mtime
      | .absent | .statted _ | .checked _ => true) = true) (k : ℕ) (lines : List (Option Stamped)) :
      s.refreshes.lookup k ≠ some (.parsed mtime lines) := by
    intro found
    have other := List.all_eq_true.mp all _ (UnorderedMap.mem_entries_iff.mpr found)
    simp at other
  cases i with
  | write job mtime =>
    obtain ⟨new, all⟩ := Bool.and_eq_true _ _ |>.mp checked
    exact ⟨of_decide_eq_true new, unread all⟩
  | elsewhere line mtime =>
    obtain ⟨new, all⟩ := Bool.and_eq_true _ _ |>.mp checked
    exact ⟨of_decide_eq_true new, unread all⟩
  | _ => trivial

open GrantExample in
/-- A grant is approved elsewhere while a refresh is about to take over what it has read. -/
theorem caught_up_of_run_late : ∃ s s' : JsonlGrantStore, s.table.lookup "g_2" = none ∧
    s.refreshOnWorker = some s' ∧ (s'.table.lookup "g_2").isSome = true := by
  obtain ⟨h, s, run, checked, reached⟩ := TransitionSystem.exists_run (M := machine)
    [.elsewhere (some (grant "g_1" "alice")) 10, .stat, .lock 0, .parse 0,
      .elsewhere (some (grant "g_2" "bob")) 20, .lock 0]
    tells
    (fun s => s.dirty = false && s.table.lookup "g_2" = none && s.file =
      some ⟨[some ⟨1, grant "g_1" "alice"⟩, some ⟨2, grant "g_2" "bob"⟩], 20⟩)
    ⟨none, rfl⟩ (by decide +kernel)
  simp only [Bool.and_eq_true, decide_eq_true_eq] at reached
  obtain ⟨⟨clean, missing⟩, file⟩ := reached
  obtain ⟨s', refreshed, table⟩ :=
    caught_up_of_run run (fun t member => tells_of_checked (checked t member)) file (by decide)
      clean
  refine ⟨s, s', missing, refreshed, ?_⟩
  rw [table]
  decide +kernel

end JsonlGrantStore

end Perfacet
