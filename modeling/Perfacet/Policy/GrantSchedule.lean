import Perfacet.Policy.JsonlGrantStore

/-!
# When a refresh discards a grant

A refresh takes over what it has read from the file, some time after it has read it. Whether a
grant is lost depends on the order of the steps alone: of the appends, of the jobs that write their
lines, and of the readings and swaps of the refreshes.

Two things may go wrong. A grant is appended between the reading and the swap, and its job has
cleared the flag by then. Or the file was read when the last that had happened to an id was not the
write of its last append: that write is still to come, or it was overtaken by one of an earlier job.

## Main definitions

* `JsonlGrantStore.settled` — the line of the last append of an id was the last to be written
* `JsonlGrantStore.safelyRead` — how the file is to be read, and that no append comes after it
* `JsonlGrantStore.undisturbed` — every refresh that replaces the table has read safely

## Main results

* `grants_retained_iff` — no table lacks a grant if and only if the refreshes are undisturbed
* `JsonlGrantStore.settled_of_inOrder` — all is settled while no line waits, if the jobs of an id
  write in the order of its appends
-/

namespace Perfacet

/-- A step of a run of the store. -/
abbrev GrantStep := TransitionSystem.Step JsonlGrantStore GrantInput

namespace JsonlGrantStore

/-! ## Schedules -/

/-- The line of the last append of an id. -/
def latest (s : JsonlGrantStore) (id : String) : Option Stamped :=
  s.appended.find? fun a => a.record.id = id

/-- The last that has happened to an id, newest step first, is that the job of its last append
wrote its line, or that somebody else wrote one, unless nothing has happened to it at all. -/
def settled (id : String) : List GrantStep → Bool
  | [] => true
  | t :: h =>
    match t.input with
    | .append r => r.id ≠ id && settled id h
    | .write job _ =>
      match t.pre.jobs.lookup job with
      | some j => if j.line.record.id = id then t.pre.latest id = some j.line else settled id h
      | none => settled id h
    | .elsewhere (some r) _ => r.id = id || settled id h
    | _ => settled id h

/-- The refresh reads the file in this step, or sees that there is none. -/
def reads (k : ℕ) (t : GrantStep) : Bool :=
  match t.input with
  | .parse k' => k' = k
  | .stat => t.pre.file.isNone && t.pre.nextRefresh = k
  | _ => false

/-- The step appends a grant. -/
def appends (t : GrantStep) : Bool :=
  match t.input with
  | .append _ => true
  | _ => false

/-- When the refresh read, newest step first, every id that had been appended was settled, and no
grant was appended since. -/
def safelyRead (k : ℕ) : List GrantStep → Bool
  | [] => false
  | t :: h =>
    if reads k t then t.pre.appended.all fun a => settled a.record.id h
    else !appends t && safelyRead k h

/-- Every refresh that replaced the table had read safely. -/
def undisturbed : List GrantStep → Bool
  | [] => true
  | t :: h => ((t.pre.swaps t.input).all fun k => safelyRead k h) && undisturbed h

/-! ## What lines hold -/

/-- The last line with the id of a record is that of the record, or of a newer one. -/
def Holds (lines : List (Option Stamped)) (a : Stamped) : Prop :=
  ∃ l, newest lines a.record.id = some l ∧ Renews l a

/-- The lines of the file. -/
def content (s : JsonlGrantStore) : List (Option Stamped) :=
  match s.file with
  | some f => f.lines
  | none => []

variable {s s' : JsonlGrantStore} {lines : List (Option Stamped)} {input : GrantInput} {k : ℕ}
  {h : List GrantStep} {a l : Stamped} {id : String}

theorem content_of_file {f : GrantFile} (file : s.file = some f) : s.content = f.lines := by
  rw [content, file]

theorem content_of_none (file : s.file = none) : s.content = [] := by
  rw [content, file]

/-- A table that is read from lines retains what the lines hold. -/
theorem retains_iff (table : s'.table = parseFile lines) (appended : s'.appended = s.appended) :
    s'.Retains ↔ ∀ a ∈ s.appended, Holds lines a := by
  simp only [Retains, Holds, appended, table, lookup_parseFile]

/-- Lines that are all older than a record do not hold it. -/
theorem not_holds_of_older (older : ∀ l, some l ∈ lines → l.stamp < a.stamp) : ¬ Holds lines a := by
  rintro ⟨l, found, -, rfl | newer⟩
  · exact (older l (mem_of_newest found).1).false
  · exact (older l (mem_of_newest found).1).asymm newer

theorem holds_concat_of_ne (lines : List (Option Stamped)) (other : l.record.id ≠ a.record.id) :
    Holds (lines ++ [some l]) a ↔ Holds lines a := by
  simp only [Holds, newest_concat_some, if_neg other]

theorem holds_concat_of_eq (lines : List (Option Stamped)) (same : l.record.id = a.record.id) :
    Holds (lines ++ [some l]) a ↔ Renews l a := by
  simp only [Holds, newest_concat_some, if_pos same, Option.some.injEq, exists_eq_left']

theorem holds_concat_none (lines : List (Option Stamped)) :
    Holds (lines ++ [none]) a ↔ Holds lines a := by
  simp only [Holds, newest_concat_none]

/-! ## The numbers of records -/

/-- Records that are made later have larger numbers. -/
structure Numbered (s : JsonlGrantStore) : Prop where
  given : ∀ a ∈ s.appended, a.stamp < s.made
  descending : s.appended.Pairwise fun a b => b.stamp < a.stamp
  posted : ∀ job j, s.jobs.lookup job = some j → j.line ∈ s.appended ∧ j.line.stamp = job
  older : ∀ l, some l ∈ s.content → l.stamp < s.made
  readOlder : ∀ k lines, s.read k = some lines → ∀ l, some l ∈ lines → l.stamp < s.made

/-- The last append of an id renews the earlier ones. -/
theorem Numbered.renews_of_latest (numbered : s.Numbered) (last : s.latest id = some l)
    (member : a ∈ s.appended) (same : a.record.id = id) : Renews l a := by
  obtain ⟨named, later, earlier, split, others⟩ := List.find?_eq_some_iff_append.mp last
  refine ⟨(of_decide_eq_true named).trans same.symm, ?_⟩
  have descending := numbered.descending
  rw [split] at member descending
  rcases List.mem_append.mp member with found | found
  · have absent := others a found
    simp [same] at absent
  · rcases List.mem_cons.mp found with rfl | old
    · exact .inl rfl
    · exact .inr ((List.pairwise_cons.mp (List.pairwise_append.mp descending).2.1).1 a old)

/-- A line is that of the last append of its id if and only if it renews all of them. -/
theorem Numbered.latest_eq_iff (numbered : s.Numbered) (member : l ∈ s.appended) :
    s.latest l.record.id = some l ↔
      ∀ a ∈ s.appended, a.record.id = l.record.id → Renews l a := by
  constructor
  · intro last a found same
    exact numbered.renews_of_latest last found same
  · intro renews
    cases last : s.latest l.record.id with
    | none => exact absurd (decide_eq_true rfl) (List.find?_eq_none.mp last l member)
    | some b =>
      have named := List.find?_some (p := fun a : Stamped => a.record.id = l.record.id) last
      rcases (renews b (List.mem_of_find?_eq_some last) (of_decide_eq_true named)).2 with
        rfl | newer
      · rfl
      · rcases (numbered.renews_of_latest last member rfl).2 with rfl | older
        · rfl
        · exact absurd newer older.asymm

theorem numbered_initial (first : machine.init s) : s.Numbered := by
  obtain ⟨file, rfl⟩ := first
  refine ⟨fun a member => (List.not_mem_nil member).elim, .nil, fun job j found => ?_,
    fun l member => ?_, fun k lines found => ?_⟩
  · cases found
  · cases file with
    | none => exact (List.not_mem_nil member).elim
    | some f =>
      -- what is in the file at the start has the number zero
      obtain ⟨line, -, same⟩ := List.mem_map.mp member
      obtain ⟨r, -, rfl⟩ := Option.map_eq_some_iff.mp same
      exact Nat.zero_lt_one
  · cases found

/-- A refresh that has read nothing goes on, or is over. -/
theorem Numbered.of_read (numbered : s.Numbered) (appended : s'.appended = s.appended)
    (made : s'.made = s.made) (jobs : s'.jobs = s.jobs) (file : s'.file = s.file)
    (reads : ∀ k lines, s'.read k = some lines → s.read k = some lines ∨ lines = s.content) :
    s'.Numbered where
  given := by rw [appended, made]; exact numbered.given
  descending := by rw [appended]; exact numbered.descending
  posted := by rw [appended, jobs]; exact numbered.posted
  older := by rw [content, file, made]; exact numbered.older
  readOlder k lines found := by
    rw [made]
    rcases reads k lines found with known | rfl
    · exact numbered.readOlder k lines known
    · exact numbered.older

theorem read_of_goOn {r : Refresh} (read : ∀ lines, r.lines = some lines → lines = s.content)
    (k k' : ℕ) (lines : List (Option Stamped)) (found : (s.goOn k r).read k' = some lines) :
    s.read k' = some lines ∨ lines = s.content := by
  rw [read_goOn] at found
  split at found
  · exact .inr (read lines found)
  · exact .inl found

theorem read_of_done (k k' : ℕ) (lines : List (Option Stamped))
    (found : (s.done k).read k' = some lines) : s.read k' = some lines ∨ lines = s.content := by
  rw [read_done] at found
  split at found
  · cases found
  · exact .inl found

theorem Numbered.step (numbered : s.Numbered) (took : s.Took input s') : s'.Numbered := by
  cases took with
  | append r =>
    refine ⟨?_, ?_, ?_, fun l member => Nat.lt_succ_of_lt (numbered.older l member),
      fun k lines read l member => Nat.lt_succ_of_lt (numbered.readOlder k lines read l member)⟩
    · intro a member
      rcases List.mem_cons.mp member with rfl | old
      · exact Nat.lt_succ_self _
      · exact Nat.lt_succ_of_lt (numbered.given a old)
    · exact List.pairwise_cons.mpr ⟨numbered.given, numbered.descending⟩
    · intro job j found
      change (s.jobs.insert s.made _).lookup job = some j at found
      rw [UnorderedMap.lookup_insert] at found
      split at found
      · next same =>
        cases found
        exact ⟨List.mem_cons_self, same.symm⟩
      · obtain ⟨member, same⟩ := numbered.posted job j found
        exact ⟨List.mem_cons_of_mem _ member, same⟩
  | write job mtime line waiting =>
    have posted := numbered.posted job _ waiting
    refine ⟨numbered.given, numbered.descending, fun job' j found => ?_, fun l member => ?_,
      numbered.readOlder⟩
    · change (s.jobs.insert job _).lookup job' = some j at found
      rw [UnorderedMap.lookup_insert] at found
      split at found
      · next same =>
        cases found
        exact ⟨posted.1, posted.2.trans same.symm⟩
      · exact numbered.posted job' j found
    · rcases List.mem_append.mp member with old | new
      · exact numbered.older l old
      · obtain rfl := Option.some.inj (List.mem_singleton.mp new)
        exact numbered.given l posted.1
  | clear job line done =>
    refine ⟨numbered.given, numbered.descending, fun job' j found => ?_, numbered.older,
      numbered.readOlder⟩
    change (s.jobs.erase job).lookup job' = some j at found
    rw [UnorderedMap.lookup_erase] at found
    split at found
    · cases found
    · exact numbered.posted job' j found
  | elsewhere line mtime =>
    refine ⟨fun a member => Nat.lt_succ_of_lt (numbered.given a member), numbered.descending,
      numbered.posted, fun l member => ?_,
      fun k lines read l member => Nat.lt_succ_of_lt (numbered.readOlder k lines read l member)⟩
    rcases List.mem_append.mp member with old | new
    · exact Nat.lt_succ_of_lt (numbered.older l old)
    · obtain ⟨r, -, rfl⟩ := Option.map_eq_some_iff.mp (List.mem_singleton.mp new).symm
      exact Nat.lt_succ_self _
  | absent file =>
    refine numbered.of_read rfl rfl rfl rfl (read_of_goOn (fun lines read => ?_) s.nextRefresh)
    rw [content_of_none file, ← Option.some.inj read]
  | statted f file =>
    exact numbered.of_read rfl rfl rfl rfl
      (read_of_goOn (fun _ read => by cases read) s.nextRefresh)
  | swapped k mtime lines swaps read => exact numbered.of_read rfl rfl rfl rfl (read_of_done k)
  | ended k kept => exact numbered.of_read rfl rfl rfl rfl (read_of_done k)
  | checked k mtime kept =>
    exact numbered.of_read rfl rfl rfl rfl (read_of_goOn (fun _ read => by cases read) k)
  | parsed k mtime f file =>
    refine numbered.of_read rfl rfl rfl rfl (read_of_goOn (fun lines read => ?_) k)
    rw [content_of_file file, ← Option.some.inj read]
  | abandoned k => exact numbered.of_read rfl rfl rfl rfl (read_of_done k)

/-! ## What the schedule says about the lines -/

/-- The settled ids are those for which the file holds what was appended, and the refreshes that
have read safely are those whose lines do. -/
structure Traced (h : List GrantStep) (s : JsonlGrantStore) : Prop where
  numbered : s.Numbered
  file : ∀ id, settled id h = true ↔ ∀ a ∈ s.appended, a.record.id = id → Holds s.content a
  read : ∀ k lines, s.read k = some lines →
    (safelyRead k h = true ↔ ∀ a ∈ s.appended, Holds lines a)

theorem traced_initial (first : machine.init s) : Traced [] s := by
  have numbered := numbered_initial first
  obtain ⟨file, rfl⟩ := first
  refine ⟨numbered, fun id => ⟨fun _ a member => (List.not_mem_nil member).elim, fun _ => rfl⟩,
    fun k lines found => ?_⟩
  cases found

/-- What the file holds after a step. -/
theorem Traced.file_step (traced : Traced h s) (took : s.Took input s') (id : String) :
    settled id (⟨s, input, s'⟩ :: h) = true ↔
      ∀ a ∈ s'.appended, a.record.id = id → Holds s'.content a := by
  have known := traced.file id
  cases took with
  | append r =>
    simp only [settled, Bool.and_eq_true, decide_eq_true_eq, known]
    constructor
    · rintro ⟨other, holds⟩ a member same
      rcases List.mem_cons.mp member with rfl | old
      · exact absurd same other
      · exact holds a old same
    · intro holds
      refine ⟨fun same => ?_, fun a old => holds a (List.mem_cons_of_mem _ old)⟩
      -- no line is as new as the record
      exact not_holds_of_older traced.numbered.older (holds _ List.mem_cons_self same)
  | write job mtime line waiting =>
    simp only [settled, waiting]
    by_cases same : line.record.id = id
    · subst same
      have posted := (traced.numbered.posted job _ waiting).1
      rw [if_pos rfl, decide_eq_true_eq, traced.numbered.latest_eq_iff posted]
      refine forall₃_congr fun a _ named => ?_
      exact (holds_concat_of_eq s.content named.symm).symm
    · rw [if_neg same, known]
      refine forall₃_congr fun a _ named => ?_
      exact (holds_concat_of_ne s.content (named ▸ same)).symm
  | clear job line done => exact known
  | elsewhere line mtime =>
    cases line with
    | none =>
      refine known.trans (forall₃_congr fun a _ _ => ?_)
      exact (holds_concat_none s.content).symm
    | some r =>
      simp only [settled, Bool.or_eq_true, decide_eq_true_eq, known]
      by_cases same : r.id = id
      · refine ⟨fun _ a member named => ?_, fun _ => .inl same⟩
        have renews : Renews { stamp := s.made, record := r } a :=
          ⟨same.trans named.symm, .inr (traced.numbered.given a member)⟩
        exact (holds_concat_of_eq s.content renews.1).mpr renews
      · rw [or_iff_right same]
        refine forall₃_congr fun a _ named => ?_
        exact (holds_concat_of_ne s.content (named ▸ same : r.id ≠ a.record.id)).symm
  | absent file => exact known
  | statted f file => exact known
  | swapped k mtime lines swaps read => exact known
  | ended k kept => exact known
  | checked k mtime kept => exact known
  | parsed k mtime f file => exact known
  | abandoned k => exact known

theorem Traced.all_settled (traced : Traced h s) :
    (s.appended.all fun a => settled a.record.id h) = true ↔
      ∀ a ∈ s.appended, Holds s.content a := by
  rw [List.all_eq_true]
  refine ⟨fun all a member => (traced.file _).mp (all a member) a member rfl, fun holds a _ => ?_⟩
  exact (traced.file _).mpr fun b found _ => holds b found

/-- A refresh that reads in a step has the lines of the file. -/
theorem Traced.read_now (traced : Traced h s) (reads : reads k ⟨s, input, s'⟩ = true) :
    safelyRead k (⟨s, input, s'⟩ :: h) = true ↔ ∀ a ∈ s.appended, Holds s.content a := by
  rw [safelyRead, if_pos reads, traced.all_settled]

/-- One that has read before still has its lines. -/
theorem Traced.read_before (traced : Traced h s) (reads : reads k ⟨s, input, s'⟩ = false)
    (appends : appends ⟨s, input, s'⟩ = false) (found : s.read k = some lines) :
    safelyRead k (⟨s, input, s'⟩ :: h) = true ↔ ∀ a ∈ s.appended, Holds lines a := by
  rw [safelyRead, reads, appends, if_neg Bool.false_ne_true, Bool.not_false, Bool.true_and]
  exact traced.read k lines found

theorem Traced.read_done (traced : Traced h s) (k' : ℕ) (reads : reads k ⟨s, input, s'⟩ = false)
    (appends : appends ⟨s, input, s'⟩ = false) (found : (s.done k').read k = some lines) :
    safelyRead k (⟨s, input, s'⟩ :: h) = true ↔ ∀ a ∈ s.appended, Holds lines a := by
  rw [JsonlGrantStore.read_done] at found
  split at found
  · cases found
  · exact traced.read_before reads appends found

/-- What the refreshes hold after a step. -/
theorem Traced.read_step (traced : Traced h s) (took : s.Took input s')
    (found : s'.read k = some lines) :
    safelyRead k (⟨s, input, s'⟩ :: h) = true ↔ ∀ a ∈ s'.appended, Holds lines a := by
  cases took with
  | append r =>
    refine ⟨fun safe => ?_, fun holds => ?_⟩
    · cases safe
    · -- what was read before is older than the record
      exact absurd (holds _ List.mem_cons_self)
        (not_holds_of_older (traced.numbered.readOlder k lines found))
  | write job mtime line waiting => exact traced.read k lines found
  | clear job line done => exact traced.read k lines found
  | elsewhere line mtime => exact traced.read k lines found
  | absent file =>
    change (s.goOn s.nextRefresh .absent).read k = some lines at found
    rw [read_goOn] at found
    split at found
    · next same =>
      obtain rfl := Option.some.inj found
      rw [traced.read_now (by simp [reads, file, same]), content_of_none file]
      rfl
    · next other =>
      exact traced.read_before (by simp [reads, Ne.symm other]) rfl found
  | statted f file =>
    change (s.goOn s.nextRefresh (.statted f.mtimeNs)).read k = some lines at found
    rw [read_goOn] at found
    split at found
    · cases found
    · exact traced.read_before (by simp [reads, file]) rfl found
  | swapped k' mtime lines' swaps read => exact traced.read_done k' rfl rfl found
  | ended k' kept => exact traced.read_done k' rfl rfl found
  | checked k' mtime kept =>
    rw [read_goOn] at found
    split at found
    · cases found
    · exact traced.read_before rfl rfl found
  | parsed k' mtime f file =>
    rw [read_goOn] at found
    split at found
    · next same =>
      obtain rfl := Option.some.inj found
      rw [traced.read_now (by simp [reads, same]), content_of_file file]
      rfl
    · next other => exact traced.read_before (by simp [reads, Ne.symm other]) rfl found
  | abandoned k' => exact traced.read_done k' rfl rfl found

theorem traced_of_run (run : machine.Run h s) : Traced h s := by
  induction run with
  | start first => exact traced_initial first
  | next _ taken traced =>
    have took := took_of_step taken
    exact ⟨traced.numbered.step took, traced.file_step took,
      fun k lines found => traced.read_step took found⟩

/-! ## Jobs in order -/

/-- A line whose job has not written yet. -/
def Waits (s : JsonlGrantStore) (l : Stamped) : Prop :=
  ∃ job, s.jobs.lookup job = some { line := l, written := false }

/-- A job writes its line while no job of an earlier append of the id waits. -/
def InOrder (s : JsonlGrantStore) : GrantInput → Prop
  | .write job _ => ∀ line l, s.jobs.lookup job = some { line := line, written := false } →
      s.Waits l → l.record.id = line.record.id → line.stamp ≤ l.stamp
  | _ => True

/-- The line of the last append of an id waits, or no line of the id does and it is settled. -/
def Ordered (h : List GrantStep) (s : JsonlGrantStore) (id : String) : Prop :=
  (∃ l, s.latest id = some l ∧ s.Waits l) ∨
    (settled id h = true ∧ ∀ l, s.Waits l → l.record.id ≠ id)

theorem id_of_latest (last : s.latest id = some l) : l.record.id = id :=
  of_decide_eq_true (List.find?_some (p := fun a : Stamped => a.record.id = id) last)

theorem Ordered.append (ordered : Ordered h s id) (numbered : s.Numbered) (r : GrantRecord) :
    Ordered (⟨s, .append r, s.appendLine r⟩ :: h) (s.appendLine r) id := by
  have insert (job : ℕ) : (s.appendLine r).jobs.lookup job =
      if job = s.made then some { line := ⟨s.made, r⟩, written := false }
      else s.jobs.lookup job := UnorderedMap.lookup_insert _ _ _ _
  by_cases same : r.id = id
  · refine .inl ⟨⟨s.made, r⟩, ?_, s.made, by rw [insert, if_pos rfl]⟩
    exact List.find?_cons_of_pos (decide_eq_true same)
  · have last : (s.appendLine r).latest id = s.latest id :=
      List.find?_cons_of_neg (by simpa using same)
    rcases ordered with ⟨l, found, job, waits⟩ | ⟨quiet, idle⟩
    · refine .inl ⟨l, last.trans found, job, ?_⟩
      obtain ⟨member, stamp⟩ := numbered.posted job _ waits
      have older : job ≠ s.made := (stamp ▸ numbered.given _ member).ne
      rw [insert, if_neg older, waits]
    · refine .inr ⟨by simp [settled, same, quiet], fun l waits => ?_⟩
      obtain ⟨job, waits⟩ := waits
      rw [insert] at waits
      split at waits
      · cases waits
        exact same
      · exact idle l ⟨job, waits⟩

theorem Ordered.write (ordered : Ordered h s id) (numbered : s.Numbered) {job : ℕ} {mtime : ℤ}
    {line : Stamped} (waiting : s.jobs.lookup job = some { line := line, written := false })
    (inOrder : s.InOrder (.write job mtime))
    (jobs : s'.jobs = s.jobs.insert job { line := line, written := true })
    (appended : s'.appended = s.appended) :
    Ordered (⟨s, .write job mtime, s'⟩ :: h) s' id := by
  -- the lines that wait are those of the other jobs
  have waits (l : Stamped) : s'.Waits l ↔ s.Waits l ∧ l ≠ line := by
    simp only [Waits, jobs, UnorderedMap.lookup_insert]
    constructor
    · rintro ⟨job', found⟩
      split at found
      · cases found
      · next other =>
        refine ⟨⟨job', found⟩, fun same => other ?_⟩
        subst same
        exact (numbered.posted job' _ found).2.symm.trans (numbered.posted job _ waiting).2
    · rintro ⟨⟨job', found⟩, other⟩
      refine ⟨job', ?_⟩
      rw [if_neg, found]
      rintro rfl
      cases found.symm.trans waiting
      exact other rfl
  have last (id' : String) : s'.latest id' = s.latest id' := by rw [latest, latest, appended]
  have posted := (numbered.posted job _ waiting).1
  by_cases same : line.record.id = id
  · rcases ordered with ⟨l, found, waited⟩ | ⟨-, idle⟩
    · by_cases written : l = line
      · -- no line of the id waits: it would be older than the last, and was to be written first
        subst written
        refine .inr ⟨by simp [settled, waiting, same, found], fun l' waits' named => ?_⟩
        obtain ⟨waited', other⟩ := (waits l').mp waits'
        have first := inOrder l l' waiting waited' (named.trans same.symm)
        obtain ⟨job', found'⟩ := waited'
        rcases (numbered.renews_of_latest found (numbered.posted job' _ found').1 named).2 with
          rfl | older
        · exact other rfl
        · exact absurd first older.not_ge
      · exact .inl ⟨l, (last id).trans found, (waits l).mpr ⟨waited, written⟩⟩
    · exact absurd same (idle line ⟨job, waiting⟩)
  · rcases ordered with ⟨l, found, waited⟩ | ⟨quiet, idle⟩
    · refine .inl ⟨l, (last id).trans found, (waits l).mpr ⟨waited, ?_⟩⟩
      rintro rfl
      exact same (id_of_latest found)
    · refine .inr ⟨by simp [settled, waiting, same, quiet], fun l waits' => ?_⟩
      exact idle l ((waits l).mp waits').1

/-- A step that is neither an append nor a write, and leaves the id settled if it was. -/
theorem Ordered.of_settled (ordered : Ordered h s id) (appended : s'.appended = s.appended)
    (waits : ∀ l, s'.Waits l ↔ s.Waits l)
    (settles : settled id h = true → settled id (⟨s, input, s'⟩ :: h) = true) :
    Ordered (⟨s, input, s'⟩ :: h) s' id := by
  simp only [Ordered, latest, appended, waits]
  exact ordered.imp_right fun ⟨quiet, idle⟩ => ⟨settles quiet, idle⟩

theorem Ordered.step (ordered : Ordered h s id) (numbered : s.Numbered)
    (took : s.Took input s') (inOrder : s.InOrder input) :
    Ordered (⟨s, input, s'⟩ :: h) s' id := by
  cases took with
  | append r => exact ordered.append numbered r
  | write job mtime line waiting => exact ordered.write numbered waiting inOrder rfl rfl
  | clear job line done =>
    refine ordered.of_settled rfl (fun l => exists_congr fun job' => ?_) fun quiet => quiet
    -- the line of the job is written
    simp only [UnorderedMap.lookup_erase]
    split
    · next same =>
      subst same
      simp [done]
    · rfl
  | elsewhere line mtime =>
    refine ordered.of_settled rfl (fun l => Iff.rfl) fun quiet => ?_
    cases line with
    | none => exact quiet
    | some r => simp [settled, quiet]
  | _ => exact ordered.of_settled rfl (fun l => Iff.rfl) fun quiet => quiet

/-- If the jobs write in the order of the appends of an id, all is settled whenever no line
waits. -/
theorem settled_of_inOrder (run : machine.Run h s) (inOrder : ∀ t ∈ h, t.pre.InOrder t.input)
    (idle : ∀ l, ¬ s.Waits l) (id : String) : settled id h = true := by
  have ordered : Ordered h s id := by
    clear idle
    induction run with
    | start first =>
      obtain ⟨file, rfl⟩ := first
      refine .inr ⟨rfl, fun l waits => ?_⟩
      obtain ⟨job, found⟩ := waits
      cases found
    | next before taken ih =>
      obtain ⟨last, earlier⟩ := List.forall_mem_cons.mp inOrder
      exact (ih earlier).step (traced_of_run before).numbered (took_of_step taken) last
  rcases ordered with ⟨l, -, waits⟩ | ⟨quiet, -⟩
  · exact absurd waits (idle l)
  · exact quiet

/-! ## Snapshots -/

/-- An append keeps what the table holds: a record with the same id is newer. -/
theorem Retains.append (retains : s.Retains) (numbered : s.Numbered) (r : GrantRecord) :
    (s.appendLine r).Retains := by
  intro a member
  simp only [appendLine, UnorderedMap.lookup_insert]
  rcases List.mem_cons.mp member with rfl | old
  · exact ⟨_, if_pos rfl, rfl, .inl rfl⟩
  · by_cases same : a.record.id = r.id
    · exact ⟨_, if_pos same, same.symm, .inr (numbered.given a old)⟩
    · rw [if_neg same]
      exact retains a old

/-- A step that replaces the table retains what was appended if and only if the refresh has read
safely; the others retain it. -/
theorem Retains.step_iff (retains : s.Retains) (traced : Traced h s) (took : s.Took input s') :
    s'.Retains ↔ ((s.swaps input).all fun k => safelyRead k h) = true := by
  cases took with
  | append r => exact iff_of_true (retains.append traced.numbered r) rfl
  | swapped k mtime lines swaps read =>
    rw [swaps, Option.all_some, traced.read k lines read]
    exact retains_iff rfl rfl
  | ended k kept =>
    rw [kept]
    exact iff_of_true retains rfl
  | checked k mtime kept =>
    rw [kept]
    exact iff_of_true retains rfl
  | _ => exact iff_of_true retains rfl

end JsonlGrantStore

open JsonlGrantStore

/-- Every later table holds each record that was appended, or a newer one with its id, if and only
if every refresh that replaces the table has read safely. -/
theorem grants_retained_iff {h : List GrantStep} {s : JsonlGrantStore} (run : machine.Run h s) :
    (∀ t ∈ h, t.post.Retains) ↔ undisturbed h = true := by
  induction run with
  | start _ => exact iff_of_true (fun t member => (List.not_mem_nil member).elim) rfl
  | @next h s s' input before taken ih =>
    rw [List.forall_mem_cons, undisturbed, Bool.and_eq_true, ← ih, and_congr_left_iff]
    intro earlier
    -- the state before the step is the first one, or was reached by an earlier step
    have retains : s.Retains := by
      cases before with
      | start first =>
        obtain ⟨file, rfl⟩ := first
        exact fun a member => (List.not_mem_nil member).elim
      | next _ _ => exact earlier _ List.mem_cons_self
    exact retains.step_iff (traced_of_run before) (took_of_step taken)

open GrantExample

theorem grants_retained_iff_quiet : ∃ h s, machine.Run h s ∧ s.lastMtimeNs = 10 ∧
    ∀ t ∈ h, t.post.Retains := by
  obtain ⟨h, s, run, passed⟩ := TransitionSystem.exists_history (M := machine) quiet
    (fun h s => decide (s.lastMtimeNs = 10) && undisturbed h) ⟨none, rfl⟩ (by decide)
  obtain ⟨refreshed, undisturbed⟩ := Bool.and_eq_true _ _ |>.mp passed
  exact ⟨h, s, run, of_decide_eq_true refreshed, (grants_retained_iff run).mpr undisturbed⟩

/-- A refresh discards a grant whose line is not written yet. -/
theorem grant_discarded : ∃ h s, machine.Run h s ∧ ¬ s.Retains := by
  obtain ⟨h, s, run, -, lost⟩ := TransitionSystem.exists_run (M := machine) hasty
    (fun _ _ => true) (fun s => !decide s.Retains) ⟨none, rfl⟩ (by decide)
  exact ⟨h, s, run, of_decide_eq_false ((Bool.not_eq_true' _).mp lost)⟩

end Perfacet
