import Perfacet.Lib.Transition
import Perfacet.Policy.GrantStore

/-!
# Reports of expired grants

A refresh that reads the file looks at the clock and reports the approved grants that have
expired. A flag for each id keeps it from reporting one twice. The flag is never taken back: a
grant that is approved once more under its id, and expires once more, is not reported again.

## Main definitions

* `ExpiryWatch`, `ExpiryWatch.machine` — the store with the reports it has made
* `ExpiryWatch.ReadsClock` — a refresh that looks at the clock
* `ExpiryWatch.Renewed` — the file has a grant that expired, and was reported with another expiry

## Main results

* `ExpiryWatch.Marked.expired` — what the loop of a refresh does
* `expiry_reported_once_iff` — when every expiry is reported exactly once
-/

namespace Perfacet

/-- The store, and the grants that it has reported as expired. -/
structure ExpiryWatch where
  store : GrantStore := {}
  reported : List GrantRecord := []

/-- What may happen next: a refresh, an append, or the end of a job. -/
inductive ExpiryInput
  | refresh (file : Option LogFile) (now : UInt64)
  | append (r : GrantRecord)
  | clear

namespace ExpiryWatch

variable (parse : String → Option Json) (trunc : FloatText → ℤ)

/-- A refresh that throws changes nothing: the exception ends in the worker. -/
def step (w : ExpiryWatch) : ExpiryInput → Option ExpiryWatch
  | .refresh file now =>
    match w.store.refreshOnWorker parse trunc true file now with
    | .ok (store, reports) => some { store := store, reported := w.reported ++ reports }
    | .error _ => some w
  | .append r => some { w with store := w.store.appendLine r }
  | .clear => some { w with store := w.store.clearDirty }

def machine : TransitionSystem ExpiryWatch ExpiryInput where
  init w := w = {}
  step := step parse trunc

/-- The call reads the file, and then the clock. -/
structure ReadsClock (w : ExpiryWatch) (input : ExpiryInput) (f : LogFile) (now : UInt64) :
    Prop where
  refreshes : input = .refresh (some f) now
  examines : w.store.Examines (some f) f
  readable : ∃ t, GrantLog.parseFile parse trunc f.content = .ok t

/-- An expiry, that of a grant at a time, is reported exactly once. -/
def Once (reported : List GrantRecord) (g : GrantRecord) : Prop :=
  reported.countP (fun r => r.id = g.id ∧ r.expiresAt = g.expiresAt) = 1

instance (reported : List GrantRecord) (g : GrantRecord) : Decidable (Once reported g) :=
  inferInstanceAs (Decidable (_ = 1))

/-- The call reads a grant that has expired, under an id that was reported with another expiry. -/
def Renewed (w : ExpiryWatch) (input : ExpiryInput) : Prop :=
  ∃ f now, ReadsClock parse trunc w input f now ∧
    ∃ g, GrantLog.LastWriter parse trunc g f.content ∧ g.Due now ∧
      ∃ r ∈ w.reported, r.id = g.id ∧ r.expiresAt ≠ g.expiresAt

/-! ## The flags -/

/-- The flags tell which ids were reported, and none was reported twice. -/
structure Marked (emitted : UnorderedMap String Bool) (reported : List GrantRecord) : Prop where
  flag : ∀ id, UnorderedMap.getD emitted id false = true ↔ ∃ r ∈ reported, r.id = id
  once : (reported.map (·.id)).Nodup

variable {parse trunc} {w w' : ExpiryWatch} {input : ExpiryInput} {f : LogFile} {now : UInt64}
  {emitted : UnorderedMap String Bool} {reported more : List GrantRecord} {g r r' : GrantRecord}
  {t : GrantTable} {acc : UnorderedMap String Bool × List GrantRecord}

theorem Marked.nil : Marked ∅ [] := ⟨fun id => by simp, List.nodup_nil⟩

/-- Two reports with one id are the same. -/
theorem Marked.eq (marked : Marked emitted reported) (here : r ∈ reported) (there : r' ∈ reported)
    (same : r.id = r'.id) : r = r' :=
  List.inj_on_of_nodup_map marked.once here there same

/-- As no id is reported twice, one report of an expiry is the only one. -/
theorem Marked.once_iff (marked : Marked emitted reported) :
    Once reported g ↔ ∃ r ∈ reported, r.id = g.id ∧ r.expiresAt = g.expiresAt := by
  have atMost : reported.countP (fun r => r.id = g.id ∧ r.expiresAt = g.expiresAt) ≤ 1 :=
    calc reported.countP (fun r => r.id = g.id ∧ r.expiresAt = g.expiresAt)
        ≤ reported.countP (fun r => r.id = g.id) := by
          apply List.countP_mono_left
          intro r _ matching
          exact decide_eq_true (of_decide_eq_true matching).1
      _ = (reported.map (·.id)).count g.id := by
          rw [List.count, List.countP_map]
          rfl
      _ ≤ 1 := List.nodup_iff_count_le_one.mp marked.once g.id
  rw [Once, Nat.eq_iff_le_and_ge, and_iff_right atMost, Nat.succ_le_iff, List.countP_pos_iff]
  simp

/-- A round of the loop, with a function to report to. -/
theorem emit_eq (now : UInt64) (acc : UnorderedMap String Bool × List GrantRecord)
    (g : GrantRecord) : GrantStore.emit true now acc g =
      if g.Due now then
        if UnorderedMap.getD acc.1 g.id false then acc else (acc.1.insert g.id true, acc.2 ++ [g])
      else acc := rfl

/-- A round of the loop keeps the flags right. -/
theorem Marked.emit (marked : Marked acc.1 (reported ++ acc.2)) (now : UInt64) (g : GrantRecord) :
    Marked (GrantStore.emit true now acc g).1 (reported ++ (GrantStore.emit true now acc g).2) := by
  rw [emit_eq]
  split_ifs with due before
  · exact marked
  · -- a new report: its id has no flag, so it was not reported
    have new : ∀ r ∈ reported ++ acc.2, r.id ≠ g.id := fun r member same =>
      before ((marked.flag g.id).mpr ⟨r, member, same⟩)
    constructor
    · intro id
      rw [UnorderedMap.getD_insert, ← List.append_assoc]
      split_ifs with here
      · exact iff_of_true rfl ⟨g, by simp, here.symm⟩
      · rw [marked.flag id]
        constructor
        · rintro ⟨r, member, same⟩
          exact ⟨r, List.mem_append_left _ member, same⟩
        · rintro ⟨r, member, same⟩
          rcases List.mem_append.mp member with old | last
          · exact ⟨r, old, same⟩
          · rw [List.mem_singleton.mp last] at same
            exact absurd same.symm here
    · rw [← List.append_assoc, List.map_append]
      refine List.nodup_append.mpr ⟨marked.once, List.nodup_singleton _, ?_⟩
      intro id member id' last
      obtain ⟨r, old, rfl⟩ := List.mem_map.mp member
      rw [List.map_singleton, List.mem_singleton] at last
      exact last ▸ new r old
  · exact marked

/-- After a round on a grant that has expired, its id is reported. -/
theorem Marked.emit_due (marked : Marked acc.1 (reported ++ acc.2)) (due : g.Due now) :
    ∃ r ∈ reported ++ (GrantStore.emit true now acc g).2, r.id = g.id := by
  rw [emit_eq, if_pos due]
  split_ifs with before
  · exact (marked.flag g.id).mp before
  · exact ⟨g, by simp, rfl⟩

/-- A round adds at most the grant it is about. -/
theorem emit_reports (now : UInt64) (acc : UnorderedMap String Bool × List GrantRecord)
    (g : GrantRecord) : (GrantStore.emit true now acc g).2 = acc.2 ∨
      (GrantStore.emit true now acc g).2 = acc.2 ++ [g] := by
  rw [emit_eq]
  split_ifs
  · exact .inl rfl
  · exact .inr rfl
  · exact .inl rfl

/-- The loop keeps the flags right, reports every grant that has expired unless its id was
reported, and nothing that is not in the table. -/
theorem Marked.loop (now : UInt64) (entries : List ((_ : String) × GrantRecord))
    (marked : Marked acc.1 (reported ++ acc.2)) :
    let out := entries.foldl (fun acc e => GrantStore.emit true now acc e.2) acc
    Marked out.1 (reported ++ out.2) ∧ (∀ r ∈ acc.2, r ∈ out.2) ∧
      (∀ e ∈ entries, e.2.Due now → ∃ r ∈ reported ++ out.2, r.id = e.2.id) ∧
      ∀ r ∈ out.2, r ∈ acc.2 ∨ ∃ e ∈ entries, e.2 = r := by
  induction entries generalizing acc with
  | nil =>
    exact ⟨marked, fun _ old => old, fun _ none => (List.not_mem_nil none).elim, fun _ => .inl⟩
  | cons e entries ih =>
    obtain ⟨later, kept, due, within⟩ := ih (marked.emit now e.2)
    have grown : ∀ r ∈ acc.2, r ∈ (GrantStore.emit true now acc e.2).2 := by
      intro r old
      rcases emit_reports now acc e.2 with same | more
      · exact same ▸ old
      · exact more ▸ List.mem_append_left _ old
    refine ⟨later, fun r old => kept r (grown r old), ?_, ?_⟩
    · intro e' member expired
      rcases List.mem_cons.mp member with rfl | other
      · obtain ⟨r, here, same⟩ := marked.emit_due expired
        refine ⟨r, ?_, same⟩
        rcases List.mem_append.mp here with old | new
        · exact List.mem_append_left _ old
        · exact List.mem_append_right _ (kept r new)
      · exact due e' other expired
    · intro r new
      rcases within r new with here | ⟨e', member, same⟩
      · rcases emit_reports now acc e.2 with same | more
        · exact .inl (same ▸ here)
        · rw [more] at here
          rcases List.mem_append.mp here with old | last
          · exact .inl old
          · exact .inr ⟨e, List.mem_cons_self, (List.mem_singleton.mp last).symm⟩
      · exact .inr ⟨e', List.mem_cons_of_mem _ member, same⟩

/-- What the loop of a refresh does with a table. -/
theorem Marked.expired (marked : Marked emitted reported) (now : UInt64) (t : GrantTable) :
    let out := GrantStore.expired true emitted now t
    Marked out.1 (reported ++ out.2) ∧
      (∀ id g, t.lookup id = some g → g.Due now → ∃ r ∈ reported ++ out.2, r.id = g.id) ∧
      ∀ r ∈ out.2, ∃ id, t.lookup id = some r := by
  have start : Marked (emitted, ([] : List GrantRecord)).1
      (reported ++ (emitted, ([] : List GrantRecord)).2) := by
    rw [List.append_nil]
    exact marked
  obtain ⟨kept, -, due, within⟩ := start.loop now t.entries
  refine ⟨kept, fun id g found expired => ?_, fun r new => ?_⟩
  · exact due ⟨id, g⟩ (UnorderedMap.mem_entries_iff.mpr found) expired
  · rcases within r new with none | ⟨⟨id, g⟩, member, rfl⟩
    · cases none
    · exact ⟨id, UnorderedMap.mem_entries_iff.mp member⟩

/-! ## The steps -/

/-- A call that reads the clock takes over the file and goes through its grants; any other step
reports nothing and leaves the flags alone. -/
theorem step_spec (step : w.step parse trunc input = some w') :
    (∃ f now t, ReadsClock parse trunc w input f now ∧
      GrantLog.parseFile parse trunc f.content = .ok t ∧ w'.store.table = t ∧
      w'.store.expireEmitted = (GrantStore.expired true w.store.expireEmitted now t).1 ∧
      w'.reported = w.reported ++ (GrantStore.expired true w.store.expireEmitted now t).2) ∨
      (∀ f now, ¬ ReadsClock parse trunc w input f now) ∧
        w'.store.expireEmitted = w.store.expireEmitted ∧ w'.reported = w.reported := by
  cases input with
  | append r =>
    obtain rfl := Option.some.inj step
    exact .inr ⟨fun f now reads => (by cases reads.refreshes), rfl, rfl⟩
  | clear =>
    obtain rfl := Option.some.inj step
    exact .inr ⟨fun f now reads => (by cases reads.refreshes), rfl, rfl⟩
  | refresh file now =>
    simp only [ExpiryWatch.step] at step
    by_cases examined : ∃ f, w.store.Examines file f
    · obtain ⟨f, examines⟩ := examined
      obtain rfl := examines.there
      rw [GrantStore.refresh_of_examines parse trunc true now examines] at step
      cases parsed : GrantLog.parseFile parse trunc f.content with
      | ok t =>
        rw [parsed] at step
        obtain rfl := Option.some.inj step
        exact .inl ⟨f, now, t, ⟨rfl, examines, t, parsed⟩, parsed, rfl, rfl, rfl⟩
      | error e =>
        rw [parsed] at step
        obtain rfl := Option.some.inj step
        refine .inr ⟨fun f' now' reads => ?_, rfl, rfl⟩
        obtain ⟨same, -, t, readable⟩ := reads
        cases same
        rw [parsed] at readable
        cases readable
    · have blind : ∀ f now', ¬ ReadsClock parse trunc w (.refresh file now) f now' := by
        rintro f now' ⟨same, examines, -⟩
        cases same
        exact examined ⟨f, examines⟩
      have others := GrantStore.refresh_of_not_examines parse trunc true now
        fun f examines => examined ⟨f, examines⟩
      rcases others with stays | ⟨-, -, gone⟩
      · rw [stays] at step
        obtain rfl := Option.some.inj step
        exact .inr ⟨blind, rfl, List.append_nil _⟩
      · rw [gone] at step
        obtain rfl := Option.some.inj step
        exact .inr ⟨blind, rfl, List.append_nil _⟩

/-- Every step keeps the flags right, and adds to the reports. -/
theorem Marked.step (marked : Marked w.store.expireEmitted w.reported)
    (step : w.step parse trunc input = some w') :
    Marked w'.store.expireEmitted w'.reported ∧ w.reported <+: w'.reported := by
  rcases step_spec step with ⟨f, now, t, -, -, -, flags, reports⟩ | ⟨-, flags, reports⟩
  · rw [flags, reports]
    exact ⟨(marked.expired now t).1, List.prefix_append _ _⟩
  · rw [flags, reports]
    exact ⟨marked, List.prefix_rfl⟩

/-- After a call that reads the clock, every grant of the table that has expired is reported, under
its own expiry if and only if it was not reported under another one before. -/
theorem Marked.once_step_iff (marked : Marked w.store.expireEmitted w.reported)
    (step : w.step parse trunc input = some w') (reads : ReadsClock parse trunc w input f now) :
    (∀ id g, w'.store.table.lookup id = some g → g.Due now → Once w'.reported g) ↔
      ¬ Renewed parse trunc w input := by
  have marked' := (marked.step step).1
  rcases step_spec step with ⟨f', now', t, reads', parsed, table, flags, reports⟩ | ⟨blind, -⟩
  swap
  · exact absurd reads (blind f now)
  obtain ⟨rfl, rfl⟩ : f' = f ∧ now' = now := by
    have same := reads'.refreshes.symm.trans reads.refreshes
    cases same
    exact ⟨rfl, rfl⟩
  obtain ⟨-, due, within⟩ := marked.expired now' t
  simp only [marked'.once_iff]
  constructor
  · rintro exact ⟨f, now, again, g, last, expired, r, old, same, other⟩
    have here := again.refreshes.symm.trans reads.refreshes
    cases here
    have found := (GrantLog.lookup_parseFile parsed g.id).mpr ⟨rfl, last⟩
    rw [← table] at found
    obtain ⟨r', new, same', expiry⟩ := exact g.id g found expired
    have kept : r ∈ w'.reported := reports ▸ List.mem_append_left _ old
    exact other ((marked'.eq kept new (same.trans same'.symm)) ▸ expiry)
  · intro first id g found expired
    rw [table] at found
    obtain ⟨r, here, same⟩ := due id g found expired
    have kept : r ∈ w'.reported := reports ▸ here
    refine ⟨r, kept, same, ?_⟩
    rcases List.mem_append.mp here with old | new
    · by_contra other
      have last := ((GrantLog.lookup_parseFile parsed id).mp found).2
      exact first ⟨f', now', reads, g, last, expired, r, old, same, other⟩
    · -- a new report is the grant itself: the table has one for each id
      obtain ⟨id', found'⟩ := within r new
      have key := GrantLog.id_of_lookup parsed found
      have key' := GrantLog.id_of_lookup parsed found'
      obtain rfl : id' = id := key'.symm.trans (same.trans key)
      rw [found] at found'
      rw [Option.some.inj found']

/-- In every run the flags are right. -/
theorem marked_of_run {h : List (TransitionSystem.Step ExpiryWatch ExpiryInput)}
    (run : (machine parse trunc).Run h w) : Marked w.store.expireEmitted w.reported := by
  refine run.invariant (I := fun w => Marked w.store.expireEmitted w.reported) ?_ ?_
  · rintro w rfl
    exact Marked.nil
  · exact fun w input w' step marked => (marked.step step).1

/-- What was reported once stays reported once. -/
theorem once_later {h : List (TransitionSystem.Step ExpiryWatch ExpiryInput)}
    (run : (machine parse trunc).Run h w)
    {t : TransitionSystem.Step ExpiryWatch ExpiryInput} (member : t ∈ h)
    (once : Once t.post.reported g) : Once w.reported g := by
  obtain ⟨later, earlier, rfl⟩ := List.append_of_mem member
  have grown : t.post.reported <+: w.reported :=
    run.since (C := fun _ => True) (I := fun _ w => t.post.reported <+: w.reported)
      (fun _ _ => trivial) List.prefix_rfl fun later u before step _ grown =>
        grown.trans ((marked_of_run before).step step).2
  obtain ⟨r, here, matching⟩ := (marked_of_run run.of_append.1).once_iff.mp once
  exact (marked_of_run run).once_iff.mpr ⟨r, grown.mem here, matching⟩

end ExpiryWatch

open ExpiryWatch

/-- Whenever a refresh has read the clock, every approved grant of the table that has expired has
been reported exactly once over the run, if and only if no refresh reads an expired grant whose id
was reported with another expiry. -/
theorem expiry_reported_once_iff {parse : String → Option Json} {trunc : FloatText → ℤ}
    {h : List (TransitionSystem.Step ExpiryWatch ExpiryInput)} {w : ExpiryWatch}
    (run : (machine parse trunc).Run h w) :
    (∀ t ∈ h, ∀ f now, ReadsClock parse trunc t.pre t.input f now →
        ∀ id g, t.post.store.table.lookup id = some g → g.Due now →
          Once t.post.reported g ∧ Once w.reported g) ↔
      ∀ t ∈ h, ¬ Renewed parse trunc t.pre t.input := by
  constructor
  · intro once t member renewed
    obtain ⟨earlier, before, step, -⟩ := run.of_mem member
    obtain ⟨f, now, reads, -⟩ := id renewed
    refine ((marked_of_run before).once_step_iff step reads).mp ?_ renewed
    exact fun id g found due => (once t member f now reads id g found due).1
  · intro first t member f now reads id g found due
    obtain ⟨earlier, before, step, -⟩ := run.of_mem member
    -- the marks of the store are those of the reports
    have exact := ((marked_of_run before).once_step_iff step reads).mpr (first t member)
    exact ⟨exact id g found due, once_later run member (exact id g found due)⟩

/-! ## An example -/

namespace ExpiryExample

open LogExample

/-- A grant that was approved, and approved once more. -/
def first : Json := GrantTable.line (grant "g_1" 10)

def second : Json := GrantTable.line (grant "g_1" 30)

/-- The log before the second approval. -/
def before : LogFile := ⟨file [first], 5⟩

/-- The log behind it. -/
def after : LogFile := ⟨file [first, second], 35⟩

/-- A store that has reported the first expiry. -/
def watch (table : GrantTable) (lastMtimeNs : ℤ) (dirty : Bool) : ExpiryWatch where
  store := { table := table, lastMtimeNs := lastMtimeNs, dirty := dirty,
             expireEmitted := AList.insert "g_1" true ∅ }
  reported := [grant "g_1" 10]

def once : GrantTable := AList.insert "g_1" (grant "g_1" 10) ∅

def twice : GrantTable := AList.insert "g_1" (grant "g_1" 30) once

def system : TransitionSystem ExpiryWatch ExpiryInput := machine (knowing [first, second]) integral

end ExpiryExample

open ExpiryExample LogExample in
/-- A grant that expires is reported. -/
theorem expiry_reported_once_iff_first : ∃ h w, system.Run h w ∧ w.reported = [grant "g_1" 10] ∧
    ∀ t ∈ h, ∀ f now, ReadsClock (knowing [first, second]) integral t.pre t.input f now →
      ∀ id g, t.post.store.table.lookup id = some g → g.Due now →
        Once t.post.reported g ∧ Once w.reported g := by
  have step : system.step {} (.refresh (some before) 20) = some (watch once 5 false) := rfl
  have run := TransitionSystem.Run.next (M := system) (.start rfl) step
  refine ⟨_, _, run, rfl, (expiry_reported_once_iff run).mpr fun t member => ?_⟩
  rw [List.mem_singleton.mp member]
  rintro ⟨f, now, -, g, -, -, r, old, -⟩
  exact List.not_mem_nil old

open ExpiryExample LogExample in
/-- A grant that was approved again under its id expires again, and is not reported. -/
theorem second_expiry_unreported : ∃ h w, system.Run h w ∧
    ∃ t ∈ h, ReadsClock (knowing [first, second]) integral t.pre t.input after 40 ∧
      t.post.store.table.lookup "g_1" = some (grant "g_1" 30) ∧ (grant "g_1" 30).Due 40 ∧
        ¬ Once t.post.reported (grant "g_1" 30) := by
  have read : system.step {} (.refresh (some before) 20) = some (watch once 5 false) := rfl
  have approved : system.step (watch once 5 false) (.append (grant "g_1" 30)) =
    some (watch twice (-1) true) := rfl
  have written : system.step (watch twice (-1) true) .clear = some (watch twice (-1) false) := rfl
  have readAgain : system.step (watch twice (-1) false) (.refresh (some after) 40) =
    some (watch twice 35 false) := rfl
  have run := ((TransitionSystem.Run.start (M := system) rfl).next read).next approved
  have clock : ReadsClock (knowing [first, second]) integral (watch twice (-1) false)
    (.refresh (some after) 40) after 40 := ⟨rfl, ⟨rfl, rfl, by decide⟩, twice, rfl⟩
  have missing : ¬ Once [grant "g_1" 10] (grant "g_1" 30) := by decide
  exact ⟨_, _, (run.next written).next readAgain, _, List.mem_cons_self, clock, rfl, by decide,
    missing⟩

end Perfacet
