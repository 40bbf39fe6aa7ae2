import Perfacet.Policy.GrantLog

/-!
# The grant store, call by call

A refresh reads the file again if it was modified, and replaces the table. It throws if a line of
the file is of the wrong shape; start-up does not catch that, and a worker drops it. So such a
line keeps the gateway from starting, or else the table stays as it is from then on.

## Main definitions

* `GrantStore`, `GrantStore.refreshOnWorker` — the store, and the call that reads the file
* `GrantStore.appendLine` — what an append does to the store before its line is written
* `GrantStore.Examines` — a refresh gets as far as reading the file

## Main results

* `GrantStore.refresh_spec` — how a refresh ends
* `grant_log_total_iff` — when a file is read, line by line, and every refresh takes it over
-/

namespace Perfacet

/-- What a refresh sees of the file. -/
structure LogFile where
  content : List Char
  mtimeNs : ℤ
  deriving DecidableEq, Repr

/-- The store: the table, the time of the last file that was read, whether lines are not written
yet, and for which ids an expiry was reported. -/
structure GrantStore where
  table : GrantTable := ∅
  lastMtimeNs : ℤ := -1
  dirty : Bool := false
  expireEmitted : UnorderedMap String Bool := ∅

/-- A grant that was approved has expired. -/
structure GrantRecord.Due (g : GrantRecord) (now : UInt64) : Prop where
  approved : g.status = "approved"
  bounded : 0 < g.expiresAt
  expired : g.expiresAt ≤ now

theorem GrantRecord.due_iff {g : GrantRecord} {now : UInt64} :
    g.Due now ↔ g.status = "approved" ∧ 0 < g.expiresAt ∧ g.expiresAt ≤ now :=
  ⟨fun h => ⟨h.approved, h.bounded, h.expired⟩, fun ⟨approved, bounded, expired⟩ =>
    ⟨approved, bounded, expired⟩⟩

instance (g : GrantRecord) (now : UInt64) : Decidable (g.Due now) :=
  decidable_of_iff _ GrantRecord.due_iff.symm

namespace GrantStore

/-- One round of the loop of a refresh: the flags, and the grants to be reported. Looking a flag
up makes an entry for it. -/
def emit (onExpire : Bool) (now : UInt64) (acc : UnorderedMap String Bool × List GrantRecord)
    (g : GrantRecord) : UnorderedMap String Bool × List GrantRecord :=
  if g.Due now then
    if UnorderedMap.getD acc.1 g.id false then acc
    else if onExpire then (acc.1.insert g.id true, acc.2 ++ [g])
    else (acc.1.insert g.id false, acc.2)
  else acc

/-- The loop, over a table. -/
def expired (onExpire : Bool) (emitted : UnorderedMap String Bool) (now : UInt64) (t : GrantTable) :
    UnorderedMap String Bool × List GrantRecord :=
  t.entries.foldl (fun acc e => emit onExpire now acc e.2) (emitted, [])

variable (parse : String → Option Json) (trunc : FloatText → ℤ)

/-- `JsonlGrantStore::refreshOnWorker`, with the grants that it reports. `onExpire` says whether
there is a function to report them to. -/
def refreshOnWorker (onExpire : Bool) (s : GrantStore) (file : Option LogFile) (now : UInt64) :
    Except JsonError (GrantStore × List GrantRecord) :=
  match file with
  | none =>
    if s.dirty then .ok (s, [])
    else if s.lastMtimeNs ≠ 0 then .ok ({ s with lastMtimeNs := 0, table := ∅ }, [])
    else .ok (s, [])
  | some f =>
    if s.dirty then .ok (s, [])
    else if f.mtimeNs = s.lastMtimeNs then .ok (s, [])
    else do
      let next ← GrantLog.parseFile parse trunc f.content
      -- what has expired is reported once for an id
      let (emitted, reports) := expired onExpire s.expireEmitted now next
      pure ({ s with lastMtimeNs := f.mtimeNs, table := next, expireEmitted := emitted }, reports)

/-- The locked section of `appendLine`. -/
def appendLine (s : GrantStore) (r : GrantRecord) : GrantStore :=
  { s with table := s.table.insert r.id r, lastMtimeNs := -1, dirty := true }

/-- What a job does once its line is written. -/
def clearDirty (s : GrantStore) : GrantStore := { s with dirty := false }

/-- A refresh gets as far as reading the file. -/
structure Examines (s : GrantStore) (file : Option LogFile) (f : LogFile) : Prop where
  there : file = some f
  clean : s.dirty = false
  modified : f.mtimeNs ≠ s.lastMtimeNs

variable (onExpire : Bool) (now : UInt64) {s : GrantStore} {file : Option LogFile} {f : LogFile}

/-- A refresh that reads the file takes over what the file says. -/
theorem refresh_of_examines (examines : s.Examines file f) :
    s.refreshOnWorker parse trunc onExpire file now =
      (GrantLog.parseFile parse trunc f.content).map fun next =>
        ({ s with lastMtimeNs := f.mtimeNs, table := next,
                  expireEmitted := (expired onExpire s.expireEmitted now next).1 },
          (expired onExpire s.expireEmitted now next).2) := by
  obtain ⟨rfl, clean, modified⟩ := examines
  simp only [refreshOnWorker, clean, Bool.false_eq_true, if_false, modified]
  rfl

/-- Any other refresh leaves the file alone and reports nothing: the table stays, or is emptied
because the file is gone. -/
theorem refresh_of_not_examines (others : ∀ f, ¬ s.Examines file f) :
    s.refreshOnWorker parse trunc onExpire file now = .ok (s, []) ∨
      file = none ∧ s.dirty = false ∧ s.refreshOnWorker parse trunc onExpire file now =
        .ok ({ s with lastMtimeNs := 0, table := ∅ }, []) := by
  unfold refreshOnWorker
  cases file with
  | none =>
    split_ifs with dirty known
    · exact .inl rfl
    · exact .inr ⟨rfl, Bool.not_eq_true _ ▸ dirty, rfl⟩
    · exact .inl rfl
  | some f =>
    dsimp only
    split_ifs with dirty same
    · exact .inl rfl
    · exact .inl rfl
    · exact absurd ⟨rfl, Bool.not_eq_true _ ▸ dirty, same⟩ (others f)

end GrantStore

/-- A file is read whatever its lines are, and no line stops a refresh: the table is that of the
last writers, and every refresh that reads the file replaces its own table by it. -/
structure GrantLog.Total (parse : String → Option Json) (trunc : FloatText → ℤ)
    (content : List Char) (t : GrantTable) : Prop where
  returns : GrantLog.parseFile parse trunc content = .ok t
  lastWriters : ∀ id r, t.lookup id = some r ↔ r.id = id ∧ GrantLog.LastWriter parse trunc r content
  refreshes : ∀ (s : GrantStore) (mtime : ℤ) (onExpire : Bool) (now : UInt64), s.dirty = false →
    mtime ≠ s.lastMtimeNs → ∃ s' reports,
      s.refreshOnWorker parse trunc onExpire (some ⟨content, mtime⟩) now = .ok (s', reports) ∧
        s'.table = t ∧ s'.lastMtimeNs = mtime

/-- A file is read, and no line stops a refresh, if and only if in every line that is an object the
members that are read have the types that they are read as. -/
theorem grant_log_total_iff {parse : String → Option Json} {trunc : FloatText → ℤ}
    {content : List Char} : (∃ t, GrantLog.Total parse trunc content t) ↔
      ∀ line ∈ Lines.lines '\n' content, ∀ j, GrantLog.read parse line = some j →
        j.isObject = true → GrantLog.WellTyped j := by
  constructor
  · rintro ⟨t, total⟩
    exact (GrantLog.parseFile_ok_iff parse trunc content).mp ⟨t, total.returns⟩
  · intro fine
    obtain ⟨t, returns⟩ := (GrantLog.parseFile_ok_iff parse trunc content).mpr fine
    refine ⟨t, returns, fun id r => GrantLog.lookup_parseFile returns id, ?_⟩
    intro s mtime onExpire now clean modified
    -- a file that is neither dirty nor unchanged is read
    have examines : s.Examines (some ⟨content, mtime⟩) ⟨content, mtime⟩ := ⟨rfl, clean, modified⟩
    have taken := GrantStore.refresh_of_examines parse trunc onExpire now examines
    rw [returns] at taken
    exact ⟨_, _, taken, rfl, rfl⟩

open LogExample in
/-- A line whose id is a number, behind a grant that is well-formed: start-up ends with an
exception. -/
theorem grant_log_unreadable :
    let lines := [GrantTable.line (grant "g_1" 9), .obj [("id", .int 1)]]
    (∃ line ∈ Lines.lines '\n' (file lines),
        GrantLog.HeldBy (knowing lines) integral (grant "g_1" 9) line) ∧
      GrantLog.parseFile (knowing lines) integral (file lines) = .error (.typeError 302) ∧
      GrantStore.refreshOnWorker (knowing lines) integral true {} (some ⟨file lines, 5⟩) 7 =
        .error (.typeError 302) := by
  intro lines
  refine ⟨⟨(GrantTable.line (grant "g_1" 9)).write, by decide +kernel, ?_⟩, rfl, rfl⟩
  rw [GrantLog.heldBy_iff]
  exact ⟨by decide, _, rfl, GrantTable.ofLine_line _⟩

end Perfacet
