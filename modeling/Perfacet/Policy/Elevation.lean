import Mathlib.Logic.Relation
import Perfacet.Lib.Extremum
import Perfacet.Policy.Access

/-!
# How far grants raise a rank

A record of the grant log says its rank twice: by the name of a level, and by the number that
the name had when the record was written. The name is checked where a record is made; the
number is what counts once the log is read again.

`trunc` is the conversion of a number that is not an integer.

## Main definitions

* `GrantRecord.InForce` — a grant that counts for an agent
* `JsonlGrantStore.load` — the table of a file
* `GrantRecord.Sound` — the number of a record is the rank of its name, and below the ceiling

## Main results

* `GrantTable.effectiveBump_le_iff`, `GrantTable.le_shortestRemainingMs_iff` — the two scans
* `JsonlGrantStore.load_append` — a record that was appended is read back
* `within_ceiling_iff` — when grants never exceed the ceiling
-/

namespace Perfacet

/-! ## The scans of the table -/

/-- A grant that counts for an agent. -/
structure GrantRecord.InForce (g : GrantRecord) (agentId : String) (now : UInt64) : Prop where
  agent : g.agent = agentId
  approved : g.status = "approved"
  unexpired : now < g.expiresAt

theorem GrantRecord.inForce_iff {g : GrantRecord} {agentId : String} {now : UInt64} :
    g.InForce agentId now ↔ g.agent = agentId ∧ g.status = "approved" ∧ now < g.expiresAt :=
  ⟨fun h => ⟨h.agent, h.approved, h.unexpired⟩, fun ⟨agent, approved, unexpired⟩ =>
    ⟨agent, approved, unexpired⟩⟩

instance (g : GrantRecord) (agentId : String) (now : UInt64) : Decidable (g.InForce agentId now) :=
  decidable_of_iff _ GrantRecord.inForce_iff.symm

namespace GrantTable

variable {t t' : GrantTable} {agentId : String} {now : UInt64} {rank : Rank}

theorem effectiveBump_eq (t : GrantTable) (agentId : String) (now : UInt64) :
    t.effectiveBump agentId now =
      Extremum.largest (fun e => e.2.InForce agentId now) (fun e => e.2.rank) 0 t.entries := by
  unfold effectiveBump Extremum.largest
  congr 1
  funext best e
  simp only [GrantRecord.inForce_iff, ge_iff_le, gt_iff_lt, ← Std.not_le (b := now)]
  split_ifs <;> tauto

theorem shortestRemainingMs_eq (t : GrantTable) (agentId : String) (now : UInt64) :
    t.shortestRemainingMs agentId now = Extremum.smallest (fun e => e.2.InForce agentId now)
      (fun e => e.2.expiresAt - now) 0xFFFFFFFFFFFFFFFF t.entries := by
  unfold shortestRemainingMs Extremum.smallest
  congr 1
  funext best e
  simp only [GrantRecord.inForce_iff, ge_iff_le, ← Std.not_le (b := now)]
  split_ifs <;> tauto

/-- A bound holds of the rank that grants give an agent if it holds of every grant in force. -/
theorem effectiveBump_iff {p : Rank → Prop} (down : ∀ {x y}, x ≤ y → p y → p x) (zero : p 0) :
    p (t.effectiveBump agentId now) ↔
      ∀ id g, t.lookup id = some g → g.InForce agentId now → p g.rank := by
  rw [effectiveBump_eq, Extremum.largest_iff down, and_iff_right zero]
  constructor
  · intro bounded id g found
    exact bounded ⟨id, g⟩ (UnorderedMap.mem_entries_iff.mpr found)
  · intro bounded e member
    exact bounded e.1 e.2 (UnorderedMap.mem_entries_iff.mp member)

theorem effectiveBump_le_iff : t.effectiveBump agentId now ≤ rank ↔
    ∀ id g, t.lookup id = some g → g.InForce agentId now → g.rank ≤ rank :=
  effectiveBump_iff (fun less bounded => UInt16.le_trans less bounded) (by simp)

theorem effectiveBump_lt_iff (positive : 0 < rank) : t.effectiveBump agentId now < rank ↔
    ∀ id g, t.lookup id = some g → g.InForce agentId now → g.rank < rank :=
  effectiveBump_iff (fun less bounded => Std.lt_of_le_of_lt less bounded) positive

/-- The shortest time that a grant has left is a lower bound of all of them. -/
theorem shortestRemainingMs_le {id : String} {g : GrantRecord} (found : t.lookup id = some g)
    (inForce : g.InForce agentId now) :
    t.shortestRemainingMs agentId now ≤ g.expiresAt - now := by
  rw [shortestRemainingMs_eq]
  exact Extremum.smallest_le (UnorderedMap.mem_entries_iff.mpr found) inForce

end GrantTable

/-! ## Reading the log -/

section Reading

variable (trunc : FloatText → ℤ)

/-- What `parseFile` reads from a line that is an object. -/
def GrantRecord.ofLine (j : Json) : Except JsonError GrantRecord := do
  let id ← j.valueString "id" ""
  let agent ← j.valueString "agent" ""
  let bumpTo ← j.valueString "bump_to" ""
  let rank ← j.valueAs (Json.getInt trunc) "rank" 0
  let status ← j.valueString "status" ""
  let expiresAt ← j.valueAs (Json.getUnsigned trunc) "expiresAt" 0
  let tsMs ← j.valueAs (Json.getUnsigned trunc) "ts_ms" 0
  -- The number is narrowed to a rank: it wraps around.
  pure { id := id, agent := agent, bumpTo := bumpTo, rank := UInt16.ofInt rank, status := status,
         expiresAt := expiresAt, tsMs := tsMs }

namespace GrantTable

/-- One round of the loop of `parseFile`; what is not JSON is no value at all. -/
def addLine (t : GrantTable) : Option Json → Except JsonError GrantTable
  | some (.obj members) => do
    let r ← GrantRecord.ofLine trunc (.obj members)
    pure (if r.id = "" then t else t.insert r.id r)
  | _ => .ok t

/-- `JsonlGrantStore::parseFile`. -/
def parseFile (lines : List (Option Json)) : Except JsonError GrantTable :=
  lines.foldlM (addLine trunc) ∅

end GrantTable

/-- A line holds a record. -/
structure GrantRecord.ReadFrom (r : GrantRecord) (line : Option Json) : Prop where
  named : r.id ≠ ""
  read : ∃ members, line = some (.obj members) ∧ ofLine trunc (.obj members) = .ok r

/-- A record counts: no later line of the file holds one with its id. -/
def GrantRecord.Counts (r : GrantRecord) (lines : List (Option Json)) : Prop :=
  ∃ earlier line later, lines = earlier ++ line :: later ∧ r.ReadFrom trunc line ∧
    ∀ l ∈ later, ∀ r' : GrantRecord, r'.ReadFrom trunc l → r'.id ≠ r.id

variable {trunc} {r r' : GrantRecord} {t t' : GrantTable} {line : Option Json}
  {lines : List (Option Json)}

theorem GrantRecord.ReadFrom.eq (read : r.ReadFrom trunc line) (read' : r'.ReadFrom trunc line) :
    r = r' := by
  obtain ⟨-, members, rfl, parsed⟩ := read
  obtain ⟨-, members', same, parsed'⟩ := read'
  cases same
  exact Except.ok.inj (parsed.symm.trans parsed')

theorem GrantRecord.counts_append_singleton : r.Counts trunc (lines ++ [line]) ↔
    r.ReadFrom trunc line ∨
      (r.Counts trunc lines ∧ ∀ r' : GrantRecord, r'.ReadFrom trunc line → r'.id ≠ r.id) := by
  constructor
  · rintro ⟨earlier, l, later, split, read, last⟩
    rcases List.eq_nil_or_concat' later with rfl | ⟨later, l', rfl⟩
    · obtain ⟨rfl, same⟩ := List.append_inj' split rfl
      cases same
      exact .inl read
    · rw [← List.cons_append, ← List.append_assoc] at split
      obtain ⟨rfl, same⟩ := List.append_inj' split rfl
      cases same
      exact .inr ⟨⟨earlier, l, later, rfl, read, fun x member => last x (by simp [member])⟩,
        last _ (by simp)⟩
  · rintro (read | ⟨⟨earlier, l, later, rfl, read, last⟩, other⟩)
    · exact ⟨lines, line, [], rfl, read, by simp⟩
    · refine ⟨earlier, l, later ++ [line], by simp, read, fun x member => ?_⟩
      rcases List.mem_append.mp member with old | new
      · exact last x old
      · exact List.mem_singleton.mp new ▸ other

namespace GrantTable

/-- A round of the loop puts the record of its line into the table, if there is one. -/
theorem addLine_spec (added : addLine trunc t line = .ok t') :
    (t' = t ∧ ∀ r : GrantRecord, ¬ r.ReadFrom trunc line) ∨
      ∃ r : GrantRecord, r.ReadFrom trunc line ∧ t' = t.insert r.id r := by
  unfold addLine at added
  split at added
  · next members =>
    cases parsed : GrantRecord.ofLine trunc (.obj members) with
    | error e =>
      rw [parsed] at added
      cases added
    | ok r =>
      rw [parsed] at added
      obtain rfl := Except.ok.inj added
      by_cases named : r.id = ""
      · refine .inl ⟨if_pos named, ?_⟩
        rintro r' ⟨named', members', same, parsed'⟩
        cases same
        rw [← Except.ok.inj (parsed.symm.trans parsed')] at named'
        exact named' named
      · exact .inr ⟨r, ⟨named, members, rfl, parsed⟩, if_neg named⟩
  · next other =>
    refine .inl ⟨(Except.ok.inj added).symm, ?_⟩
    rintro r ⟨-, members, same, -⟩
    exact other members same

theorem parseFile_append (lines : List (Option Json)) (line : Option Json) :
    parseFile trunc (lines ++ [line]) =
      parseFile trunc lines >>= fun t => addLine trunc t line := by
  rw [parseFile, List.foldlM_append]
  simp [parseFile]

/-- The table of a file holds the records that count. -/
theorem lookup_parseFile (loaded : parseFile trunc lines = .ok t) {id : String} :
    t.lookup id = some r ↔ r.id = id ∧ r.Counts trunc lines := by
  induction lines using List.reverseRecOn generalizing t with
  | nil =>
    obtain rfl := Except.ok.inj loaded
    simp [AList.lookup_empty, GrantRecord.Counts]
  | append_singleton lines line ih =>
    rw [parseFile_append] at loaded
    cases before : parseFile trunc lines with
    | error e =>
      rw [before] at loaded
      cases loaded
    | ok t₀ =>
      rw [before] at loaded
      rw [GrantRecord.counts_append_singleton]
      rcases addLine_spec loaded with ⟨rfl, none⟩ | ⟨r₀, read, rfl⟩
      · rw [ih before]
        simp [none]
      · rw [UnorderedMap.lookup_insert]
        have only : ∀ r' : GrantRecord, r'.ReadFrom trunc line ↔ r' = r₀ := fun r' =>
          ⟨fun read' => read'.eq read, fun same => same ▸ read⟩
        simp only [only, forall_eq]
        split_ifs with here
        · constructor
          · intro same
            obtain rfl := Option.some.inj same
            exact ⟨here.symm, .inl rfl⟩
          · rintro ⟨named, rfl | ⟨-, other⟩⟩
            · rfl
            · exact absurd (here.symm.trans named.symm) other
        · rw [ih before]
          constructor
          · rintro ⟨named, counts⟩
            exact ⟨named, .inr ⟨counts, fun same => here (named.symm.trans same.symm)⟩⟩
          · rintro ⟨named, rfl | ⟨counts, -⟩⟩
            · exact absurd named.symm here
            · exact ⟨named, counts⟩

/-- A line of the log is read as the record it was made of. -/
theorem ofLine_line (r : GrantRecord) : GrantRecord.ofLine trunc (GrantTable.line r) = .ok r := by
  have members : ∀ key, (GrantTable.line r).field? key =
      if key = "ts_ms" then some (.int r.tsMs.toNat)
      else if key = "expiresAt" then some (.int r.expiresAt.toNat)
      else if key = "status" then some (.str r.status)
      else if key = "rank" then some (.int r.rank.toNat)
      else if key = "bump_to" then some (.str r.bumpTo)
      else if key = "agent" then some (.str r.agent)
      else if key = "id" then some (.str r.id) else none := by
    intro key
    simp only [GrantTable.line, Json.ofMembers, Json.field?, List.foldl_cons, List.foldl_nil,
      Json.lookup_setField, List.lookup_nil]
  rw [GrantRecord.ofLine, Json.valueString_of_field? (members "id"),
    Json.valueString_of_field? (members "agent"), Json.valueString_of_field? (members "bump_to"),
    Json.valueAs_of_field? (members "rank"), Json.valueString_of_field? (members "status"),
    Json.valueAs_of_field? (members "expiresAt"), Json.valueAs_of_field? (members "ts_ms")]
  -- A rank and a time are no larger than their types hold, so nothing is narrowed.
  have narrow : UInt16.ofInt (r.rank.toNat : ℤ) = r.rank := by
    have small := r.rank.toNat_lt
    rw [UInt16.ofInt, Int.emod_eq_of_lt (by omega) (by omega), Int.toNat_natCast,
      UInt16.ofNat_toNat]
  have time : ∀ n : UInt64, UInt64.ofInt (n.toNat : ℤ) = n := by
    intro n
    have small := n.toNat_lt
    rw [UInt64.ofInt, Int.emod_eq_of_lt (by omega) (by omega), Int.toNat_natCast,
      UInt64.ofNat_toNat]
  simp only [Json.getString, Json.getInt, Json.getUnsigned, time]
  change Except.ok { r with rank := UInt16.ofInt r.rank.toNat } = _
  rw [narrow]

/-- A record that `appendLine` writes is read back from the file. -/
theorem parseFile_append_line (loaded : parseFile trunc lines = .ok t) (named : r.id ≠ "") :
    parseFile trunc (lines ++ [some (GrantTable.line r)]) = .ok (t.insert r.id r) := by
  obtain ⟨members, object⟩ : ∃ members, GrantTable.line r = .obj members := ⟨_, rfl⟩
  have read : GrantRecord.ofLine trunc (.obj members) = .ok r := object ▸ ofLine_line r
  rw [parseFile_append, loaded, object]
  change (GrantRecord.ofLine trunc (.obj members) >>= _) = _
  rw [read]
  exact congrArg Except.ok (if_neg named)

/-! ## Making grants -/

/-- `approveById`, on the table that its refresh leaves. -/
def approveById (t : GrantTable) (ttlMs : UInt64) (id : String) (now ttlOverride : UInt64) :
    Option GrantTable :=
  match t.lookup id with
  | none => none
  | some r =>
    let ttl := if 0 < ttlOverride then ttlOverride else ttlMs
    some (t.insert r.id { r with status := "approved", expiresAt := now + ttl, tsMs := now })

/-- `approveDirect`, with the identifier that it draws. -/
def approveDirect (t : GrantTable) (ttlMs : UInt64) (id agent : String) (rank : Rank)
    (bumpTo : String) (now : UInt64) : GrantTable :=
  t.insert id { id := id, agent := agent, bumpTo := bumpTo, rank := rank, status := "approved",
                expiresAt := now + ttlMs, tsMs := now }

end GrantTable

end Reading

/-! ## The ceiling -/

section Ceiling

variable (tax : Taxonomy) (maxBump : Rank)

/-- The number of a record is the rank of its name, and at most the ceiling. -/
structure GrantRecord.Sound (r : GrantRecord) : Prop where
  known : tax.parse r.bumpTo = some r.rank
  below : r.rank ≤ maxBump

namespace GrantTable

/-- A grant is asked for or approved. Only where the rank is taken from a name is it checked, by
the gateway's own tool and by the command line. -/
inductive Grants (ttlMs : UInt64) (t : GrantTable) : GrantTable → Prop
  | appendPending (id agent : String) {bumpTo : String} {rank : Rank} (now : UInt64) :
      tax.parse bumpTo = some rank → rank ≤ maxBump →
      Grants ttlMs t (t.insert id (pending id agent bumpTo rank now))
  | approveById {t' : GrantTable} (id : String) (now ttlOverride : UInt64) :
      t.approveById ttlMs id now ttlOverride = some t' → Grants ttlMs t t'
  | approveDirect (id agent : String) {bumpTo : String} {rank : Rank} (now : UInt64) :
      tax.parse bumpTo = some rank → rank ≤ maxBump →
      Grants ttlMs t (t.approveDirect ttlMs id agent rank bumpTo now)

/-- No agent is raised above the ceiling, and what raises one has the rank of its name. -/
def Within (t : GrantTable) : Prop :=
  ∀ agentId now, t.effectiveBump agentId now ≤ maxBump ∧
    ∀ id g, t.lookup id = some g → g.InForce agentId now → tax.parse g.bumpTo = some g.rank

/-- Every record is sound, in force or not. -/
def AllSound (t : GrantTable) : Prop := ∀ id g, t.lookup id = some g → g.Sound tax maxBump

variable {tax maxBump} {t t' : GrantTable} {ttlMs : UInt64}

theorem AllSound.within (sound : t.AllSound tax maxBump) : t.Within tax maxBump := by
  intro agentId now
  constructor
  · exact effectiveBump_le_iff.mpr fun id g found _ => (sound id g found).below
  · exact fun id g found _ => (sound id g found).known

theorem AllSound.insert (sound : t.AllSound tax maxBump) (id : String) {r : GrantRecord}
    (new : r.Sound tax maxBump) : AllSound tax maxBump (t.insert id r) := by
  intro id' g found
  rw [UnorderedMap.lookup_insert] at found
  split at found
  · exact Option.some.inj found ▸ new
  · exact sound id' g found

theorem AllSound.step (sound : t.AllSound tax maxBump) (step : Grants tax maxBump ttlMs t t') :
    t'.AllSound tax maxBump := by
  cases step with
  | appendPending id agent now known below => exact sound.insert id ⟨known, below⟩
  | approveDirect id agent now known below => exact sound.insert id ⟨known, below⟩
  | approveById id now ttlOverride approved =>
    unfold GrantTable.approveById at approved
    split at approved
    · cases approved
    · next r found =>
      -- The approval keeps the name and the number.
      obtain rfl := Option.some.inj approved
      have old := sound id r found
      exact sound.insert r.id ⟨old.known, old.below⟩

/-- A record that is approved at time zero, for a millisecond, is in force then. -/
theorem sound_of_within {r : GrantRecord} (found : t.lookup r.id = some r)
    (within : ∀ t', Relation.ReflTransGen (Grants tax maxBump ttlMs) t t' → t'.Within tax maxBump) :
    r.Sound tax maxBump := by
  let approved : GrantRecord := { r with status := "approved", expiresAt := 1, tsMs := 0 }
  have step : Grants tax maxBump ttlMs t (t.insert r.id approved) := by
    refine .approveById r.id 0 1 ?_
    rw [GrantTable.approveById, found]
    rfl
  have here : AList.lookup r.id (t.insert r.id approved) = some approved := AList.lookup_insert _
  have inForce : approved.InForce r.agent 0 := ⟨rfl, rfl, (by decide : (0 : UInt64) < 1)⟩
  obtain ⟨bounded, named⟩ := within _ (.single step) r.agent 0
  exact ⟨named r.id approved here inForce,
    effectiveBump_le_iff.mp bounded r.id approved here inForce⟩

end GrantTable

end Ceiling

/-- Whatever is granted after a file was loaded, no agent is raised above the ceiling and what
raises one has the rank of its name, if and only if this holds of every record of the file that
counts, approved or not. -/
theorem within_ceiling_iff {trunc : FloatText → ℤ} {tax : Taxonomy} {maxBump : Rank}
    {ttlMs : UInt64} {lines : List (Option Json)} {t : GrantTable}
    (loaded : GrantTable.parseFile trunc lines = .ok t) :
    (∀ t', Relation.ReflTransGen (GrantTable.Grants tax maxBump ttlMs) t t' →
        t'.Within tax maxBump) ↔
      ∀ r : GrantRecord, r.Counts trunc lines → r.Sound tax maxBump := by
  constructor
  · intro within r counts
    exact GrantTable.sound_of_within ((GrantTable.lookup_parseFile loaded).mpr ⟨rfl, counts⟩) within
  · intro sound t' later
    -- what the table holds at first is what the log says
    have first : t.AllSound tax maxBump := fun id g found =>
      sound g ((GrantTable.lookup_parseFile loaded).mp found).2
    have all : t'.AllSound tax maxBump := by
      induction later with
      | refl => exact first
      | tail _ step ih => exact ih.step step
    exact all.within

/-! ## An example -/

namespace ElevationExample

/-- Three levels, of which the middle one is the ceiling. -/
def levels : Taxonomy := ⟨["intern", "engineer", "admin"]⟩

/-- A grant of a level that does not end soon. -/
def grant (bumpTo : String) (rank : Rank) : GrantRecord where
  id := "g_1"
  agent := "bot"
  bumpTo := bumpTo
  rank := rank
  status := "approved"
  expiresAt := 9000000000000
  tsMs := 0

/-- A file with one grant. -/
def file (r : GrantRecord) : List (Option Json) := [some (GrantTable.line r)]

theorem parseFile_file (r : GrantRecord) (named : r.id ≠ "") :
    GrantTable.parseFile (fun _ => 0) (file r) = .ok (AList.insert r.id r ∅) :=
  have empty : GrantTable.parseFile (fun _ => 0) [] = .ok ∅ := rfl
  GrantTable.parseFile_append_line empty named

end ElevationExample

open ElevationExample in
/-- A file with a grant up to the ceiling. -/
theorem within_ceiling_iff_engineer :
    GrantTable.parseFile (fun _ => 0) (file (grant "engineer" 1)) =
        .ok (AList.insert "g_1" (grant "engineer" 1) ∅) ∧
      ∀ t', Relation.ReflTransGen (GrantTable.Grants levels 1 900000)
        (AList.insert "g_1" (grant "engineer" 1) ∅) t' → t'.Within levels 1 := by
  have loaded := parseFile_file (grant "engineer" 1) (by decide)
  refine ⟨loaded, (within_ceiling_iff loaded).mpr fun r counts => ?_⟩
  have found := (GrantTable.lookup_parseFile loaded).mpr ⟨rfl, counts⟩
  rw [UnorderedMap.lookup_insert] at found
  split at found
  · obtain rfl := Option.some.inj found
    exact ⟨by decide, by decide⟩
  · simp [AList.lookup_empty] at found

open ElevationExample in
/-- A grant that was written when the ceiling was higher. -/
theorem ceiling_exceeded : ∃ t,
    GrantTable.parseFile (fun _ => 0) (file (grant "admin" 2)) = .ok t ∧
      1 < t.effectiveBump "bot" 0 :=
  ⟨_, parseFile_file (grant "admin" 2) (by decide), by decide⟩

end Perfacet
