import Perfacet.Policy.YamlLoad

/-!
# The table of levels

The constructor of `Taxonomy` enters the names into a hash map, in a loop whose counter is a rank.
A rank has 16 bits, so that for a long list the counter never reaches the length. The loop ends
all the same: a round either throws or enters a name that was not there, and behind the last rank
the counter is back at a name that is there.

## Main definitions

* `Taxonomy.Table` — the members of the class
* `Taxonomy.Table.construct` — the constructor
* `Taxonomy.Orderly` — the lists of names that it accepts
* `Taxonomy.Table.IsOrderIso` — names and ranks are the same thing, in the same order

## Main results

* `Taxonomy.Table.construct_eq_make` — a list of names is all that a table amounts to
* `Taxonomy.Table.construct_spec` — the constructor returns for the orderly lists, and then names
  and ranks correspond
-/

namespace Perfacet.Taxonomy

/-- The members of the class: the names, and the map from a name to its rank. -/
structure Table where
  levels : List String
  byName : UnorderedMap String Rank

namespace Table

def parse (t : Table) (name : String) : Option Rank := t.byName.lookup name

/-- `levels_.at(r)`, which throws behind the last name. -/
def nameOf (t : Table) (r : Rank) : Option String := t.levels[r.toNat]?

def maxRank (t : Table) : Rank :=
  if t.levels = [] then 0 else UInt16.ofNat (t.levels.length - 1)

/-- The loop of the constructor from the counter `i` on, unless it goes on for more than `fuel`
rounds. Behind the last rank the counter is 0 again. -/
def enter (levels : List String) :
    ℕ → Rank → UnorderedMap String Rank → Option (Except LoadError (UnorderedMap String Rank))
  | 0, _, _ => none
  | fuel + 1, i, byName =>
    match levels[i.toNat]? with
    | none => some (.ok byName)
    -- the counter is narrow, and wraps around after 65535
    | some name =>
      if name = "" then some (.error (.runtime (Json.ofUnicode "access.levels 含空名字")))
      else if (byName.lookup name).isSome then
        some (.error (.runtime (Json.ofUnicode "access.levels 重复: " ++ name)))
      else enter levels fuel (i + 1) (byName.insert name i)

/-- The constructor. -/
def construct (fuel : ℕ) (levels : List String) : Option (Except LoadError Table) :=
  if levels = [] then some (.error (.runtime (Json.ofUnicode "access.levels 不能为空")))
  else (enter levels fuel 0 ∅).map fun entered => entered.map fun byName => ⟨levels, byName⟩

end Table

/-! ## What the constructor accepts -/

/-- Levels that can be told apart, and that have a rank each. -/
structure Orderly (levels : List String) : Prop where
  nonempty : levels ≠ []
  named : "" ∉ levels
  distinct : levels.Nodup
  ranked : levels.length ≤ 65535

/-- The names of the table are the names of the list, the ranks are the places in it, and a name
stands for a rank as the rank does for the name. -/
structure Table.IsOrderIso (t : Table) (levels : List String) : Prop where
  known : ∀ name, (∃ r, t.parse name = some r) ↔ name ∈ levels
  ranks : ∀ r : Rank, (∃ name, t.nameOf r = some name) ↔ r.toNat < levels.length
  inverse : ∀ name r, t.parse name = some r ↔ t.nameOf r = some name
  ordered : ∀ (i j : Fin levels.length) (r s : Rank), t.parse levels[i] = some r →
    t.parse levels[j] = some s → (r < s ↔ i < j)
  maxRank : t.maxRank.toNat = levels.length - 1

/-! ## The loop -/

variable {levels : List String} {k fuel : ℕ} {i : Rank} {byName : UnorderedMap String Rank}

/-- The map after `k` rounds. -/
structure Entered (levels : List String) (k : ℕ) (byName : UnorderedMap String Rank) : Prop where
  within : k ≤ levels.length
  ranked : k ≤ 2 ^ 16
  named : "" ∉ levels.take k
  distinct : (levels.take k).Nodup
  placed : ∀ name (r : Rank),
    byName.lookup name = some r ↔ r.toNat < k ∧ levels[r.toNat]? = some name

namespace Entered

theorem start : Entered levels 0 ∅ where
  within := Nat.zero_le _
  ranked := Nat.zero_le _
  named := List.not_mem_nil
  distinct := List.nodup_nil
  placed name r := by simp [AList.lookup_empty]

/-- The names in the map are those that the loop has been through. -/
theorem isSome_lookup_iff (entered : Entered levels k byName) (name : String) :
    (byName.lookup name).isSome ↔ name ∈ levels.take k := by
  rw [Option.isSome_iff_exists, List.mem_take_iff_getElem]
  constructor
  · rintro ⟨r, found⟩
    obtain ⟨low, here⟩ := (entered.placed name r).mp found
    obtain ⟨inside, same⟩ := List.getElem?_eq_some_iff.mp here
    exact ⟨r.toNat, lt_min low inside, same⟩
  · rintro ⟨j, low, same⟩
    obtain ⟨low, inside⟩ := lt_min_iff.mp low
    have small : (UInt16.ofNat j).toNat = j :=
      UInt16.toNat_ofNat_of_lt' (low.trans_le entered.ranked)
    refine ⟨UInt16.ofNat j, (entered.placed name _).mpr ?_⟩
    rw [small]
    exact ⟨low, List.getElem?_eq_some_iff.mpr ⟨inside, same⟩⟩

/-- A round that does not throw. -/
theorem next (entered : Entered levels k byName) (room : k < 2 ^ 16) {name : String}
    (here : levels[k]? = some name) (named : name ≠ "") (new : name ∉ levels.take k) :
    Entered levels (k + 1) (byName.insert name (UInt16.ofNat k)) := by
  obtain ⟨inside, same⟩ := List.getElem?_eq_some_iff.mp here
  have grown : levels.take (k + 1) = levels.take k ++ [name] := by
    rw [List.take_add_one, here, Option.toList_some]
  have small : (UInt16.ofNat k).toNat = k := UInt16.toNat_ofNat_of_lt' room
  refine ⟨inside, room, ?_, ?_, fun name' r => ?_⟩
  · rw [grown, List.mem_append, List.mem_singleton, not_or]
    exact ⟨entered.named, named.symm⟩
  · rw [grown, ← List.concat_eq_append]
    exact entered.distinct.concat new
  · rw [UnorderedMap.lookup_insert]
    split
    -- The name that was entered has this place and, being new, no earlier one.
    · next hit =>
      rw [hit, Option.some.injEq]
      constructor
      · rintro rfl
        rw [small]
        exact ⟨Nat.lt_succ_self k, here⟩
      · rintro ⟨low, found⟩
        rcases Nat.lt_succ_iff_lt_or_eq.mp low with earlier | last
        · obtain ⟨inside', same'⟩ := List.getElem?_eq_some_iff.mp found
          exact absurd (List.mem_take_iff_getElem.mpr ⟨_, lt_min earlier inside', same'⟩) new
        · rw [← UInt16.toNat_inj, small, last]
    · next other =>
      rw [entered.placed]
      constructor
      · rintro ⟨low, found⟩
        exact ⟨low.trans (Nat.lt_succ_self k), found⟩
      · rintro ⟨low, found⟩
        rcases Nat.lt_succ_iff_lt_or_eq.mp low with earlier | last
        · exact ⟨earlier, found⟩
        · rw [last, here, Option.some.injEq] at found
          exact absurd found.symm other

end Entered

/-- What is left of `make` when it has been through `k` names. -/
private def resume (levels : List String) (k : ℕ) : Except LoadError Taxonomy := do
  let seen ← ((levels.take (2 ^ 16)).drop k).foldlM addLevel (levels.take k)
  if levels.length < 2 ^ 16 then pure ⟨seen⟩
  else throw (.runtime (Json.ofUnicode "access.levels 重复: " ++ levels.headD ""))

private theorem drop_take_of_here (room : k < 2 ^ 16) {name : String}
    (here : levels[k]? = some name) :
    (levels.take (2 ^ 16)).drop k = name :: (levels.take (2 ^ 16)).drop (k + 1) := by
  obtain ⟨inside, same⟩ := List.getElem?_eq_some_iff.mp here
  have inside' : k < (levels.take (2 ^ 16)).length := by
    rw [List.length_take]
    exact lt_min room inside
  rw [List.drop_eq_getElem_cons inside', List.getElem_take, same]

private theorem resume_next (room : k < 2 ^ 16) {name : String} (here : levels[k]? = some name)
    (named : name ≠ "") (new : name ∉ levels.take k) : resume levels k = resume levels (k + 1) := by
  have grown : levels.take (k + 1) = levels.take k ++ [name] := by
    rw [List.take_add_one, here, Option.toList_some]
  rw [resume, drop_take_of_here room here, List.foldlM_cons, addLevel, if_neg named, if_neg new,
    resume, grown]
  rfl

private theorem resume_error (room : k < 2 ^ 16) {name : String} (here : levels[k]? = some name)
    {e : LoadError} (thrown : addLevel (levels.take k) name = .error e) :
    resume levels k = .error e := by
  rw [resume, drop_take_of_here room here, List.foldlM_cons, thrown]
  rfl

/-- What is known of how the loop ends: as the loop over the list of the names does, and it throws
unless the names are in order. -/
private structure Outcome (levels : List String) (k : ℕ)
    (out : Except LoadError (UnorderedMap String Rank)) : Prop where
  same : out.map (fun _ => ⟨levels⟩) = resume levels k
  entered : ∀ byName, out = .ok byName →
    Entered levels levels.length byName ∧ levels.length < 2 ^ 16
  refused : ∀ e, out = .error e → ¬ Orderly levels

private theorem Outcome.of_error {e : LoadError} (resumed : resume levels k = .error e)
    (refused : ¬ Orderly levels) : Outcome levels k (.error e) where
  same := resumed.symm
  entered byName returned := by cases returned
  refused _ _ := refused

/-- The loop comes to an end. -/
private theorem enter_spec (entered : Entered levels k byName)
    (enough : levels.length < fuel + k) :
    ∃ out, Table.enter levels fuel (UInt16.ofNat k) byName = some out ∧ Outcome levels k out := by
  induction fuel generalizing k byName with
  | zero =>
    rw [Nat.zero_add] at enough
    exact absurd entered.within (Nat.not_le.mpr enough)
  | succ fuel ih =>
    -- the counter counts the names as long as it has not wrapped
    rcases entered.ranked.lt_or_eq with room | full
    · have small : (UInt16.ofNat k).toNat = k := UInt16.toNat_ofNat_of_lt' room
      rw [Table.enter, small]
      cases here : levels[k]? with
      | none =>
        obtain rfl : k = levels.length :=
          Nat.le_antisymm entered.within (List.getElem?_eq_none_iff.mp here)
        refine ⟨_, rfl, ?_, fun _ returned => ?_, fun _ failed => by cases failed⟩
        · rw [resume, List.take_of_length_le (Nat.le_of_lt room), List.drop_length,
            List.take_length, List.foldlM_nil]
          exact (if_pos room).symm
        · exact ⟨Except.ok.inj returned ▸ entered, room⟩
      | some name =>
        dsimp only
        by_cases empty : name = ""
        · rw [if_pos empty]
          refine ⟨_, rfl, .of_error (resume_error room here (if_pos empty)) fun orderly => ?_⟩
          exact orderly.named (empty ▸ List.mem_of_getElem? here)
        · rw [if_neg empty]
          by_cases old : name ∈ levels.take k
          · rw [if_pos ((entered.isSome_lookup_iff name).mpr old)]
            refine ⟨_, rfl, .of_error (resume_error room here ?_) fun orderly => ?_⟩
            · exact (if_neg empty).trans (if_pos old)
            · obtain ⟨j, low, same⟩ := List.mem_take_iff_getElem.mp old
              obtain ⟨inside, again⟩ := List.getElem?_eq_some_iff.mp here
              have twice := orderly.distinct.getElem_inj_iff.mp (same.trans again.symm)
              omega
          · have next : UInt16.ofNat k + 1 = UInt16.ofNat (k + 1) := (UInt16.ofNat_add k 1).symm
            rw [if_neg (mt (entered.isSome_lookup_iff name).mp old), next]
            -- the name is new: the loop goes on with the next one
            obtain ⟨out, looped, outcome⟩ :=
              ih (entered.next room here empty old) (by omega)
            exact ⟨out, looped, (resume_next room here empty old).symm ▸ outcome.same,
              outcome.entered, outcome.refused⟩
    -- The counter has wrapped, and the first name is there.
    · have long : 2 ^ 16 ≤ levels.length := full ▸ entered.within
      obtain ⟨first, others, rfl⟩ :=
        List.exists_cons_of_length_pos (Nat.lt_of_lt_of_le (by decide) long)
      have old : first ∈ (first :: others).take k := by
        rw [full]
        exact List.mem_cons_self
      have named : first ≠ "" := fun empty => entered.named (empty ▸ old)
      have wrapped : (UInt16.ofNat k).toNat = 0 := by
        rw [full]
        rfl
      rw [Table.enter, wrapped, List.getElem?_cons_zero]
      dsimp only
      rw [if_neg named, if_pos ((entered.isSome_lookup_iff first).mpr old)]
      refine ⟨_, rfl, .of_error ?_ fun orderly => ?_⟩
      · rw [resume, full, List.drop_eq_nil_of_le (List.length_take_le ..), List.foldlM_nil]
        exact if_neg (Nat.not_lt.mpr long)
      · have := orderly.ranked
        omega

/-- A loop that has come to an end does not depend on how long it might have gone on. -/
private theorem enter_mono {out : Except LoadError (UnorderedMap String Rank)} {more : ℕ}
    (looped : Table.enter levels fuel i byName = some out) (le : fuel ≤ more) :
    Table.enter levels more i byName = some out := by
  induction fuel generalizing more i byName with
  | zero => cases looped
  | succ fuel ih =>
    obtain ⟨more, rfl⟩ := Nat.exists_eq_add_of_le' (Nat.one_le_of_lt le)
    rw [Table.enter] at looped ⊢
    split at looped
    · exact looped
    · split_ifs at looped ⊢
      · exact looped
      · exact looped
      · exact ih looped (Nat.le_of_succ_le_succ le)

/-! ## The constructor -/

/-- The constructor returns or throws, after at most one round more than there are names. -/
private theorem construct_ends (levels : List String) :
    ∃ out, (∀ fuel, levels.length < fuel → Table.construct fuel levels = some out) ∧
      out.map (fun t => ⟨t.levels⟩) = make levels ∧
      (∀ t, out = .ok t → t.levels = levels ∧ Entered levels levels.length t.byName ∧
        levels ≠ [] ∧ levels.length < 2 ^ 16) ∧
      (∀ e, out = .error e → ¬ Orderly levels) := by
  by_cases nonempty : levels = []
  · refine ⟨.error (.runtime (Json.ofUnicode "access.levels 不能为空")),
      fun fuel _ => if_pos nonempty, ?_, fun t returned => ?_,
      fun e _ orderly => orderly.nonempty nonempty⟩
    · rw [make, reject, if_pos nonempty]
      rfl
    · cases returned
  · have room : levels.length < levels.length + 1 + 0 := Nat.lt_succ_self _
    obtain ⟨entered, looped, outcome⟩ := enter_spec Entered.start room
    refine ⟨entered.map fun byName => ⟨levels, byName⟩, fun fuel enough => ?_, ?_, ?_, ?_⟩
    · rw [Table.construct, if_neg nonempty,
        show Table.enter levels fuel 0 ∅ = some entered from enter_mono looped enough]
      rfl
    · rw [make, reject, if_neg nonempty]
      refine Eq.trans ?_ outcome.same
      cases entered <;> rfl
    · intro t returned
      cases entered with
      | error e => cases returned
      | ok byName =>
        obtain rfl := Except.ok.inj returned
        obtain ⟨all, room⟩ := outcome.entered byName rfl
        exact ⟨rfl, all, nonempty, room⟩
    · intro e failed
      cases entered with
      | error e' => exact outcome.refused e' rfl
      | ok byName => cases failed

/-- A table amounts to its list of names, also in what the constructor throws. -/
theorem Table.construct_eq_make (levels : List String) {fuel : ℕ} (enough : levels.length < fuel) :
    (Table.construct fuel levels).map (fun out => out.map fun t => ⟨t.levels⟩) =
      some (make levels) := by
  obtain ⟨out, ended, same, -⟩ := construct_ends levels
  rw [ended fuel enough, Option.map_some, same]

/-- Names and ranks correspond when every name has been entered. -/
private theorem Entered.isOrderIso {t : Table} (same : t.levels = levels)
    (entered : Entered levels levels.length t.byName) (nonempty : levels ≠ [])
    (room : levels.length < 2 ^ 16) : t.IsOrderIso levels := by
  have inverse (name : String) (r : Rank) : t.parse name = some r ↔ t.nameOf r = some name := by
    rw [Table.parse, Table.nameOf, same, entered.placed]
    refine and_iff_right_of_imp fun here => ?_
    exact (List.getElem?_eq_some_iff.mp here).1
  -- A rank that is read back is the place of the name.
  have place (i : Fin levels.length) (r : Rank) (parsed : t.parse levels[i] = some r) :
      r.toNat = i := by
    rw [inverse, Table.nameOf, same] at parsed
    obtain ⟨inside, again⟩ := List.getElem?_eq_some_iff.mp parsed
    have distinct := entered.distinct
    rw [List.take_length] at distinct
    exact distinct.getElem_inj_iff.mp again
  refine ⟨fun name => ?_, fun r => ?_, inverse, fun i j r s parsed parsed' => ?_, ?_⟩
  · rw [← Option.isSome_iff_exists, Table.parse, entered.isSome_lookup_iff, List.take_length]
  · rw [← Option.isSome_iff_exists, Table.nameOf, same, isSome_getElem?]
  · rw [UInt16.lt_iff_toNat_lt, place i r parsed, place j s parsed', Fin.lt_def]
  · rw [Table.maxRank, same, if_neg nonempty]
    exact UInt16.toNat_ofNat_of_lt' (Nat.lt_of_le_of_lt (Nat.sub_le _ _) room)

/-- The constructor comes to an end for a list of any length, and it returns if and only if the
list is not empty, holds no empty and no repeated name, and has at most 65535 names. Names and
ranks then correspond. -/
theorem Table.construct_spec (levels : List String) :
    ∃ out, (∀ fuel, levels.length < fuel → Table.construct fuel levels = some out) ∧
      ((∃ t, out = .ok t) ↔ Orderly levels) ∧
      ∀ t, out = .ok t → t.IsOrderIso levels := by
  obtain ⟨out, ended, made, returned, refused⟩ := construct_ends levels
  refine ⟨out, ended, ⟨?_, fun orderly => ?_⟩, fun t here => ?_⟩
  · rintro ⟨t, here⟩
    obtain ⟨-, entered, nonempty, room⟩ := returned t here
    have named := entered.named
    have distinct := entered.distinct
    rw [List.take_length] at named distinct
    exact ⟨nonempty, named, distinct, Nat.le_of_lt_succ room⟩
  · cases out with
    | error e => exact absurd orderly (refused e rfl)
    | ok t => exact ⟨t, rfl⟩
  · obtain ⟨same, entered, nonempty, room⟩ := returned t here
    exact entered.isOrderIso same nonempty room

/-- Three levels: the constructor returns, and the ranks are 0, 1 and 2. -/
theorem Table.construct_three :
    ∃ t, Table.construct 4 ["intern", "engineer", "admin"] = some (.ok t) ∧
      t.IsOrderIso ["intern", "engineer", "admin"] := by
  obtain ⟨out, ended, succeeds, corresponds⟩ :=
    Table.construct_spec ["intern", "engineer", "admin"]
  obtain ⟨t, rfl⟩ := succeeds.mpr ⟨by decide, by decide, by decide, by decide⟩
  exact ⟨t, ended 4 (by decide), corresponds t rfl⟩

end Perfacet.Taxonomy
