import Mathlib.Algebra.GroupWithZero.Nat
import Mathlib.Algebra.Order.BigOperators.Group.List
import Mathlib.Algebra.Order.Group.Nat
import Mathlib.Data.List.AList

/-!
# Hash maps

A `std::unordered_map` is a finite map whose iteration order carries no meaning.
Mathlib's association lists with distinct keys are that data type; this file adds
what a program that keeps its state in such maps needs besides `lookup`, `insert`
and `erase`: reading with a default, filtering, and adding up a weight over all
entries. A weight is how a program's resources are counted: the entries that
satisfy a predicate, the elements of all queues, the references to an object.

## Main results

* `UnorderedMap.total_insert_getD`, `UnorderedMap.total_erase_getD` — how one
  write changes a total
* `UnorderedMap.eq_of_total_le_one` — a total of at most one has one contributor
-/

/-- A finite map with distinct keys and no meaningful order. -/
abbrev UnorderedMap (κ α : Type*) := AList fun _ : κ => α

namespace UnorderedMap

variable {κ α : Type*} [DecidableEq κ] {m : UnorderedMap κ α} {k k' : κ} {v old d : α}

theorem lookup_insert (m : UnorderedMap κ α) (k k' : κ) (v : α) :
    (m.insert k v).lookup k' = if k' = k then some v else m.lookup k' := by
  split
  · next h => rw [h, AList.lookup_insert]
  · next h => exact AList.lookup_insert_ne h

theorem lookup_erase (m : UnorderedMap κ α) (k k' : κ) :
    (m.erase k).lookup k' = if k' = k then none else m.lookup k' := by
  split
  · next h => rw [h, AList.lookup_erase]
  · next h => exact AList.lookup_erase_ne h

theorem mem_entries_iff : (⟨k, v⟩ : Sigma fun _ : κ => α) ∈ m.entries ↔ m.lookup k = some v :=
  AList.mem_lookup_iff.symm

theorem mem_keys_of_lookup (h : m.lookup k = some v) : k ∈ m.keys :=
  AList.mem_keys.mp (AList.lookup_isSome.mp (by simp [h]))

theorem eq_empty_iff : m = ∅ ↔ ∀ k, m.lookup k = none := by
  constructor
  · rintro rfl k
    exact AList.lookup_empty k
  · intro h
    apply AList.ext
    rw [AList.empty_entries, List.eq_nil_iff_forall_not_mem]
    rintro ⟨k, v⟩ member
    rw [mem_entries_iff, h k] at member
    cases member

/-! ## Filling a map from a list -/

section Fill

variable {β : Type*} (key : β → κ) (value : β → α)

/-- A key that is not written keeps its value. -/
theorem lookup_foldl_insert_of_notMem {xs : List β} (absent : k ∉ xs.map key)
    (m : UnorderedMap κ α) :
    (xs.foldl (fun m x => m.insert (key x) (value x)) m).lookup k = m.lookup k := by
  induction xs generalizing m with
  | nil => rfl
  | cons x xs ih =>
    rw [List.map_cons, List.mem_cons, not_or] at absent
    rw [List.foldl_cons, ih absent.2, lookup_insert, if_neg absent.1]

/-- If the keys are distinct, every element of the list is found. -/
theorem lookup_foldl_insert {xs : List β} (distinct : (xs.map key).Nodup) {x : β}
    (member : x ∈ xs) (m : UnorderedMap κ α) :
    (xs.foldl (fun m x => m.insert (key x) (value x)) m).lookup (key x) = some (value x) := by
  induction xs generalizing m with
  | nil => cases member
  | cons y xs ih =>
    rw [List.map_cons, List.nodup_cons] at distinct
    rw [List.foldl_cons]
    rcases List.mem_cons.mp member with rfl | later
    · rw [lookup_foldl_insert_of_notMem key value distinct.1, lookup_insert, if_pos rfl]
    · exact ih distinct.2 later _

end Fill

/-! ## Reading with a default -/

/-- What `operator[]` reads: the stored value, or `d` for an absent key. -/
def getD (m : UnorderedMap κ α) (k : κ) (d : α) : α := (m.lookup k).getD d

@[simp] theorem getD_empty : getD (∅ : UnorderedMap κ α) k d = d := by
  simp [getD, AList.lookup_empty]

theorem getD_insert (m : UnorderedMap κ α) (k k' : κ) (v d : α) :
    getD (m.insert k v) k' d = if k' = k then v else getD m k' d := by
  rw [getD, lookup_insert]
  split <;> rfl

@[simp] theorem getD_insert_self : getD (m.insert k v) k d = v := by
  rw [getD_insert, if_pos rfl]

theorem getD_of_lookup (h : m.lookup k = some v) : getD m k d = v := by
  rw [getD, h, Option.getD_some]

theorem getD_of_lookup_none (h : m.lookup k = none) : getD m k d = d := by
  rw [getD, h, Option.getD_none]

/-! ## Filtering -/

omit [DecidableEq κ] in
private theorem nodupKeys_filter (p : κ → α → Bool) (m : UnorderedMap κ α) :
    (m.entries.filter fun e => p e.1 e.2).NodupKeys :=
  m.nodupKeys.sublist List.filter_sublist

/-- Keep the entries that satisfy `p`. -/
def filter (p : κ → α → Bool) (m : UnorderedMap κ α) : UnorderedMap κ α :=
  ⟨m.entries.filter fun e => p e.1 e.2, nodupKeys_filter p m⟩

theorem lookup_filter (p : κ → α → Bool) (m : UnorderedMap κ α) (k : κ) :
    (filter p m).lookup k = (m.lookup k).filter (p k) := by
  ext v
  rw [← mem_entries_iff]
  simp only [filter, List.mem_filter, mem_entries_iff, Option.filter_eq_some_iff]

/-! ## Changing every value -/

variable {β : Type*}

/-- Replace every value; the keys stay. -/
def mapValues (f : κ → α → β) (m : UnorderedMap κ α) : UnorderedMap κ β :=
  ⟨m.entries.map fun e => ⟨e.1, f e.1 e.2⟩, by
    rw [List.NodupKeys, List.keys, List.map_map]
    exact m.nodupKeys⟩

theorem lookup_mapValues (f : κ → α → β) (m : UnorderedMap κ α) (k : κ) :
    (mapValues f m).lookup k = (m.lookup k).map (f k) :=
  List.dlookup_map₂ k

/-! ## Totals -/

omit [DecidableEq κ] in
/-- Add up a weight over all entries. -/
def total (f : κ → α → ℕ) (m : UnorderedMap κ α) : ℕ := (m.entries.map fun e => f e.1 e.2).sum

variable {f g : κ → α → ℕ}

omit [DecidableEq κ] in
@[simp] theorem total_empty : total f (∅ : UnorderedMap κ α) = 0 := rfl

/-- The entries around a stored one are those that are left when it is erased. -/
theorem entries_split (h : m.lookup k = some v) :
    ∃ l₁ l₂, m.entries = l₁ ++ ⟨k, v⟩ :: l₂ ∧ (m.erase k).entries = l₁ ++ l₂ := by
  obtain ⟨w, l₁, l₂, -, split, rest⟩ := List.exists_of_kerase (mem_keys_of_lookup h)
  have stored : m.lookup k = some w := mem_entries_iff.mp (by rw [split]; simp)
  obtain rfl : w = v := Option.some.inj (stored.symm.trans h)
  exact ⟨l₁, l₂, split, rest⟩

theorem total_erase (h : m.lookup k = some old) : total f (m.erase k) + f k old = total f m := by
  obtain ⟨l₁, l₂, split, rest⟩ := entries_split h
  simp only [total, split, rest, List.map_append, List.map_cons, List.sum_append, List.sum_cons]
  omega

private theorem insert_entries (m : UnorderedMap κ α) (k : κ) (v : α) :
    (m.insert k v).entries = ⟨k, v⟩ :: (m.erase k).entries :=
  AList.entries_insert

/-- A value that was just written is erased like any other. -/
theorem erase_insert (m : UnorderedMap κ α) (k : κ) (v : α) :
    (m.insert k v).erase k = m.erase k := by
  apply AList.ext
  show List.kerase k (m.insert k v).entries = _
  rw [insert_entries]
  exact List.kerase_cons_eq rfl

/-- Writes to different keys do not disturb each other. -/
theorem erase_insert_of_ne (m : UnorderedMap κ α) (h : k ≠ k') (v : α) :
    (m.insert k v).erase k' = (m.erase k').insert k v := by
  apply AList.ext
  rw [insert_entries]
  show List.kerase k' (m.insert k v).entries = ⟨k, v⟩ :: List.kerase k (List.kerase k' m.entries)
  rw [insert_entries, List.kerase_cons_ne h.symm, List.kerase_kerase]
  rfl

theorem total_insert (m : UnorderedMap κ α) (k : κ) (v : α) :
    total f (m.insert k v) = f k v + total f (m.erase k) := by
  simp only [total, insert_entries, List.map_cons, List.sum_cons]

theorem erase_of_lookup_none (h : m.lookup k = none) : m.erase k = m :=
  AList.ext (List.kerase_of_notMem_keys fun member =>
    AList.lookup_eq_none.mp h (AList.mem_keys.mpr member))

theorem total_insert_new (h : m.lookup k = none) :
    total f (m.insert k v) = f k v + total f m := by
  rw [total_insert, erase_of_lookup_none h]

theorem total_insert_of_lookup (h : m.lookup k = some old) :
    total f (m.insert k v) + f k old = f k v + total f m := by
  rw [total_insert, Nat.add_assoc, total_erase h]

theorem entries_length_insert_new (h : m.lookup k = none) :
    (m.insert k v).entries.length = m.entries.length + 1 := by
  rw [insert_entries, erase_of_lookup_none h, List.length_cons]

theorem entries_length_insert_of_lookup (h : m.lookup k = some old) :
    (m.insert k v).entries.length = m.entries.length := by
  obtain ⟨l₁, l₂, split, rest⟩ := entries_split h
  simp only [insert_entries, split, rest, List.length_cons, List.length_append]
  omega

/-- Overwriting the value read with default `d`, for a weight that ignores `d`. -/
theorem total_insert_getD (m : UnorderedMap κ α) (k : κ) (v : α) (hd : f k d = 0) :
    total f (m.insert k v) + f k (getD m k d) = f k v + total f m := by
  cases h : m.lookup k with
  | none => rw [getD_of_lookup_none h, hd, total_insert_new h, Nat.add_zero]
  | some old => rw [getD_of_lookup h, total_insert_of_lookup h]

theorem le_total (h : m.lookup k = some v) : f k v ≤ total f m := by
  rw [← total_erase h]
  exact Nat.le_add_left _ _

theorem total_eq_zero_iff : total f m = 0 ↔ ∀ k v, m.lookup k = some v → f k v = 0 := by
  rw [total, List.sum_eq_zero_iff_forall_eq_nat]
  simp only [List.mem_map, forall_exists_index, and_imp, forall_apply_eq_imp_iff₂]
  constructor
  · intro h k v stored
    exact h ⟨k, v⟩ (mem_entries_iff.mpr stored)
  · rintro h ⟨k, v⟩ member
    exact h k v (mem_entries_iff.mp member)

theorem total_pos_iff : 0 < total f m ↔ ∃ k v, m.lookup k = some v ∧ 0 < f k v := by
  rw [Nat.pos_iff_ne_zero, ne_eq, total_eq_zero_iff]
  push Not
  simp only [Nat.pos_iff_ne_zero]

/-- Distinct keys that all weigh something are no more than the total. -/
theorem length_le_total {ks : List κ} (distinct : ks.Nodup)
    (weighs : ∀ k ∈ ks, ∃ v, m.lookup k = some v ∧ 0 < f k v) : ks.length ≤ total f m := by
  induction ks generalizing m with
  | nil => exact Nat.zero_le _
  | cons k ks ih =>
    obtain ⟨new, distinct⟩ := List.nodup_cons.mp distinct
    obtain ⟨v, stored, positive⟩ := weighs k List.mem_cons_self
    have others : ks.length ≤ total f (m.erase k) := by
      refine ih distinct fun k' member => ?_
      have other : k' ≠ k := fun same => new (same ▸ member)
      rw [lookup_erase, if_neg other]
      exact weighs k' (List.mem_cons_of_mem _ member)
    have split := total_erase (f := f) stored
    rw [List.length_cons]
    omega

theorem total_mono (h : ∀ k v, m.lookup k = some v → f k v ≤ g k v) : total f m ≤ total g m := by
  refine List.sum_le_sum ?_
  rintro ⟨k, v⟩ member
  exact h k v (mem_entries_iff.mp member)

/-! ## Counters

A map from names to numbers, counted up and down. Counting down stops at zero, so a
counter only follows the quantity it stands for while that is positive. -/

/-- `m[k]++`. -/
def increment (m : UnorderedMap κ ℤ) (k : κ) : UnorderedMap κ ℤ := m.insert k (getD m k 0 + 1)

/-- `m[k]--` for a counter that is there and positive. -/
def decrement (m : UnorderedMap κ ℤ) (k : κ) : UnorderedMap κ ℤ :=
  if 0 < getD m k 0 then m.insert k (getD m k 0 - 1) else m

theorem getD_increment (m : UnorderedMap κ ℤ) (k k' : κ) :
    getD (m.increment k) k' 0 = if k' = k then getD m k 0 + 1 else getD m k' 0 :=
  getD_insert ..

theorem getD_decrement (m : UnorderedMap κ ℤ) (k k' : κ) :
    getD (m.decrement k) k' 0 =
      if k' = k ∧ 0 < getD m k 0 then getD m k 0 - 1 else getD m k' 0 := by
  rw [decrement]
  split
  · next positive => simp only [getD_insert, positive, and_true]
  · next stuck => simp only [stuck, and_false, if_false]

/-- Every counter shows the quantity `n`. -/
def Counts (m : UnorderedMap κ ℤ) (n : κ → ℕ) : Prop := ∀ k, getD m k 0 = n k

variable {c : UnorderedMap κ ℤ} {n n' : κ → ℕ}

theorem Counts.empty : Counts (∅ : UnorderedMap κ ℤ) fun _ => 0 := fun _ => getD_empty

theorem Counts.increment (h : Counts c n) (here : n' k = n k + 1)
    (elsewhere : ∀ k', k' ≠ k → n' k' = n k') : Counts (c.increment k) n' := by
  intro k'
  rw [getD_increment]
  split
  · next same => rw [same, h k, here]; push_cast; rfl
  · next other => rw [h k', elsewhere k' other]

theorem Counts.decrement (h : Counts c n) (here : n' k + 1 = n k)
    (elsewhere : ∀ k', k' ≠ k → n' k' = n k') : Counts (c.decrement k) n' := by
  intro k'
  -- the count is positive, so it is taken down by one
  have positive : 0 < getD c k 0 := by rw [h k]; omega
  rw [getD_decrement]
  split
  · next same => rw [same.1, h k]; omega
  · next other => rw [h k', elsewhere k' fun same => other ⟨same, positive⟩]

end UnorderedMap
