import Mathlib.Data.Set.Insert

/-!
# Leases

Resources that a holder takes out under fresh names and later gives back. What is out is counted
by name only, as a table of open things is; who has to give a name back is known elsewhere. The
two agree as long as every name that is taken out is fresh and every holder gives back exactly
what it has.

## Main definitions

* `Leases` — who took which name out, who has not given back yet, and what is out
* `Leases.Takes`, `Leases.Gives` — the two things that happen to it
* `Leases.Balanced` — what is out is what is still owed, and every name has one holder
* `Leases.Later` — what can have happened since to the names that were in use

## Main results

* `Balanced.takes`, `Balanced.gives` — both keep the balance
* `Balanced.out_iff_later` — a name that somebody held is out as long as the same holder has it
  and owes it
* `Later.not_out` — what was given back is never out again
-/

/-- Names, by whom they were taken out, who owes them, and what is out. -/
structure Leases (ω ι : Type*) where
  holds : ω → ι → Prop
  owes : ω → Prop
  out : ι → Prop
  used : ι → Prop

namespace Leases

variable {ω ι : Type*} {l l' l'' : Leases ω ι} {o : ω} {i : ι} {S : Set ι}

/-- Holder `o` takes fresh names out. With no names, only the use of names goes on. -/
structure Takes (o : ω) (S : Set ι) (l l' : Leases ω ι) : Prop where
  fresh : ∀ {i}, i ∈ S → ¬ l.used i
  used : ∀ {i}, l.used i ∨ i ∈ S → l'.used i
  holds : ∀ {o' i}, l'.holds o' i → l.holds o' i ∨ (o' = o ∧ i ∈ S)
  owed : ∀ {o' i}, l'.holds o' i ∧ l'.owes o' ↔ (l.holds o' i ∧ l.owes o') ∨ (o' = o ∧ i ∈ S)
  out : ∀ {i}, l'.out i ↔ l.out i ∨ i ∈ S

/-- Holder `o` gives back what it has. -/
structure Gives (o : ω) (l l' : Leases ω ι) : Prop where
  used : ∀ {i}, l.used i → l'.used i
  holds : ∀ {o' i}, l'.holds o' i → l.holds o' i
  owed : ∀ {o' i}, l'.holds o' i ∧ l'.owes o' ↔ (l.holds o' i ∧ l.owes o') ∧ o' ≠ o
  out : ∀ {i}, l'.out i ↔ l.out i ∧ ¬ l.holds o i

/-- What is out is what somebody still owes; names in use are not taken out again, so that each
has one holder. -/
structure Balanced (l : Leases ω ι) : Prop where
  out : ∀ {i}, l.out i ↔ ∃ o, l.holds o i ∧ l.owes o
  used : ∀ {o i}, l.holds o i → l.used i
  unique : ∀ {o o' i}, l.holds o i → l.holds o' i → o = o'

/-- What may have become of the names in use: they were given back, and nobody took them. -/
structure Later (l l' : Leases ω ι) : Prop where
  used : ∀ {i}, l.used i → l'.used i
  holds : ∀ {o i}, l.used i → l'.holds o i → l.holds o i
  out : ∀ {i}, l.used i → l'.out i → l.out i

/-! ## The two operations -/

theorem Balanced.takes (h : l.Balanced) (taken : Takes o S l l') : l'.Balanced where
  out {i} := by
    rw [taken.out, h.out]
    constructor
    · rintro (⟨o', held⟩ | new)
      · exact ⟨o', taken.owed.mpr (.inl held)⟩
      · exact ⟨o, taken.owed.mpr (.inr ⟨rfl, new⟩)⟩
    · rintro ⟨o', held⟩
      rcases taken.owed.mp held with before | ⟨-, new⟩
      · exact .inl ⟨o', before⟩
      · exact .inr new
  used held := by
    rcases taken.holds held with before | ⟨-, new⟩
    · exact taken.used (.inl (h.used before))
    · exact taken.used (.inr new)
  unique held held' := by
    rcases taken.holds held with before | ⟨rfl, new⟩
    · rcases taken.holds held' with before' | ⟨-, new'⟩
      · exact h.unique before before'
      · exact absurd (h.used before) (taken.fresh new')
    · rcases taken.holds held' with before' | ⟨rfl, -⟩
      · exact absurd (h.used before') (taken.fresh new)
      · rfl

theorem Balanced.gives (h : l.Balanced) (given : Gives o l l') : l'.Balanced where
  out {i} := by
    rw [given.out, h.out]
    constructor
    -- whoever has a name that is still out is not the one that gives back
    · rintro ⟨⟨o', held⟩, other⟩
      exact ⟨o', given.owed.mpr ⟨held, fun same => other (same ▸ held.1)⟩⟩
    · rintro ⟨o', held⟩
      obtain ⟨before, other⟩ := given.owed.mp held
      exact ⟨⟨o', before⟩, fun mine => other (h.unique before.1 mine)⟩
  used held := given.used (h.used (given.holds held))
  unique held held' := h.unique (given.holds held) (given.holds held')

/-- Nothing happens to the names, but more of them may be in use. -/
theorem Takes.none (o : ω) (used : ∀ {i}, l.used i → l'.used i)
    (holds : ∀ {o i}, l'.holds o i ↔ l.holds o i) (owes : ∀ {o}, l'.owes o ↔ l.owes o)
    (out : ∀ {i}, l'.out i ↔ l.out i) : Takes o ∅ l l' where
  fresh new := absurd new (Set.notMem_empty _)
  used before := used (before.resolve_right (Set.notMem_empty _))
  holds held := .inl (holds.mp held)
  owed {o' i} := by
    rw [holds, owes]
    exact (or_iff_left fun new => Set.notMem_empty i new.2).symm
  out {i} := by
    rw [out]
    exact (or_iff_left (Set.notMem_empty i)).symm

theorem Takes.later (taken : Takes o S l l') : l.Later l' where
  used before := taken.used (.inl before)
  holds before held :=
    (taken.holds held).resolve_right fun ⟨_, new⟩ => taken.fresh new before
  out before out := (taken.out.mp out).resolve_right fun new => taken.fresh new before

theorem Gives.later (given : Gives o l l') : l.Later l' where
  used := given.used
  holds _ held := given.holds held
  out _ out := (given.out.mp out).1

/-! ## Over time -/

theorem Later.refl (l : Leases ω ι) : l.Later l where
  used before := before
  holds _ held := held
  out _ out := out

theorem Later.trans (h : l.Later l') (h' : l'.Later l'') : l.Later l'' where
  used before := h'.used (h.used before)
  holds before held := h.holds before (h'.holds (h.used before) held)
  out before out := h.out before (h'.out (h.used before) out)

/-- What was given back is never out again. -/
theorem Later.not_out (h : l.Later l') (used : l.used i) (back : ¬ l.out i) : ¬ l'.out i :=
  fun out => back (h.out used out)

/-- What somebody has is out as long as it is owed. -/
theorem Balanced.out_iff (h : l.Balanced) (held : l.holds o i) : l.out i ↔ l.owes o := by
  rw [h.out]
  constructor
  · rintro ⟨o', held', owes⟩
    exact h.unique held' held ▸ owes
  · intro owes
    exact ⟨o, held, owes⟩

/-- What somebody had is out as long as the same holder has it and owes it. -/
theorem Balanced.out_iff_later (h : l.Balanced) (h' : l'.Balanced) (later : l.Later l')
    (held : l.holds o i) : l'.out i ↔ l'.holds o i ∧ l'.owes o := by
  constructor
  · intro out
    obtain ⟨o', held', owes⟩ := h'.out.mp out
    -- Nobody else can have taken the name since, for it was in use.
    have before := later.holds (h.used held) held'
    exact h.unique before held ▸ ⟨held', owes⟩
  · rintro ⟨held', owes⟩
    exact (h'.out_iff held').mpr owes

/-- Nothing is out if nobody owes anything. -/
theorem Balanced.not_out (h : l.Balanced) (quiet : ∀ o i, l.holds o i → ¬ l.owes o) :
    ¬ l.out i := by
  rw [h.out]
  rintro ⟨o, held, owes⟩
  exact quiet o i held owes

end Leases
