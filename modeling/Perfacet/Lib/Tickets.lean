import Mathlib.Data.List.Perm.Subperm
import Mathlib.Logic.Function.Basic

/-!
# Tickets

Numbers that are drawn from a counter. Whoever draws one holds it in hand until it is laid on a
common pile, and from the pile numbers are taken away. Hands are independent of each other, so that
a number may be drawn before another one and laid after it.

## Main definitions

* `Tickets` — the pile, the hands and the counter
* `Tickets.Moves` — a number is drawn, or laid on the pile, or numbers are taken away
* `Tickets.Sound` — no number is in two places
* `Tickets.Gone` — a number that has been drawn is in no place

## Main results

* `Sound.moves`, `Gone.moves` — numbers are never in two places, and never come back
* `Sound.gone` — what is taken from the pile is gone
-/

/-- The numbers on the pile, the numbers in hand, and the next one to be drawn. -/
structure Tickets (ω : Type*) where
  pile : List ℕ
  hand : ω → Option ℕ
  next : ℕ

namespace Tickets

variable {ω : Type*} {t t' : Tickets ω} {o : ω} {id : ℕ}

/-- What may happen; the order of the pile is left open. -/
inductive Moves [DecidableEq ω] (t t' : Tickets ω) : Prop
  | draw (o : ω) : t.hand o = none → t'.pile = t.pile →
      t'.hand = Function.update t.hand o (some t.next) → t'.next = t.next + 1 → Moves t t'
  | lay (o : ω) (id : ℕ) : t.hand o = some id → t'.pile.Perm (id :: t.pile) →
      t'.hand = Function.update t.hand o none → t'.next = t.next → Moves t t'
  | shed : t'.pile.Subperm t.pile → t'.hand = t.hand → t'.next = t.next → Moves t t'

/-- Numbers have been drawn, and each is in one place at most. -/
structure Sound (t : Tickets ω) : Prop where
  nodup : t.pile.Nodup
  pile : ∀ id ∈ t.pile, id < t.next
  hand : ∀ o id, t.hand o = some id → id < t.next ∧ id ∉ t.pile
  apart : ∀ o o' id, t.hand o = some id → t.hand o' = some id → o = o'

/-- A number that is in no place. -/
structure Gone (t : Tickets ω) (id : ℕ) : Prop where
  drawn : id < t.next
  pile : id ∉ t.pile
  hand : ∀ o, t.hand o ≠ some id

theorem Sound.moves [DecidableEq ω] (sound : Sound t) (moves : t.Moves t') : Sound t' := by
  cases moves with
  | draw o empty pile hand next =>
    -- the number that is drawn is greater than all others
    refine ⟨pile ▸ sound.nodup, ?_, ?_, ?_⟩
    · intro id member
      rw [next]
      rw [pile] at member
      exact Nat.lt_succ_of_lt (sound.pile id member)
    · intro o' id held
      rw [hand, Function.update_apply] at held
      rw [next, pile]
      split at held
      · cases held
        exact ⟨Nat.lt_succ_self _, fun old => Nat.lt_irrefl _ (sound.pile _ old)⟩
      · obtain ⟨drawn, off⟩ := sound.hand o' id held
        exact ⟨Nat.lt_succ_of_lt drawn, off⟩
    · intro o₁ o₂ id held₁ held₂
      rw [hand, Function.update_apply] at held₁ held₂
      split at held₁ <;> split at held₂
      · next own₁ own₂ => exact own₁.trans own₂.symm
      · cases held₁
        exact absurd (sound.hand o₂ _ held₂).1 (Nat.lt_irrefl _)
      · cases held₂
        exact absurd (sound.hand o₁ _ held₁).1 (Nat.lt_irrefl _)
      · exact sound.apart o₁ o₂ id held₁ held₂
  | lay o id held pile hand next =>
    obtain ⟨drawn, off⟩ := sound.hand o id held
    refine ⟨pile.nodup_iff.mpr (List.nodup_cons.mpr ⟨off, sound.nodup⟩), ?_, ?_, ?_⟩
    · intro id' member
      rw [next]
      rcases List.mem_cons.mp (pile.mem_iff.mp member) with rfl | old
      · exact drawn
      · exact sound.pile id' old
    · intro o' id' held'
      rw [hand, Function.update_apply] at held'
      split at held'
      · cases held'
      · next other =>
        obtain ⟨drawn', off'⟩ := sound.hand o' id' held'
        rw [next, pile.mem_iff, List.mem_cons, not_or]
        refine ⟨drawn', ?_, off'⟩
        rintro rfl
        exact other (sound.apart o' o _ held' held)
    · intro o₁ o₂ id' held₁ held₂
      rw [hand, Function.update_apply] at held₁ held₂
      split at held₁ <;> split at held₂
      · cases held₁
      · cases held₁
      · cases held₂
      · exact sound.apart o₁ o₂ id' held₁ held₂
  | shed pile hand next =>
    obtain ⟨ids, perm, sublist⟩ := pile
    refine ⟨perm.nodup_iff.mp (sound.nodup.sublist sublist), ?_, ?_, ?_⟩
    · intro id member
      rw [next]
      exact sound.pile id (sublist.subset (perm.mem_iff.mpr member))
    · intro o id held
      rw [hand] at held
      obtain ⟨drawn, off⟩ := sound.hand o id held
      rw [next]
      exact ⟨drawn, fun member => off (sublist.subset (perm.mem_iff.mpr member))⟩
    · intro o o' id held held'
      rw [hand] at held held'
      exact sound.apart o o' id held held'

theorem Gone.moves [DecidableEq ω] (gone : Gone t id) (moves : t.Moves t') : Gone t' id := by
  cases moves with
  | draw o empty pile hand next =>
    refine ⟨?_, pile ▸ gone.pile, fun o' held => ?_⟩
    · rw [next]
      exact Nat.lt_succ_of_lt gone.drawn
    · rw [hand, Function.update_apply] at held
      split at held
      · cases held
        exact Nat.lt_irrefl _ gone.drawn
      · exact gone.hand o' held
  | lay o id' held pile hand next =>
    refine ⟨next ▸ gone.drawn, fun member => ?_, fun o' held' => ?_⟩
    · rcases List.mem_cons.mp (pile.mem_iff.mp member) with rfl | old
      · exact gone.hand o held
      · exact gone.pile old
    · rw [hand, Function.update_apply] at held'
      split at held'
      · cases held'
      · exact gone.hand o' held'
  | shed pile hand next =>
    obtain ⟨ids, perm, sublist⟩ := pile
    refine ⟨next ▸ gone.drawn, fun member => ?_, fun o held => ?_⟩
    · exact gone.pile (sublist.subset (perm.mem_iff.mpr member))
    · rw [hand] at held
      exact gone.hand o held

/-- A number is taken from the pile. -/
theorem Sound.gone (sound : Sound t) (pile : t.pile.Perm (id :: t'.pile)) (hand : t'.hand = t.hand)
    (next : t'.next = t.next) : Gone t' id := by
  have there : id ∈ t.pile := pile.mem_iff.mpr List.mem_cons_self
  refine ⟨next ▸ sound.pile id there, ?_, fun o held => ?_⟩
  · exact (List.nodup_cons.mp (pile.nodup_iff.mp sound.nodup)).1
  · rw [hand] at held
    exact (sound.hand o id held).2 there

end Tickets
