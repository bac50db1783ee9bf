import Mathlib.Data.Finset.Card
import Mathlib.Data.List.Nodup
import Mathlib.Tactic.Common

/-! Turns taken one after the other: when nobody has a second turn before all of `members` had one,
as many turns as there are members go to different ones. -/

namespace Rotation

variable {α : Type*} [DecidableEq α]

/-- Between two neighbouring turns of one `a`, every other member has a turn. -/
def Spread (members : Finset α) (turns : List α) : Prop :=
  ∀ before a between after, turns = before ++ a :: (between ++ a :: after) → a ∉ between →
    ∀ b ∈ members, b ≠ a → b ∈ between

omit [DecidableEq α] in
theorem exists_neighbours {turns : List α} (repeats : ¬ turns.Nodup) :
    ∃ before a between after, turns = before ++ a :: (between ++ a :: after) ∧ a ∉ between := by
  induction turns with
  | nil => exact absurd List.nodup_nil repeats
  | cons head turns ih =>
    by_cases again : head ∈ turns
    · obtain ⟨between, after, split, fresh⟩ := List.eq_append_cons_of_mem again
      exact ⟨[], head, between, after, by rw [split]; rfl, fresh⟩
    · have tail : ¬ turns.Nodup := fun nodup => repeats (List.nodup_cons.mpr ⟨again, nodup⟩)
      obtain ⟨before, a, between, after, split, fresh⟩ := ih tail
      exact ⟨head :: before, a, between, after, by rw [split]; rfl, fresh⟩

theorem Spread.length_between {members : Finset α} {turns before between after : List α} {a : α}
    (spread : Spread members turns) (split : turns = before ++ a :: (between ++ a :: after))
    (fresh : a ∉ between) : members.card ≤ between.length + 1 := by
  have others : members.erase a ⊆ between.toFinset := by
    intro b member
    rw [Finset.mem_erase] at member
    exact List.mem_toFinset.mpr (spread before a between after split fresh b member.2 member.1)
  have count := (Finset.card_le_card others).trans (List.toFinset_card_le between)
  have erased := Finset.pred_card_le_card_erase (s := members) (a := a)
  omega

theorem Spread.nodup {members : Finset α} {turns : List α} (spread : Spread members turns)
    (few : turns.length ≤ members.card) : turns.Nodup := by
  by_contra repeats
  obtain ⟨before, a, between, after, split, fresh⟩ := exists_neighbours repeats
  have long := spread.length_between split fresh
  have total := congrArg List.length split
  simp only [List.length_append, List.length_cons] at total
  omega

end Rotation
