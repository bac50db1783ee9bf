import Mathlib.Data.List.Induction
import Mathlib.Data.Nat.Basic
import Mathlib.Order.Basic
import Mathlib.Tactic.Common

/-! Where the distinct elements of a list stand among all of them. -/

namespace Distinct

section Positions

variable {α : Type*}

/-- The element stands at the position, and at none before. -/
structure FirstAt (l : List α) (pos : Nat) (a : α) : Prop where
  here : l[pos]? = some a
  fresh : a ∉ l.take pos

variable {l : List α} {pos : Nat} {a b : α}

theorem FirstAt.lt (first : FirstAt l pos a) : pos < l.length :=
  (List.getElem?_eq_some_iff.mp first.here).1

theorem FirstAt.unique {pos' : Nat} (first : FirstAt l pos a) (first' : FirstAt l pos' a) :
    pos = pos' := by
  have before : ∀ {i j : Nat}, FirstAt l i a → FirstAt l j a → ¬ i < j := by
    intro i j one other lt
    apply other.fresh
    apply List.mem_of_getElem? (i := i)
    rw [List.getElem?_take_of_lt lt]
    exact one.here
  have left := before first first'
  have right := before first' first
  omega

theorem firstAt_concat :
    FirstAt (l ++ [b]) pos a ↔ FirstAt l pos a ∨ (pos = l.length ∧ a = b ∧ a ∉ l) := by
  constructor
  · intro first
    have bound := first.lt
    rw [List.length_append, List.length_singleton] at bound
    by_cases inside : pos < l.length
    · left
      constructor
      · rw [← first.here, List.getElem?_append_left inside]
      · have fresh := first.fresh
        rw [List.take_append_of_le_length inside.le] at fresh
        exact fresh
    · right
      have last : pos = l.length := by omega
      have here := first.here
      have fresh := first.fresh
      rw [last, List.getElem?_concat_length] at here
      rw [last, List.take_left] at fresh
      exact ⟨last, (Option.some.inj here).symm, fresh⟩
  · intro cases
    rcases cases with first | ⟨last, same, fresh⟩
    · constructor
      · rw [List.getElem?_append_left first.lt]
        exact first.here
      · rw [List.take_append_of_le_length first.lt.le]
        exact first.fresh
    · constructor
      · rw [last, List.getElem?_concat_length, same]
      · rw [last, List.take_left]
        exact fresh

end Positions

variable {α : Type*} [DecidableEq α]

/-- How many distinct elements stand before the position. -/
def rank (l : List α) (pos : Nat) : Nat := (l.take pos).eraseDups.length

variable {l : List α} {pos : Nat} {a : α}

theorem eraseDups_concat (l : List α) (a : α) :
    (l ++ [a]).eraseDups = if a ∈ l then l.eraseDups else l.eraseDups ++ [a] := by
  rw [List.eraseDups_append]
  by_cases member : a ∈ l
  · rw [if_pos member, List.removeAll, List.filter_cons, if_neg (by simpa using member)]
    exact List.append_nil _
  · rw [if_neg member, List.removeAll, List.filter_cons, if_pos (by simpa using member)]
    rfl

theorem length_eraseDups_le (l : List α) : l.eraseDups.length ≤ l.length := by
  induction l using List.reverseRecOn with
  | nil => exact Nat.le_refl 0
  | append_singleton l a ih =>
    rw [eraseDups_concat, List.length_append, List.length_singleton]
    split
    · omega
    · rw [List.length_append, List.length_singleton]
      omega

theorem rank_le (l : List α) (pos : Nat) : rank l pos ≤ pos :=
  (length_eraseDups_le _).trans (List.length_take_le pos l)

theorem rank_concat_of_le {b : α} (le : pos ≤ l.length) : rank (l ++ [b]) pos = rank l pos := by
  unfold rank
  rw [List.take_append_of_le_length le]

/-- The distinct elements in the order of their first positions. -/
theorem getElem?_eraseDups_iff {i : Nat} :
    l.eraseDups[i]? = some a ↔ ∃ pos, FirstAt l pos a ∧ rank l pos = i := by
  induction l using List.reverseRecOn with
  | nil =>
    refine iff_of_false nofun ?_
    rintro ⟨pos, first, -⟩
    exact absurd first.lt (Nat.not_lt_zero pos)
  | append_singleton l b ih =>
    have earlier : (∃ pos, FirstAt l pos a ∧ rank (l ++ [b]) pos = i) ↔
        ∃ pos, FirstAt l pos a ∧ rank l pos = i := by
      constructor
      · rintro ⟨pos, first, rank⟩
        rw [rank_concat_of_le first.lt.le] at rank
        exact ⟨pos, first, rank⟩
      · rintro ⟨pos, first, rank⟩
        rw [← rank_concat_of_le first.lt.le] at rank
        exact ⟨pos, first, rank⟩
    have whole : rank (l ++ [b]) l.length = l.eraseDups.length := by
      rw [rank_concat_of_le le_rfl, rank, List.take_length]
    simp only [firstAt_concat, or_and_right, exists_or]
    rw [earlier, ← ih, eraseDups_concat]
    by_cases member : b ∈ l
    · rw [if_pos member]
      refine (or_iff_left ?_).symm
      rintro ⟨pos, ⟨-, rfl, fresh⟩, -⟩
      exact fresh member
    · rw [if_neg member, List.getElem?_append, List.getElem?_singleton]
      constructor
      · intro here
        by_cases inside : i < l.eraseDups.length
        · rw [if_pos inside] at here
          exact .inl here
        · rw [if_neg inside] at here
          by_cases last : i - l.eraseDups.length = 0
          · rw [if_pos last] at here
            have same : b = a := Option.some.inj here
            refine .inr ⟨l.length, ⟨rfl, same.symm, same ▸ member⟩, ?_⟩
            rw [whole]
            omega
          · rw [if_neg last] at here
            cases here
      · intro cases
        rcases cases with here | ⟨pos, ⟨last, same, -⟩, at'⟩
        · rw [if_pos (List.getElem?_eq_some_iff.mp here).1]
          exact here
        · rw [last, whole] at at'
          rw [if_neg (by omega), if_pos (by omega), same]

end Distinct
