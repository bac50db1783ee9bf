import Mathlib.Algebra.Order.Ring.Nat
import BraveRotator.Lib.Runs

/-! Counted slots, of which each successful draw takes one. -/

namespace Slots

variable {σ ε : Type*}

theorem sum_set_pred {slots : List Nat} {i n : Nat} (here : slots[i]? = some (n + 1)) :
    (slots.set i n).sum + 1 = slots.sum := by
  induction slots generalizing i with
  | nil => simp at here
  | cons m slots ih =>
    cases i with
    | zero =>
      obtain rfl : m = n + 1 := by simpa using here
      simp only [List.set_cons_zero, List.sum_cons]
      omega
    | succ i =>
      have rest := ih (by simpa using here)
      simp only [List.set_cons_succ, List.sum_cons]
      omega

/-- The event `e` draws: it takes one from a slot that has some left, and fails when none has. -/
structure Draws (step : σ → ε → σ) (drawn : σ → ε → Option Nat) (e : ε) (slots : σ → List Nat)
    (I : σ → Prop) : Prop where
  taken : ∀ s i, I s → drawn s e = some i →
    ∃ n, (slots s)[i]? = some (n + 1) ∧ slots (step s e) = (slots s).set i n
  refused : ∀ s, I s → drawn s e = none → ∀ n ∈ slots s, n = 0
  keep : ∀ s i, I s → drawn s e = some i → I (step s e)

variable {step : σ → ε → σ} {drawn : σ → ε → Option Nat} {e : ε} {slots : σ → List Nat}
  {I : σ → Prop}

/-- As many draws as there are slots succeed, from each place as many as it has, and the next one
    fails. -/
theorem Draws.drained (draws : Draws step drawn e slots I) {s : σ} (inv : I s) :
    (Runs.collect step drawn s (List.replicate (slots s).sum e)).length = (slots s).sum ∧
      (∀ i n, (slots s)[i]? = some n →
        (Runs.collect step drawn s (List.replicate (slots s).sum e)).count i = n) ∧
      drawn (Runs.exec step s (List.replicate (slots s).sum e)) e = none := by
  induction total : (slots s).sum generalizing s with
  | zero =>
    have empty : ∀ n ∈ slots s, n = 0 := List.sum_eq_zero_iff_forall_eq_nat.mp total
    refine ⟨rfl, ?_, ?_⟩
    · intro i n here
      exact (empty n (List.mem_of_getElem? here)).symm
    · by_contra some_
      obtain ⟨i, found⟩ := Option.ne_none_iff_exists'.mp some_
      obtain ⟨n, here, -⟩ := draws.taken s i inv found
      cases empty (n + 1) (List.mem_of_getElem? here)
  | succ m ih =>
    have left : drawn s e ≠ none := by
      intro none
      have zero := List.sum_eq_zero_iff_forall_eq_nat.mpr (draws.refused s inv none)
      omega
    obtain ⟨i, found⟩ := Option.ne_none_iff_exists'.mp left
    obtain ⟨n, here, slots'⟩ := draws.taken s i inv found
    have fewer : (slots (step s e)).sum = m := by
      have one := sum_set_pred here
      rw [← slots'] at one
      omega
    obtain ⟨length, counts, last⟩ := ih (draws.keep s i inv found) fewer
    rw [List.replicate_succ, Runs.collect_cons, Runs.exec_cons, found, Option.toList_some,
      List.singleton_append]
    refine ⟨by rw [List.length_cons, length], ?_, last⟩
    intro j n' there
    by_cases same : i = j
    · subst same
      have one : n' = n + 1 := Option.some.inj (there.symm.trans here)
      have inside : i < (slots s).length := (List.getElem?_eq_some_iff.mp here).1
      rw [List.count_cons_self, counts i n (by rw [slots', List.getElem?_set_self inside]), one]
    · rw [List.count_cons_of_ne same, counts j n' (by rw [slots', List.getElem?_set_ne same, there])]

end Slots
