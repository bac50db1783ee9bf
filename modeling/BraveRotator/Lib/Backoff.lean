import Mathlib.Algebra.Order.Ring.Nat
import Mathlib.Algebra.Order.Monoid.Unbundled.Pow
import Mathlib.Tactic.Common

/-! Exponential backoff up to a ceiling, counted from the first failure. -/

namespace Backoff

def doubling (base ceiling n : Nat) : Nat := min (base * 2^(n - 1)) ceiling

/-- Capping the exponent where the ceiling is already reached changes nothing. -/
theorem capped_shift {base ceiling cap : Nat} (reached : ceiling ≤ base * 2^cap) (m : Nat) :
    min (base * 1 <<< min m cap) ceiling = min (base * 2^m) ceiling := by
  rw [Nat.one_shiftLeft]
  rcases Nat.le_total m cap with le | le
  · rw [min_eq_left le]
  · have past : ceiling ≤ base * 2^m :=
      reached.trans (Nat.mul_le_mul_left base (Nat.pow_le_pow_right (by decide) le))
    rw [min_eq_right le, min_eq_right reached, min_eq_right past]

theorem doubling_le (base ceiling n : Nat) : doubling base ceiling n ≤ ceiling := min_le_right _ _

theorem doubling_of_reached {base ceiling n : Nat} (reached : ceiling ≤ base * 2^(n - 1)) :
    doubling base ceiling n = ceiling := min_eq_right reached

/-- From the step that reaches the ceiling on, one more failure makes no difference; before it, the
    wait grows. -/
theorem doubling_eq_succ {base ceiling n : Nat} (positive : 0 < base)
    (counted : 0 < n) :
    doubling base ceiling n = doubling base ceiling (n + 1) ↔ ceiling ≤ base * 2^(n - 1) := by
  obtain ⟨m, rfl⟩ : ∃ m, n = m + 1 := ⟨n - 1, by omega⟩
  have grows : base * 2^m < base * 2^(m + 1) :=
    Nat.mul_lt_mul_of_pos_left (Nat.pow_lt_pow_right (by decide) (Nat.lt_succ_self m)) positive
  simp only [doubling, Nat.add_sub_cancel]
  omega

/-- A count that saturates past the ceiling is as good as one that does not. -/
theorem doubling_min {base ceiling cap bound : Nat} (reached : ceiling ≤ base * 2^cap)
    (past : cap < bound) (n : Nat) : doubling base ceiling (min n bound) = doubling base ceiling n := by
  rcases Nat.le_total n bound with le | le
  · rw [min_eq_left le]
  · have beyond (m : Nat) (le : bound ≤ m) : ceiling ≤ base * 2^(m - 1) :=
      reached.trans (Nat.mul_le_mul_left base (Nat.pow_le_pow_right (by decide) (by omega)))
    rw [min_eq_right le, doubling_of_reached (beyond bound le_rfl), doubling_of_reached (beyond n le)]

end Backoff
