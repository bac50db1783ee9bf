import Mathlib.Tactic.Common

/-! Loops that run while a guard holds, with a body that brings a measure down. -/

structure While (σ : Type*) where
  guard : σ → Prop
  decidable : DecidablePred guard
  body : (s : σ) → guard s → σ
  measure : σ → Nat
  decreases : ∀ s on, measure (body s on) < measure s

namespace While

variable {σ : Type*} (w : While σ)

def run (s : σ) : σ :=
  match w.decidable s with
  | .isTrue on => run (w.body s on)
  | .isFalse _ => s
termination_by w.measure s
decreasing_by exact w.decreases s on

/-- From `s` the loop ends in the last state after so many rounds. -/
inductive Ends : Nat → σ → σ → Prop
  | stop (s : σ) (off : ¬ w.guard s) : Ends 0 s s
  | round {n : Nat} {s last : σ} (on : w.guard s) (rest : Ends n (w.body s on) last) :
      Ends (n + 1) s last

variable {w}

theorem ends_run (s : σ) : ∃ n, n ≤ w.measure s ∧ w.Ends n s (w.run s) := by
  induction s using run.induct w with
  | case1 s on decided ih =>
    obtain ⟨n, le, ends⟩ := ih
    rw [run, decided]
    exact ⟨n + 1, Nat.lt_of_le_of_lt le (w.decreases s on), .round on ends⟩
  | case2 s off decided =>
    rw [run, decided]
    exact ⟨0, Nat.zero_le _, .stop s off⟩

/-- The rule for loops: what each round keeps holds in the end, where the guard does not. -/
theorem run_invariant {I : σ → Prop} (keep : ∀ s on, I s → I (w.body s on)) {s : σ} (start : I s) :
    I (w.run s) ∧ ¬ w.guard (w.run s) := by
  obtain ⟨n, -, ends⟩ := w.ends_run s
  generalize w.run s = last at ends
  induction ends with
  | stop s off => exact ⟨start, off⟩
  | round on rest ih => exact ih (keep _ on start)

end While
