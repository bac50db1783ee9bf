import BraveRotator.Lib.Runs

/-! Runs in which the steps that count use up a potential. -/

namespace Descent

open Runs

variable {σ ε β τ : Type*}

/-- While `I` holds and the events are among `P`, no step raises the potential, and a step that `f` sees
    lowers it. -/
structure Descends (step : σ → ε → σ) (f : σ → ε → Option β) (I : σ → Prop) (P : ε → Prop)
    (potential : σ → Nat) : Prop where
  keep : ∀ s e, I s → P e → I (step s e)
  falls : ∀ s e, I s → P e → potential (step s e) + (f s e).toList.length ≤ potential s

variable {step : σ → ε → σ} {f : σ → ε → Option β} {I : σ → Prop} {P : ε → Prop} {potential : σ → Nat}

/-- However the run goes, it has no more steps that count than the potential allows. -/
theorem Descends.bounded (descends : Descends step f I P potential) {s : σ} (start : I s) {es : List ε}
    (allowed : ∀ e ∈ es, P e) : potential (exec step s es) + (collect step f s es).length ≤ potential s := by
  induction es generalizing s with
  | nil => simp
  | cons e es ih =>
    have first := allowed e List.mem_cons_self
    have falls := descends.falls s e start first
    have rest := ih (descends.keep s e start first) fun e' member =>
      allowed e' (List.mem_cons_of_mem e member)
    rw [collect_cons, exec_cons, List.length_append]
    omega

end Descent
