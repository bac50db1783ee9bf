import BraveRotator.Lib.Runs

/-! One system of timed events that does no more than another one allows. -/

namespace Simulation

open Runs

variable {σ ε σ' ε' β τ : Type*}

section Match

variable (step : σ → ε → σ) (time : ε → τ) (shown : σ → ε → Option β)
variable (step' : σ' → ε' → σ') (time' : ε' → τ) (shown' : σ' → ε' → Option β)

/-- Each event of the first system is matched by events of the second at the same time, which show the
    same and lead to related states. -/
def Matches (R : σ → σ' → Prop) : Prop :=
  ∀ s s' e, R s s' → ∃ es' : List ε', R (step s e) (exec step' s' es') ∧
    collect step' shown' s' es' = (shown s e).toList ∧ ∀ e' ∈ es', time' e' = time e

variable {step time shown step' time' shown'}

theorem ordered_append_of_same [Preorder τ] {now : τ} {e : ε} {es' more : List ε'}
    (same : ∀ e' ∈ es', time' e' = time e) (le : now ≤ time e)
    (ordered : Ordered time' (time e) more) : Ordered time' now (es' ++ more) := by
  induction es' generalizing now with
  | nil => exact ordered.weaken le
  | cons e' es' ih =>
    have first := same e' List.mem_cons_self
    refine ⟨first ▸ le, ih (fun e'' member => same e'' (List.mem_cons_of_mem _ member)) ?_⟩
    exact first.le

/-- The run lemma: what the first system shows along a run, the second shows along one of its own. -/
theorem Matches.run [Preorder τ] {R : σ → σ' → Prop}
    (fits : Matches step time shown step' time' shown' R) (es : List ε) {s : σ} {s' : σ'}
    (related : R s s') :
    ∃ es' : List ε', R (exec step s es) (exec step' s' es') ∧
      collect step' shown' s' es' = collect step shown s es ∧
      ∀ now, Ordered time now es → Ordered time' now es' := by
  induction es generalizing s s' with
  | nil => exact ⟨[], related, rfl, fun _ _ => trivial⟩
  | cons e es ih =>
    obtain ⟨first, next, same, at_⟩ := fits s s' e related
    obtain ⟨rest, last, same', order⟩ := ih next
    refine ⟨first ++ rest, ?_, ?_, ?_⟩
    · rw [exec_append]
      exact last
    · rw [collect_append, same, same']
      rfl
    · intro now ordered
      exact ordered_append_of_same at_ ordered.1 (order _ ordered.2)

end Match

section Image

variable {step : σ → ε → σ} {step' : σ' → ε → σ'} {image : σ → σ'}

/-- A system run on the image of a state shows the same, when each step commutes with taking the image. -/
theorem collect_image {shown : σ → ε → Option β} {shown' : σ' → ε → Option β}
    (commutes : ∀ s e, step' (image s) e = image (step s e))
    (same : ∀ s e, shown' (image s) e = shown s e) (s : σ) (es : List ε) :
    collect step' shown' (image s) es = collect step shown s es := by
  induction es generalizing s with
  | nil => rfl
  | cons e es ih => rw [collect_cons, collect_cons, commutes, same, ih]

end Image

section Idle

variable {step : σ → ε → σ} {I : σ → Prop} {skip : ε → Bool}

/-- Events that do nothing can be left out of a run. -/
theorem exec_filter (keep : ∀ s e, I s → I (step s e)) (idle : ∀ s e, I s → skip e = true → step s e = s)
    (shown : σ → ε → Option β) (es : List ε) {s : σ} (start : I s) :
    exec step s (es.filter (!skip ·)) = exec step s es ∧
      collect step shown s (es.filter (!skip ·)) =
        collect step (fun s e => if skip e = true then none else shown s e) s es := by
  induction es generalizing s with
  | nil => exact ⟨rfl, rfl⟩
  | cons e es ih =>
    obtain ⟨last, shows⟩ := ih (keep s e start)
    rw [List.filter_cons, exec_cons, collect_cons, ← last, ← shows]
    by_cases out : skip e = true
    · rw [out, if_pos rfl, idle s e start out]
      exact ⟨rfl, rfl⟩
    · rw [Bool.not_eq_true] at out
      rw [out]
      exact ⟨rfl, rfl⟩

end Idle

end Simulation
