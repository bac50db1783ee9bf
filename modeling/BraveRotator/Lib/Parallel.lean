import BraveRotator.Lib.Runs

/-! Events that each concern one part of the state. -/

namespace Parallel

open Runs

variable {σ ε ι α β : Type*}

/-- An event changes the part that owns it as `act` says and shows what `tell` says, and leaves the
    other parts alone. -/
structure Local (step : σ → ε → σ) (shown : σ → ε → Option β) (owner : ε → ι) (part : ι → σ → α)
    (act : α → ε → α) (tell : α → ε → Option β) : Prop where
  own : ∀ s e, part (owner e) (step s e) = act (part (owner e) s) e
  others : ∀ s e i, i ≠ owner e → part i (step s e) = part i s
  told : ∀ s e, shown s e = tell (part (owner e) s) e

variable {step : σ → ε → σ} {shown : σ → ε → Option β} {owner : ε → ι} {part : ι → σ → α}
  {act : α → ε → α} {tell : α → ε → Option β} [DecidableEq ι]

def ownedBy (owner : ε → ι) (i : ι) (es : List ε) : List ε := es.filter fun e => owner e = i

/-- What is shown with the events of one part. -/
def shownTo (shown : σ → ε → Option β) (owner : ε → ι) (i : ι) (s : σ) (e : ε) : Option β :=
  if owner e = i then shown s e else none

/-- The run lemma: each part goes through its own events alone. -/
theorem Local.run (parts : Local step shown owner part act tell) (i : ι) (es : List ε) (s : σ) :
    part i (exec step s es) = exec act (part i s) (ownedBy owner i es) ∧
      collect step (shownTo shown owner i) s es = collect act tell (part i s) (ownedBy owner i es) := by
  induction es generalizing s with
  | nil => exact ⟨rfl, rfl⟩
  | cons e es ih =>
    obtain ⟨last, shows⟩ := ih (step s e)
    rw [exec_cons, collect_cons, last, shows]
    unfold ownedBy shownTo
    rw [List.filter_cons]
    by_cases mine : owner e = i
    · subst mine
      rw [if_pos rfl, if_pos (decide_eq_true rfl), exec_cons, collect_cons, parts.own, parts.told]
      exact ⟨rfl, rfl⟩
    · rw [if_neg mine, if_neg (by simpa using mine), parts.others s e i (Ne.symm mine)]
      exact ⟨rfl, rfl⟩

theorem Local.congr (parts : Local step shown owner part act tell) {es es' : List ε} {i : ι}
    (same : ownedBy owner i es = ownedBy owner i es') (s : σ) :
    part i (exec step s es) = part i (exec step s es') ∧
      collect step (shownTo shown owner i) s es = collect step (shownTo shown owner i) s es' := by
  obtain ⟨last, shows⟩ := parts.run i es s
  obtain ⟨last', shows'⟩ := parts.run i es' s
  rw [last, last', shows, shows', same]
  exact ⟨rfl, rfl⟩

end Parallel
