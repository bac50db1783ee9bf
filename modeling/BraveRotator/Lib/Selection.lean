import Mathlib.Data.List.MinMax
import Mathlib.Tactic.Common

/-! The first of the least elements of a list. -/

namespace Selection

variable {α β γ δ : Type*}

theorem foldl_argAux_map (r : β → β → Prop) [DecidableRel r] (g : α → β) (l : List α)
    (best : Option α) :
    (l.map g).foldl (List.argAux r) (best.map g) =
      (l.foldl (List.argAux fun a b => r (g a) (g b)) best).map g := by
  induction l generalizing best with
  | nil => rfl
  | cons a l ih =>
    have step : List.argAux r (best.map g) (g a) =
        (List.argAux (fun a b => r (g a) (g b)) best a).map g := by
      cases best with
      | none => rfl
      | some b =>
        simp only [List.argAux, Option.map_some]
        split <;> rfl
    rw [List.map_cons, List.foldl_cons, List.foldl_cons, step]
    exact ih _

theorem argmin_map [LinearOrder γ] (g : α → β) (f : β → γ) (l : List α) :
    (l.map g).argmin f = (l.argmin (f ∘ g)).map g :=
  foldl_argAux_map (fun a b => f a < f b) g l none

/-- The choice depends on nothing but how the elements compare. -/
theorem argmin_congr [LinearOrder γ] [LinearOrder δ] {f : α → γ} {g : α → δ} {l : List α}
    (same : ∀ a ∈ l, ∀ b ∈ l, f a ≤ f b ↔ g a ≤ g b) : l.argmin f = l.argmin g := by
  classical
  apply Option.ext
  intro m
  show m ∈ l.argmin f ↔ m ∈ l.argmin g
  rw [List.mem_argmin_iff, List.mem_argmin_iff]
  refine and_congr_right fun member => ?_
  refine and_congr (forall₂_congr fun a inside => same m member a inside) ?_
  exact forall₂_congr fun a inside => imp_congr_left (same a inside m member)

/-- Where the keys go up along the list, the choice is the element of the least key among those that
    compare alike. -/
theorem key_le_of_mem_argmin [LinearOrder γ] [LinearOrder δ] {f : α → γ} {key : α → δ} {l : List α}
    {m a : α} (increasing : l.Pairwise fun a b => key a < key b) (best : m ∈ l.argmin f)
    (member : a ∈ l) (alike : f a ≤ f m) : key m ≤ key a := by
  classical
  obtain ⟨inside, -, first⟩ := List.mem_argmin_iff.mp best
  have order := first a member alike
  rcases Nat.lt_or_eq_of_le order with before | same
  · have positions := List.pairwise_iff_getElem.mp increasing (l.idxOf m) (l.idxOf a)
      (List.idxOf_lt_length_of_mem inside) (List.idxOf_lt_length_of_mem member) before
    rw [List.getElem_idxOf, List.getElem_idxOf] at positions
    exact positions.le
  · rw [(List.idxOf_inj inside).mp same]

end Selection
