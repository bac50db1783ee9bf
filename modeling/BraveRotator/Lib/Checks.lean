import Mathlib.Data.List.Basic

/-! Checks made one after the other, of which the first that fails ends it all with an error. -/

namespace Checks

variable {α β : Type} {name : String} {holds : Bool} {checks : List (String × Bool)}

/-- The computation gets through where all checks hold, and where not, its error starts with the name
    of the first that does not. -/
def Blames (checks : List (String × Bool)) : Except String α → Prop
  | .ok _ => ∀ c ∈ checks, c.2 = true
  | .error e => ∃ c, checks.find? (!·.2) = some c ∧ c.1.toList <+: e.toList

theorem blames_pure (a : α) : Blames [] (.ok a) := fun _ member => by cases member

/-- One step that makes one check. -/
structure Step (name : String) (holds : Bool) (x : Except String α) : Prop where
  holds : x.toBool = holds
  named : ∀ e, x = .error e → name.toList <+: e.toList

theorem Step.bind {x : Except String α} {f : α → Except String β} (step : Step name holds x)
    (rest : ∀ a, x = .ok a → Blames checks (f a)) : Blames ((name, holds) :: checks) (x >>= f) := by
  obtain ⟨same, named⟩ := step
  cases x with
  | error e =>
    have fails : holds = false := same.symm
    rw [fails]
    exact ⟨(name, false), rfl, named e rfl⟩
  | ok a =>
    have succeeds : holds = true := same.symm
    rw [succeeds]
    have later : Blames checks (f a) := rest a rfl
    have next : (Except.ok a >>= f : Except String β) = f a := rfl
    rw [next]
    cases done : f a with
    | ok b =>
      rw [done] at later
      intro c member
      rcases List.mem_cons.mp member with rfl | member
      · rfl
      · exact later c member
    | error e =>
      rw [done] at later
      exact later

theorem blames_guard {fails : Bool} {e : String} {thrown rest : Except String β}
    (same : holds = !fails) (throws : thrown = .error e) (named : name.toList <+: e.toList)
    (later : fails = false → Blames checks rest) :
    Blames ((name, holds) :: checks) (if fails = true then thrown else rest) := by
  rw [same]
  cases fails with
  | true =>
    rw [if_pos rfl, throws]
    exact ⟨(name, false), rfl, named⟩
  | false =>
    have step : Step name true (.ok () : Except String Unit) := ⟨rfl, nofun⟩
    exact step.bind fun _ _ => later rfl

theorem Blames.ok_iff {x : Except String α} (blames : Blames checks x) :
    (∃ a, x = .ok a) ↔ ∀ c ∈ checks, c.2 = true := by
  cases x with
  | ok a => exact iff_of_true ⟨a, rfl⟩ blames
  | error e =>
    obtain ⟨c, found, -⟩ := blames
    refine iff_of_false nofun ?_
    intro all
    have fails := List.find?_some found
    rw [all c (List.mem_of_find?_eq_some found)] at fails
    cases fails

theorem step_mapError {x : Except String α} {f : String → String}
    (named : ∀ e, name.toList <+: (f e).toList) : Step name x.toBool (x.mapError f) := by
  cases x with
  | ok a => exact ⟨rfl, nofun⟩
  | error e =>
    refine ⟨rfl, ?_⟩
    intro e' same
    cases same
    exact named e

end Checks
