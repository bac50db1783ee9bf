import Mathlib.Order.Basic
import Mathlib.Tactic.Common

/-! A loop that tries, sleeps until the instant the refusal named, and tries again. -/

namespace WaitLoop

inductive Reply (α β : Type*) where
  | done (a : α)
  | retryAt (instant : Nat)
  | stuck (b : β)

inductive Ending (α β : Type*) where
  | done (a : α)
  | late (instant : Nat)
  | stuck (b : β)

variable {σ α β : Type*} (attempt : σ → Nat → σ × Reply α β) (deadline : Nat)

/-- The final state, the instant of the last attempt and its ending; `none` when the fuel runs out
    first. -/
def loop : Nat → σ → Nat → Option (σ × Nat × Ending α β)
  | 0, _, _ => none
  | fuel + 1, s, now =>
    match (attempt s now).2 with
    | .done a => some ((attempt s now).1, now, .done a)
    | .retryAt t =>
      if deadline < t then some ((attempt s now).1, now, .late t)
      else loop fuel (attempt s now).1 (max now t)
    | .stuck b => some ((attempt s now).1, now, .stuck b)

/-- Nothing succeeds from `s` at `start` or later, before `t`. -/
def NoneBefore (s : σ) (start t : Nat) : Prop :=
  ∀ earlier a, start ≤ earlier → earlier < t → (attempt s earlier).2 ≠ .done a

/-- The ending tells of the earliest success: the one at `t`, or one past the deadline. -/
def Earliest (s : σ) (start t : Nat) : Ending α β → Prop
  | .done a =>
    (attempt s t).2 = .done a ∧ start ≤ t ∧ (t = start ∨ t ≤ deadline) ∧
      NoneBefore attempt s start t
  | .late u => start ≤ t ∧ t < u ∧ deadline < u ∧ NoneBefore attempt s start u
  | .stuck _ => False

/-- What makes the loop find the earliest success. `Same t s s'`: `s'` came out of refused attempts
    on `s`, none of them after `t`. -/
structure Sound (Same : Nat → σ → σ → Prop) : Prop where
  reply : ∀ {t s s'}, Same t s s' → (attempt s' t).2 = (attempt s t).2
  refused : ∀ {t u s s'}, Same t s s' → (attempt s' t).2 = .retryAt u →
    Same u s (attempt s' t).1
  /-- The wait named is in the future, and nothing succeeds before it is over. -/
  future : ∀ {t u s}, (attempt s t).2 = .retryAt u → t < u
  earliest : ∀ {t u s}, (attempt s t).2 = .retryAt u → NoneBefore attempt s t u

variable {attempt deadline}

theorem NoneBefore.append {s : σ} {start t u : Nat} (first : NoneBefore attempt s start t)
    (rest : NoneBefore attempt s t u) : NoneBefore attempt s start u := by
  intro earlier a le lt
  by_cases before : earlier < t
  · exact first earlier a le before
  · exact rest earlier a (Nat.le_of_not_lt before) lt

theorem loop_mono {fuel : Nat} {s : σ} {now : Nat} {r : σ × Nat × Ending α β}
    (ends : loop attempt deadline fuel s now = some r) :
    ∀ more, fuel ≤ more → loop attempt deadline more s now = some r := by
  induction fuel generalizing s now with
  | zero => cases ends
  | succ fuel ih =>
    intro more le
    obtain ⟨more, rfl⟩ := Nat.exists_eq_add_of_le' (Nat.le_of_add_left_le le : 1 ≤ more)
    simp only [loop] at ends ⊢
    cases result : (attempt s now).2 with
    | done a => simpa [result] using ends
    | stuck b => simpa [result] using ends
    | retryAt t =>
      simp only [result] at ends ⊢
      split at ends
      · rename_i past
        rw [if_pos past, ends]
      · rename_i waits
        rw [if_neg waits]
        exact ih ends more (Nat.le_of_succ_le_succ le)

/-- The loop from any point of the wait; the time left until the deadline shrinks at each turn. -/
theorem Sound.loop_from {Same : Nat → σ → σ → Prop} (sound : Sound attempt Same) {start : Nat}
    {s : σ} (live : ∀ t, start ≤ t → ∀ b, (attempt s t).2 ≠ .stuck b) (now : Nat) (s' : σ)
    (le : start ≤ now) (reach : now = start ∨ now ≤ deadline) (same : Same now s s')
    (none : NoneBefore attempt s start now) :
    ∃ fuel last t ending, loop attempt deadline fuel s' now = some ((attempt last t).1, t, ending) ∧
      Same t s last ∧ Earliest attempt deadline s start t ending := by
  induction left : deadline - now using Nat.strongRecOn generalizing now s' with
  | _ left' ih =>
    have reply := sound.reply same
    cases result : (attempt s' now).2 with
    | done a =>
      refine ⟨1, s', now, .done a, by simp [loop, result], same, ?_, le, reach, none⟩
      rw [← reply, result]
    | stuck b => exact absurd (reply ▸ result) (live now le b)
    | retryAt u =>
      have original : (attempt s now).2 = .retryAt u := by rw [← reply, result]
      have lt := sound.future original
      have noneBefore := none.append (sound.earliest original)
      by_cases past : deadline < u
      · exact ⟨1, s', now, .late u, by simp [loop, result, past], same, le, lt, past, noneBefore⟩
      · have shrinks : deadline - u < left' := by omega
        obtain ⟨fuel, last, t, ending, ends, found⟩ := ih _ shrinks u (attempt s' now).1
          (by omega) (.inr (by omega)) (sound.refused same result) noneBefore rfl
        have wakes : max now u = u := by omega
        exact ⟨fuel + 1, last, t, ending, by simp [loop, result, past, wakes, ends], found⟩

/-- The loop ends, at the earliest success if there is one in time, and with what the attempt there
    makes of a state that none can tell from the first. -/
theorem Sound.loop_earliest {Same : Nat → σ → σ → Prop} (sound : Sound attempt Same)
    (deadline : Nat) {start : Nat} {s : σ} (live : ∀ t, start ≤ t → ∀ b, (attempt s t).2 ≠ .stuck b)
    (same : Same start s s) :
    ∃ fuel last t ending, loop attempt deadline fuel s start = some ((attempt last t).1, t, ending) ∧
      Same t s last ∧ Earliest attempt deadline s start t ending :=
  sound.loop_from live start s (Nat.le_refl _) (.inl rfl) same
    (fun _ _ le lt => absurd (Nat.lt_of_le_of_lt le lt) (Nat.lt_irrefl _))

end WaitLoop
