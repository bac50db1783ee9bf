import BraveRotator.Traffic.Step

namespace BraveRotator

namespace KeyState

/-- A slot that keeps the key from being leased until the instant in it, and that passes over the
    pool leave alone until then. -/
structure Blocks (slot : KeyState → Option Instant) : Prop where
  free : ∀ {k : KeyState} {now : Instant} {window : Duration} {d : Instant},
    ((k.refresh now).availability now window).2 = .ok () → slot k = some d → d ≤ now
  tidied : ∀ {k k' : KeyState} {now : Instant} {window : Duration} {d : Instant},
    k.Tidied now window k' → slot k = some d → now < d → slot k' = some d

theorem blocks_parkedUntil : Blocks fun k => k.health.parkedUntil? where
  free free parked := (refresh_ok_iff _ _).mp (availability_ok_iff.mp free).1 _ parked
  tidied := by
    intro k k' now window d tidied parked ahead
    have sick : ¬ k.Healthy now := fun healthy => Nat.not_lt.mpr (healthy d parked) ahead
    rcases tidied with rfl | rfl
    · rw [k.refresh_of_parked now sick, parked]
    · rw [availability_health, k.refresh_of_parked now sick, parked]

theorem blocks_holdUntil : Blocks KeyState.holdUntil where
  free := by
    intro k now window d free held
    by_contra ahead
    refine (availability_ok_iff.mp free).2.1 ⟨d, ?_, Nat.lt_of_not_le ahead⟩
    rw [refresh_holdUntil, held]
  tidied := by
    intro k k' now window d tidied held ahead
    rcases tidied with rfl | rfl
    · rw [refresh_holdUntil, held]
    · exact availability_holdUntil _ _ _ (by rw [refresh_holdUntil, held]) ahead

end KeyState

namespace Traffic

section Slot

variable {slot : KeyState → Option Instant} {i : Nat}

def slot? (slot : KeyState → Option Instant) (i : Nat) (t : Traffic) : Option Instant :=
  (t.key? i).bind slot

/-- No recorded outcome moves the slot of key `i` to an earlier instant. -/
def Postpones (slot : KeyState → Option Instant) (i : Nat) (t : Traffic) (e : Event) : Prop :=
  ∀ k ∈ t.key? i, ∀ o ∈ recorded i t e, ∀ d ∈ slot k,
    ∃ d' ∈ slot (k.digest e.time o).1, d ≤ d'

theorem slot?_eq_some {t : Traffic} {d : Instant} :
    slot? slot i t = some d ↔ ∃ k, t.key? i = some k ∧ slot k = some d := Option.bind_eq_some_iff

/-- The step lemma: until the instant is reached, the slot holds it or a later one. -/
theorem slot_step (blocks : KeyState.Blocks slot) {t : Traffic} {e : Event} {u d : Instant}
    (postpones : Postpones slot i t e) (held : slot? slot i t = some d) (later : u ≤ d)
    (ahead : ¬ u ≤ e.time) : ∃ d', slot? slot i (t.step e) = some d' ∧ u ≤ d' := by
  obtain ⟨k, here, held⟩ := slot?_eq_some.mp held
  obtain ⟨k', there, turn⟩ := t.step_key here e
  have waiting : e.time < d := (Nat.lt_of_not_le ahead).trans_le later
  have same (kept : slot k' = some d) : ∃ d', slot? slot i (t.step e) = some d' ∧ u ≤ d' :=
    ⟨d, slot?_eq_some.mpr ⟨k', there, kept⟩, later⟩
  generalize recording : recorded i t e = outcome at turn
  generalize decide (t.leased e = some i) = leased at turn
  cases turn with
  | digested o =>
    obtain ⟨d', moved, le⟩ := postpones k here o recording d held
    exact ⟨d', slot?_eq_some.mpr ⟨_, there, moved⟩, later.trans le⟩
  | granted free => exact absurd (blocks.free free held) (Nat.not_le.mpr waiting)
  | tidied _ tidied => exact same (blocks.tidied tidied held waiting)
  | untouched => exact same held

/-- The run lemma: a key whose slot holds `u` is not leased before `u`. -/
theorem slot_run (blocks : KeyState.Blocks slot) {t : Traffic} {before during after : List Event}
    {e : Event} {u : Instant}
    (ordered : Runs.Ordered Event.time 0 (before ++ (during ++ e :: after)))
    (postpones : Runs.Along step (Postpones slot i) t (before ++ (during ++ e :: after)))
    (held : slot? slot i (t.after before) = some u)
    (leased : (t.after (before ++ during)).leased e = some i) : u ≤ e.time := by
  obtain ⟨-, rest⟩ := (Runs.ordered_append Event.time 0 before _).mp ordered
  obtain ⟨past, le, -⟩ := (Runs.ordered_append Event.time _ during _).mp rest
  obtain ⟨-, post⟩ := (Runs.along_append step _ t before _).mp postpones
  obtain ⟨post, -⟩ := (Runs.along_append step _ _ during _).mp post
  have covered := Runs.covered_run Event.time (slot? slot i)
    (fun t e d post held later ahead => slot_step blocks post held later ahead)
    (.inr ⟨u, held, le_rfl⟩) past post
  rw [after_append] at leased
  rcases covered with reached | ⟨d, held, later⟩
  · exact reached.trans le
  · obtain ⟨k, here, held⟩ := slot?_eq_some.mp held
    exact later.trans (blocks.free (free_of_leased _ here leased) held)

end Slot

end Traffic

end BraveRotator
