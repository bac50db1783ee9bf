import BraveRotator.Lib.SlidingWindow
import BraveRotator.Model.Calls

namespace BraveRotator

open SlidingWindow

def Health.parkedUntil? : Health → Option Instant
  | .ok => none
  | .disabled u _ => some u
  | .exhausted u => some u

namespace KeyState

/-- Not parked, or parked until `now` at most. -/
def Healthy (k : KeyState) (now : Instant) : Prop := ∀ u, k.health.parkedUntil? = some u → u ≤ now

def Held (k : KeyState) (now : Instant) : Prop := ∃ h, k.holdUntil = some h ∧ now < h

/-- May be leased at `now`: healthy, not held and with room in its window. -/
structure Eligible (k : KeyState) (now : Instant) (window : Duration) : Prop where
  healthy : k.Healthy now
  free : ¬ k.Held now
  room : recent window now k.sends < k.secLimit

/-- What a pass over the pool does to a key it does not lease: `refresh`, or `refresh` and
    `availability`. -/
def Tidied (now : Instant) (window : Duration) (k k' : KeyState) : Prop :=
  k' = k.refresh now ∨ k' = ((k.refresh now).availability now window).1

instance Healthy.decidable (k : KeyState) (now : Instant) : Decidable (k.Healthy now) :=
  match h : k.health.parkedUntil? with
  | none => .isTrue (by simp [Healthy, h])
  | some u => if le : u ≤ now then .isTrue (by simpa [Healthy, h] using le)
    else .isFalse (by simpa [Healthy, h] using le)

instance Held.decidable (k : KeyState) (now : Instant) : Decidable (k.Held now) :=
  match h : k.holdUntil with
  | none => .isFalse (by simp [Held, h])
  | some u => if lt : now < u then .isTrue ⟨u, h, lt⟩ else .isFalse (by simpa [Held, h] using lt)

instance Eligible.decidable (k : KeyState) (now : Instant) (window : Duration) :
    Decidable (k.Eligible now window) :=
  decidable_of_iff (k.Healthy now ∧ ¬ k.Held now ∧ recent window now k.sends < k.secLimit)
    ⟨fun h => ⟨h.1, h.2.1, h.2.2⟩, fun h => ⟨h.1, h.2, h.3⟩⟩

section Refresh

variable (k : KeyState) (now : Instant)

theorem refresh_of_healthy (healthy : k.Healthy now) : (k.refresh now).health = .ok := by
  unfold refresh
  cases h : k.health with
  | ok => simpa using h
  | disabled u reason => simp [healthy u (by simp [h, Health.parkedUntil?])]
  | exhausted u => simp [healthy u (by simp [h, Health.parkedUntil?])]

theorem refresh_of_parked (parked : ¬ k.Healthy now) : k.refresh now = k := by
  unfold Healthy at parked
  unfold refresh
  cases h : k.health with
  | ok => rfl
  | disabled u reason => simp_all [Health.parkedUntil?]
  | exhausted u => simp_all [Health.parkedUntil?]

theorem refresh_health : (k.refresh now).health = if k.Healthy now then .ok else k.health := by
  split
  · rename_i healthy
    exact k.refresh_of_healthy now healthy
  · rename_i parked
    rw [k.refresh_of_parked now parked]

theorem refresh_ok_iff : (k.refresh now).health = .ok ↔ k.Healthy now := by
  rw [refresh_health]
  constructor
  · intro ok
    by_contra parked
    rw [if_neg parked] at ok
    exact parked (by simp [Healthy, ok, Health.parkedUntil?])
  · intro healthy
    rw [if_pos healthy]

theorem refresh_fields : ∃ health monthRemaining monthResetAt,
    k.refresh now = { k with health, monthRemaining, monthResetAt } := by
  unfold refresh
  split
  · split <;> exact ⟨_, _, _, rfl⟩
  · split <;> exact ⟨_, _, _, rfl⟩
  · exact ⟨_, _, _, rfl⟩

@[simp] theorem refresh_secLimit : (k.refresh now).secLimit = k.secLimit := by
  obtain ⟨_, _, _, same⟩ := k.refresh_fields now; rw [same]

@[simp] theorem refresh_sends : (k.refresh now).sends = k.sends := by
  obtain ⟨_, _, _, same⟩ := k.refresh_fields now; rw [same]

@[simp] theorem refresh_holdUntil : (k.refresh now).holdUntil = k.holdUntil := by
  obtain ⟨_, _, _, same⟩ := k.refresh_fields now; rw [same]

@[simp] theorem refresh_lastUsed : (k.refresh now).lastUsed = k.lastUsed := by
  obtain ⟨_, _, _, same⟩ := k.refresh_fields now; rw [same]

@[simp] theorem refresh_stats : (k.refresh now).stats = k.stats := by
  obtain ⟨_, _, _, same⟩ := k.refresh_fields now; rw [same]

@[simp] theorem refresh_disableStrikes : (k.refresh now).disableStrikes = k.disableStrikes := by
  obtain ⟨_, _, _, same⟩ := k.refresh_fields now; rw [same]

@[simp] theorem refresh_monthlyCapOverride :
    (k.refresh now).monthlyCapOverride = k.monthlyCapOverride := by
  obtain ⟨_, _, _, same⟩ := k.refresh_fields now; rw [same]

end Refresh

section Availability

variable (k : KeyState) (now : Instant) (window : Duration)

theorem availability_of_parked {u : Instant} (parked : k.health.parkedUntil? = some u) :
    k.availability now window = (k, .error u) := by
  unfold availability
  cases h : k.health <;> simp_all [Health.parkedUntil?]

theorem availability_of_held {h : Instant} (ok : k.health = .ok) (held : k.holdUntil = some h)
    (ahead : now < h) : k.availability now window = (k, .error h) := by
  have kept : k.holdUntil.filter (now < ·) = some h := by
    rw [held, Option.filter_some, if_pos (decide_eq_true ahead)]
  simp only [availability, ok, kept]

theorem availability_of_free (ok : k.health = .ok) (free : ¬ k.Held now) :
    k.availability now window = { k with holdUntil := none }.windowAvailability now window := by
  have noHold : k.holdUntil.filter (now < ·) = none := by
    cases h : k.holdUntil with
    | none => rfl
    | some u =>
      have past : ¬ now < u := fun lt => free ⟨u, h, lt⟩
      rw [Option.filter_some, if_neg (by simpa using past)]
  simp only [availability, ok, noHold]

theorem availability_cases :
    (∃ u, k.health.parkedUntil? = some u ∧ k.availability now window = (k, .error u)) ∨
    (∃ h, k.health = .ok ∧ k.holdUntil = some h ∧ now < h ∧
      k.availability now window = (k, .error h)) ∨
    (k.health = .ok ∧ ¬ k.Held now ∧
      k.availability now window = { k with holdUntil := none }.windowAvailability now window) := by
  cases parked : k.health.parkedUntil? with
  | some u => exact .inl ⟨u, rfl, k.availability_of_parked now window parked⟩
  | none =>
    have ok : k.health = .ok := by
      cases h : k.health <;> simp_all [Health.parkedUntil?]
    by_cases held : k.Held now
    · obtain ⟨h, hold, ahead⟩ := held
      exact .inr (.inl ⟨h, ok, hold, ahead, k.availability_of_held now window ok hold ahead⟩)
    · exact .inr (.inr ⟨ok, held, k.availability_of_free now window ok held⟩)

theorem availability_fields : ∃ holdUntil sends,
    (k.availability now window).1 = { k with holdUntil, sends } := by
  rcases k.availability_cases now window with ⟨u, _, same⟩ | ⟨h, _, _, _, same⟩ | ⟨_, _, same⟩
  all_goals rw [same]
  · exact ⟨_, _, rfl⟩
  · exact ⟨_, _, rfl⟩
  · exact ⟨_, _, rfl⟩

@[simp] theorem availability_health : (k.availability now window).1.health = k.health := by
  obtain ⟨_, _, same⟩ := k.availability_fields now window; rw [same]

@[simp] theorem availability_secLimit : (k.availability now window).1.secLimit = k.secLimit := by
  obtain ⟨_, _, same⟩ := k.availability_fields now window; rw [same]

@[simp] theorem availability_lastUsed : (k.availability now window).1.lastUsed = k.lastUsed := by
  obtain ⟨_, _, same⟩ := k.availability_fields now window; rw [same]

@[simp] theorem availability_stats : (k.availability now window).1.stats = k.stats := by
  obtain ⟨_, _, same⟩ := k.availability_fields now window; rw [same]

@[simp] theorem availability_disableStrikes :
    (k.availability now window).1.disableStrikes = k.disableStrikes := by
  obtain ⟨_, _, same⟩ := k.availability_fields now window; rw [same]

@[simp] theorem availability_monthlyCapOverride :
    (k.availability now window).1.monthlyCapOverride = k.monthlyCapOverride := by
  obtain ⟨_, _, same⟩ := k.availability_fields now window; rw [same]

theorem availability_score : (k.availability now window).1.score = k.score := by
  obtain ⟨_, _, same⟩ := k.availability_fields now window; rw [same]; rfl

theorem availability_holdUntil {h : Instant} (held : k.holdUntil = some h) (ahead : now < h) :
    (k.availability now window).1.holdUntil = some h := by
  rcases k.availability_cases now window with ⟨u, _, same⟩ | ⟨_, _, _, _, same⟩ | ⟨_, free, _⟩
  · rw [same, held]
  · rw [same, held]
  · exact absurd ⟨h, held, ahead⟩ free

end Availability

section Window

variable {k : KeyState} {now : Instant} {window : Duration}

theorem pruneWindow_sends (positive : 0 < window) :
    (k.pruneWindow now window).sends = k.sends.dropWhile fun t => t + window ≤ now := by
  have same : (fun t => decide (window ≤ saturatingDurationSince now t)) =
      fun t => decide (t + window ≤ now) := by
    funext t
    unfold saturatingDurationSince
    congr 1
    apply propext
    lia
  simp only [pruneWindow, same]

theorem availability_sends (k : KeyState) (now : Instant) (window : Duration) :
    (k.availability now window).1.sends = k.sends ∨
      (k.availability now window).1.sends = (k.pruneWindow now window).sends := by
  rcases k.availability_cases now window with ⟨_, _, same⟩ | ⟨_, _, _, _, same⟩ | ⟨_, _, same⟩
  all_goals rw [same]
  · exact .inl rfl
  · exact .inl rfl
  · exact .inr rfl

theorem windowAvailability_ok_iff : (k.windowAvailability now window).2 = .ok () ↔
    wrapU32 (k.pruneWindow now window).sends.length < max k.secLimit 1 := by
  have limit : (k.pruneWindow now window).secLimit = k.secLimit := rfl
  unfold windowAvailability
  dsimp only
  rw [limit]
  cases front : (k.pruneWindow now window).sends with
  | nil => simp [wrapU32]
  | cons oldest rest =>
    simp only [List.head?_cons, ite_eq_right_iff, reduceCtorEq, imp_false, Nat.not_le]

theorem windowAvailability_error {u : Instant}
    (refused : (k.windowAvailability now window).2 = .error u) : ∃ oldest,
      (k.pruneWindow now window).sends.head? = some oldest ∧ u = oldest + window ∧
      max k.secLimit 1 ≤ wrapU32 (k.pruneWindow now window).sends.length := by
  unfold windowAvailability at refused
  dsimp only at refused
  split at refused
  · rename_i oldest front
    split at refused
    · rename_i full
      cases refused
      exact ⟨oldest, front, rfl, full⟩
    · cases refused
  · cases refused

theorem availability_ok_iff :
    (k.availability now window).2 = .ok () ↔ k.health = .ok ∧ ¬ k.Held now ∧
      wrapU32 (k.pruneWindow now window).sends.length < max k.secLimit 1 := by
  rcases k.availability_cases now window with ⟨u, parked, same⟩ | ⟨h, ok, hold, ahead, same⟩ |
    ⟨ok, free, same⟩
  · rw [same]
    constructor
    · intro refused; cases refused
    · rintro ⟨ok, -⟩
      simp [ok, Health.parkedUntil?] at parked
  · rw [same]
    constructor
    · intro refused; cases refused
    · rintro ⟨-, free, -⟩
      exact absurd ⟨h, hold, ahead⟩ free
  · rw [same, windowAvailability_ok_iff]
    simp only [ok, free, not_false_eq_true, true_and]
    rfl

theorem availability_of_ok (free : (k.availability now window).2 = .ok ()) :
    (k.availability now window).1 = { k.pruneWindow now window with holdUntil := none } := by
  obtain ⟨ok, unheld, -⟩ := availability_ok_iff.mp free
  rw [k.availability_of_free now window ok unheld]
  rfl

theorem availability_error {u : Instant} (refused : (k.availability now window).2 = .error u) :
    k.health.parkedUntil? = some u ∨
    (k.health = .ok ∧ k.holdUntil = some u ∧ now < u) ∨
    (k.health = .ok ∧ ¬ k.Held now ∧ ∃ oldest,
      (k.pruneWindow now window).sends.head? = some oldest ∧ u = oldest + window ∧
      max k.secLimit 1 ≤ wrapU32 (k.pruneWindow now window).sends.length) := by
  rcases k.availability_cases now window with ⟨u', parked, same⟩ | ⟨h, ok, hold, ahead, same⟩ |
    ⟨ok, free, same⟩
  · rw [same] at refused
    cases refused
    exact .inl parked
  · rw [same] at refused
    cases refused
    exact .inr (.inl ⟨ok, hold, ahead⟩)
  · rw [same] at refused
    exact .inr (.inr ⟨ok, free, windowAvailability_error refused⟩)

end Window

theorem lease_of_tidied {k k' : KeyState} {now : Instant} {window : Duration}
    (tidied : k.Tidied now window k') (i : Nat) : k'.lease i = k.lease i := by
  obtain ⟨_, _, _, fields⟩ := k.refresh_fields now
  rcases tidied with rfl | rfl
  · rw [fields]
    rfl
  · obtain ⟨_, _, swept⟩ := (k.refresh now).availability_fields now window
    rw [swept, fields]
    rfl

end KeyState

end BraveRotator
