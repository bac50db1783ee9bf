import BraveRotator.Key.Availability

namespace BraveRotator

theorem dropWhile_dropWhile {α : Type*} {p q : α → Bool} (weaker : ∀ a, p a = true → q a = true)
    (l : List α) : (l.dropWhile p).dropWhile q = l.dropWhile q := by
  induction l with
  | nil => rfl
  | cons a l ih =>
    cases first : p a with
    | true => rw [List.dropWhile_cons_of_pos first, List.dropWhile_cons_of_pos (weaker a first), ih]
    | false => rw [List.dropWhile_cons_of_neg (by simp [first])]

namespace KeyState

variable {k k' : KeyState} {t now u : Instant} {window : Duration}

def look (k : KeyState) (now : Instant) (window : Duration) : KeyState × Except Instant Unit :=
  (k.refresh now).availability now window

theorem Healthy.later (healthy : k.Healthy t) (le : t ≤ now) : k.Healthy now :=
  fun u parked => (healthy u parked).trans le

theorem refresh_of_ok (ok : k.health = .ok) (now : Instant) : k.refresh now = k := by
  rw [refresh, ok]

theorem refresh_refresh (k : KeyState) (le : t ≤ now) : (k.refresh t).refresh now = k.refresh now := by
  by_cases healthy : k.Healthy t
  · have later := healthy.later le
    rw [refresh_of_ok (k.refresh_of_healthy t healthy)]
    unfold refresh
    cases health : k.health with
    | ok => rfl
    | disabled u reason =>
      have past : u ≤ t := healthy u (by rw [health]; rfl)
      have past' : u ≤ now := past.trans le
      simp only [past, past', if_true]
    | exhausted u =>
      have past : u ≤ t := healthy u (by rw [health]; rfl)
      have past' : u ≤ now := past.trans le
      simp only [past, past', if_true]
  · rw [k.refresh_of_parked t healthy]

theorem pruneWindow_pruneWindow (k : KeyState) (window : Duration) (le : t ≤ now) :
    (k.pruneWindow t window).pruneWindow now window = k.pruneWindow now window := by
  have weaker : ∀ s, decide (window ≤ saturatingDurationSince t s) = true →
      decide (window ≤ saturatingDurationSince now s) = true := by
    intro s old
    simp only [saturatingDurationSince] at old ⊢
    lia
  simp only [pruneWindow, dropWhile_dropWhile weaker]

theorem windowAvailability_pruneWindow (k : KeyState) (window : Duration) (le : t ≤ now) :
    (k.pruneWindow t window).windowAvailability now window = k.windowAvailability now window := by
  unfold windowAvailability
  rw [k.pruneWindow_pruneWindow window le]

/-- A look leaves nothing for a later look to notice. -/
theorem availability_availability (k : KeyState) (window : Duration) (le : t ≤ now) :
    (k.availability t window).1.availability now window = k.availability now window := by
  rcases k.availability_cases t window with ⟨_, _, same⟩ | ⟨_, _, _, _, same⟩ | ⟨ok, free, same⟩
  · rw [same]
  · rw [same]
  · have later : ¬ k.Held now := fun ⟨h, held, ahead⟩ => free ⟨h, held, le.trans_lt ahead⟩
    have cleared : ¬ (({ k with holdUntil := none } : KeyState).pruneWindow t window).Held now := by
      rintro ⟨h, held, -⟩
      cases held
    have start : (k.availability t window).1 =
        ({ k with holdUntil := none } : KeyState).pruneWindow t window := by
      rw [same]
      rfl
    rw [start, availability_of_free (({ k with holdUntil := none } : KeyState).pruneWindow t window)
      now window ok cleared, k.availability_of_free now window ok later]
    exact windowAvailability_pruneWindow ({ k with holdUntil := none } : KeyState) window le

theorem look_of_tidied (tidied : k.Tidied t window k') (le : t ≤ now) :
    k'.look now window = k.look now window := by
  rcases tidied with rfl | rfl
  · rw [look, refresh_refresh k le, look]
  · by_cases healthy : k.Healthy t
    · have ok : (k.refresh t).health = .ok := k.refresh_of_healthy t healthy
      have ok' : ((k.refresh t).availability t window).1.health = .ok :=
        (availability_health ..).trans ok
      rw [look, refresh_of_ok ok', availability_availability _ window le, look, ← refresh_refresh k le,
        refresh_of_ok ok]
    · have parked : ((k.refresh t).availability t window).1 = k.refresh t := by
        rcases (k.refresh t).availability_cases t window with ⟨_, _, same⟩ | ⟨_, ok, _⟩ | ⟨ok, _⟩
        · rw [same]
        · exact absurd ((k.refresh_ok_iff t).mp ok) healthy
        · exact absurd ((k.refresh_ok_iff t).mp ok) healthy
      rw [parked, look, refresh_refresh k le, look]

theorem pruned_head {oldest : Instant}
    (front : (k.pruneWindow t window).sends.head? = some oldest) : t < oldest + window := by
  have kept := List.head?_dropWhile_not
    (fun s => decide (window ≤ saturatingDurationSince t s)) k.sends
  simp only [pruneWindow] at front
  rw [front] at kept
  simp only [saturatingDurationSince] at kept
  lia

theorem pruned_again {oldest : Instant} (positive : 0 < window)
    (front : (k.pruneWindow t window).sends.head? = some oldest) (le : t ≤ now)
    (lt : now < oldest + window) : (k.pruneWindow now window).sends = (k.pruneWindow t window).sends := by
  rw [← k.pruneWindow_pruneWindow window le]
  obtain ⟨rest, split⟩ := List.head?_eq_some_iff.mp front
  have fresh : ¬ window ≤ saturatingDurationSince now oldest := by
    simp only [saturatingDurationSince]
    lia
  simp only [pruneWindow] at split ⊢
  rw [split]
  exact List.dropWhile_cons_of_neg (by simpa using fresh)

theorem parked_of_refresh (parked : (k.refresh t).health.parkedUntil? = some u) :
    k.health.parkedUntil? = some u ∧ t < u := by
  have sick : ¬ k.Healthy t := by
    intro healthy
    rw [k.refresh_of_healthy t healthy] at parked
    cases parked
  rw [k.refresh_of_parked t sick] at parked
  refine ⟨parked, ?_⟩
  by_contra past
  refine sick fun u' parked' => ?_
  obtain rfl : u = u' := Option.some.inj (parked.symm.trans parked')
  exact Nat.le_of_not_lt past

theorem look_future (refused : (k.look t window).2 = .error u) : t < u := by
  rcases availability_error refused with parked | ⟨-, -, ahead⟩ | ⟨-, -, oldest, front, rfl, -⟩
  · exact (parked_of_refresh parked).2
  · exact ahead
  · exact pruned_head front

theorem look_refused (positive : 0 < window) (refused : (k.look t window).2 = .error u)
    (le : t ≤ now) (lt : now < u) : (k.look now window).2 ≠ .ok () := by
  intro free
  obtain ⟨ok, unheld, room⟩ := availability_ok_iff.mp free
  have healthy := (k.refresh_ok_iff now).mp ok
  rcases availability_error refused with parked | ⟨ok', held, -⟩ | ⟨ok', -, oldest, front, rfl, full⟩
  · have past := healthy u (parked_of_refresh parked).1
    exact absurd lt (Nat.not_lt.mpr past)
  · rw [refresh_holdUntil] at held
    exact unheld ⟨u, by rw [refresh_holdUntil, held], lt⟩
  · have same := pruned_again positive front le lt
    have bare (s : Instant) : ((k.refresh s).pruneWindow now window).sends =
        (k.pruneWindow now window).sends := by simp only [pruneWindow, refresh_sends]
    rw [bare, ← bare t, same, refresh_secLimit] at room
    rw [refresh_secLimit] at full
    exact absurd room (Nat.not_lt.mpr full)

end KeyState

end BraveRotator
