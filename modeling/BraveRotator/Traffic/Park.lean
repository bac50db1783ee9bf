import BraveRotator.Traffic.Blocks

namespace BraveRotator

namespace Traffic

/-- No lease of key `i` comes before the end of a park that the key has been in. -/
def ParkHonoured (i : Nat) (t : Traffic) (es : List Event) : Prop :=
  ∀ before during e after k u, es = before ++ (during ++ e :: after) →
    (t.after before).key? i = some k → k.health.parkedUntil? = some u →
    (t.after (before ++ during)).leased e = some i → u ≤ e.time

/-- An outcome recorded for key `i` while it is parked starts no park that ends earlier. -/
def ParksLater (i : Nat) (t : Traffic) (e : Event) : Prop :=
  ∀ k ∈ t.key? i, ∀ o ∈ recorded i t e, ∀ u ∈ k.health.parkedUntil?, ∀ park ∈ k.parkFor o,
    u ≤ e.time + park.length

instance ParksLater.decidable (i : Nat) (t : Traffic) (e : Event) : Decidable (ParksLater i t e) := by
  unfold ParksLater
  infer_instance

theorem ParksLater.postpones {i : Nat} {t : Traffic} {e : Event} (later : ParksLater i t e) :
    Postpones (·.health.parkedUntil?) i t e := by
  intro k here o recording u parked
  rcases (k.digest_health e.time o).cases with
    ⟨-, health⟩ | ⟨length, _, park, health⟩ | ⟨length, park, health⟩
  · exact ⟨u, (congrArg Health.parkedUntil? health).trans parked, le_rfl⟩
  · exact ⟨e.time + length, congrArg Health.parkedUntil? health, later k here o recording u parked _ park⟩
  · exact ⟨e.time + length, congrArg Health.parkedUntil? health, later k here o recording u parked _ park⟩

/-- A park is not cut short in a run that records no outcome starting a shorter one meanwhile. -/
theorem park_honoured (t : Traffic) (i : Nat) {es : List Event}
    (ordered : Runs.Ordered Event.time 0 es) (later : Runs.Along step (ParksLater i) t es) :
    ParkHonoured i t es := by
  rintro before during e after k u rfl here parked leased
  exact slot_run KeyState.blocks_parkedUntil ordered (later.mono fun _ _ => ParksLater.postpones)
    (slot?_eq_some.mpr ⟨k, here, parked⟩) leased

/-- The month is used up for another hour, and a late answer says that it is for two. -/
def late429 : List Event :=
  [.acquire 0 [], .acquire 2000000000 [], .answer 3000000000 0
    (.response 429 (some { remaining := { month := some 0 }, reset := { month := some 3600 } }) none),
    .answer 4000000000 1
      (.response 429 (some { remaining := { month := some 0 }, reset := { month := some 7200 } }) none),
    .acquire 3604000000000 [], .acquire 7204000000000 []]

theorem park_honoured_prolonged :
    (((ofTests ["key"] []).after (late429.take 4)).key? 0).map KeyState.health =
        some (.exhausted 7204000000000) ∧
      ParkHonoured 0 (ofTests ["key"] []) late429 :=
  ⟨by decide, park_honoured _ 0 (by decide) (by decide)⟩

/-- The month is used up for another 1000000 s, but a late 401 parks the key for five minutes. -/
def late401 : List Event :=
  [.acquire 0 [], .acquire 2000000000 [], .answer 3000000000 0
    (.response 429 (some { remaining := { month := some 0 }, reset := { month := some 1000000 } }) none),
    .answer 4000000000 1 (.response 401 none none), .acquire 305000000000 []]

theorem park_cut_short :
    Runs.Ordered Event.time 0 late401 ∧ ¬ ParkHonoured 0 (ofTests ["key"] []) late401 := by
  refine ⟨by decide, ?_⟩
  intro honoured
  have parked : ((((ofTests ["key"] []).after (late401.take 3)).key? 0).get
      (by decide)).health.parkedUntil? = some 1000003000000000 := by decide
  have early := honoured (late401.take 3) ((late401.drop 3).take 1) (.acquire 305000000000 []) [] _ _
    rfl (Option.some_get _).symm parked (by decide)
  exact absurd early (by decide)

end Traffic

end BraveRotator
