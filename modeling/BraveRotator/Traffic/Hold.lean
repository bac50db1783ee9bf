import BraveRotator.Traffic.Blocks

namespace BraveRotator

namespace Traffic

/-- A 429 that asks for a wait is recorded for key `i`, and no lease of it comes before the wait is
    over. -/
def SlowDownHonoured (i : Nat) (t : Traffic) (es : List Event) : Prop :=
  ∀ before asked during e after o w, es = before ++ asked :: (during ++ e :: after) →
    recorded i (t.after before) asked = some o → o.slowDown? = some w →
    (t.after (before ++ asked :: during)).leased e = some i → asked.time + w ≤ e.time

/-- A 429 recorded for key `i` while it is held asks for no hold that ends earlier. -/
def HoldsLater (i : Nat) (t : Traffic) (e : Event) : Prop :=
  ∀ k ∈ t.key? i, ∀ o ∈ recorded i t e, ∀ h ∈ k.holdUntil, ∀ w ∈ o.slowDown?, h ≤ e.time + w

instance HoldsLater.decidable (i : Nat) (t : Traffic) (e : Event) : Decidable (HoldsLater i t e) := by
  unfold HoldsLater
  infer_instance

theorem HoldsLater.postpones {i : Nat} {t : Traffic} {e : Event} (later : HoldsLater i t e) :
    Postpones KeyState.holdUntil i t e := by
  intro k here o recording h held
  have hold := (k.digest_effect e.time o).holdUntil
  cases asks : o.slowDown? with
  | none =>
    rw [asks] at hold
    exact ⟨h, hold.trans held, le_rfl⟩
  | some w =>
    rw [asks] at hold
    exact ⟨e.time + w, hold, later k here o recording h held w asks⟩

theorem held_after {i : Nat} {t : Traffic} {e : Event} {k : KeyState} {o : Outcome} {w : Duration}
    (here : t.key? i = some k) (recording : recorded i t e = some o) (asks : o.slowDown? = some w) :
    slot? KeyState.holdUntil i (t.step e) = some (e.time + w) := by
  obtain ⟨k', there, turn⟩ := t.step_key here e
  rw [recording] at turn
  generalize decide (t.leased e = some i) = leased at turn
  cases turn with
  | digested o =>
    have hold := (k.digest_effect e.time o).holdUntil
    rw [asks] at hold
    exact slot?_eq_some.mpr ⟨_, there, hold⟩

/-- Slow-downs are honoured in a run in which no 429 asks for a shorter wait than the one that runs. -/
theorem slow_down_honoured (t : Traffic) (i : Nat) {es : List Event}
    (ordered : Runs.Ordered Event.time 0 es) (later : Runs.Along step (HoldsLater i) t es) :
    SlowDownHonoured i t es := by
  rintro before asked during e after o w rfl recording asks leased
  have regroup (rest : List Event) : before ++ asked :: rest = (before ++ [asked]) ++ rest := by simp
  have postpones := later.mono fun _ _ => HoldsLater.postpones
  rw [regroup] at ordered postpones leased
  refine slot_run KeyState.blocks_holdUntil ordered postpones ?_ leased
  rw [List.append_assoc, after_append] at leased
  obtain ⟨k', there⟩ := key_of_leased _ leased
  obtain ⟨k, here⟩ := key_of_after _ _ there
  rw [after_concat]
  exact held_after here recording asks

theorem slow_down_honoured_longer :
    SlowDownHonoured 0 (ofTests ["key"] [])
      [.acquire 0 [], .acquire 2000000000 [],
        .answer 3000000000 0 (.response 429 none none),
        .answer 4000000000 1 (.response 429 (some { retryAfter := some 30 }) none),
        .acquire 34000000000 []] :=
  slow_down_honoured _ 0 (by decide) (by decide)

/-- Brave asks for 30 s, but a 429 of an earlier lease that asks for 1 s comes in last. -/
def shorter429 : List Event :=
  [.acquire 0 [], .acquire 2000000000 [],
    .answer 3000000000 1 (.response 429 (some { retryAfter := some 30 }) none),
    .answer 4000000000 0 (.response 429 (some { retryAfter := some 1 }) none),
    .acquire 5000000000 []]

theorem slow_down_cut_short :
    Runs.Ordered Event.time 0 shorter429 ∧ ¬ SlowDownHonoured 0 (ofTests ["key"] []) shorter429 := by
  refine ⟨by decide, ?_⟩
  intro honoured
  have early := honoured (shorter429.take 2) _ ((shorter429.drop 3).take 1) (.acquire 5000000000 [])
    [] _ 30000000000 rfl rfl (by decide) (by decide)
  exact absurd early (by decide)

end Traffic

end BraveRotator
