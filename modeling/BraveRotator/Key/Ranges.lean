import BraveRotator.Key.Effects
import BraveRotator.Model.Operations

namespace BraveRotator

/-- One window and the longest cooldown from `now` on, it is not yet the year 10000. -/
structure Host.Calendar (host : Host) (window : Duration) (now : Instant) : Prop where
  cooldown : Duration.asSecs (host.wallClock (now + authBackoffMax)) < year10000
  window : Duration.asSecs (host.wallClock (now + window)) < year10000

instance Host.Calendar.decidable (host : Host) (window : Duration) (now : Instant) :
    Decidable (host.Calendar window now) :=
  decidable_of_iff (_ ∧ _) ⟨fun h => ⟨h.1, h.2⟩, fun h => ⟨h.1, h.2⟩⟩

section Early

variable {host : Host} {i j : Instant} (early : Duration.asSecs (host.wallClock j) < year10000)
include early

theorem prints_of_le (le : i ≤ j) : host.Prints i := by
  left
  simp only [Host.wallClock, Duration.asSecs] at early ⊢
  lia

theorem add_of_le (le : i ≤ j + overrideCapFallback) : (Op.add i).Fits host := by
  simp only [Host.wallClock, Duration.asSecs, year10000] at early
  simp only [overrideCapFallback, Duration.fromSecs] at le
  simp only [Op.Fits, Duration.asSecs, i64Max]
  lia

end Early

namespace KeyState

structure Bounded (now : Instant) (k : KeyState) : Prop where
  sends : ∀ t ∈ k.sends, t ≤ now
  held : ∀ h, k.holdUntil = some h → h ≤ now + Duration.fromSecs 60
  disabled : ∀ u reason, k.health = .disabled u reason → u ≤ now + authBackoffMax
  disabledSince : ∀ t, k.disabledSince = some t → t ≤ now
  failures : k.consecutiveFailures < failThreshold

section Bounded

variable {k k' : KeyState} {now : Instant}

theorem Bounded.later {t : Instant} (bounded : k.Bounded now) (le : now ≤ t) : k.Bounded t where
  sends s member := (bounded.sends s member).trans le
  held h hold := (bounded.held h hold).trans (Nat.add_le_add_right le _)
  disabled u reason parked := (bounded.disabled u reason parked).trans (Nat.add_le_add_right le _)
  disabledSince s since := (bounded.disabledSince s since).trans le
  failures := bounded.failures

theorem Bounded.held_le (bounded : k.Bounded now) {h : Instant} (held : k.holdUntil = some h) :
    h ≤ now + authBackoffMax := by
  have minute : Duration.fromSecs 60 ≤ authBackoffMax := by decide
  calc h ≤ now + Duration.fromSecs 60 := bounded.held h held
    _ ≤ now + authBackoffMax := Nat.add_le_add_left minute now

theorem new_bounded (idx : Nat) (token : String) (defaultRps : Nat) (cap : Option Nat) :
    (new idx token defaultRps cap).Bounded now where
  sends _ member := by cases member
  held _ hold := by cases hold
  disabled _ _ parked := by cases parked
  disabledSince _ since := by cases since
  failures := by show 0 < failThreshold; decide

theorem Bounded.refresh (bounded : k.Bounded now) : (k.refresh now).Bounded now := by
  have health := k.refresh_health now
  obtain ⟨health', _, _, same⟩ := k.refresh_fields now
  rw [same] at health ⊢
  refine ⟨bounded.sends, bounded.held, ?_, bounded.disabledSince, bounded.failures⟩
  intro u reason parked
  rw [health] at parked
  split at parked
  · cases parked
  · exact bounded.disabled u reason parked

theorem Bounded.availability (bounded : k.Bounded now) (window : Duration) :
    (k.availability now window).1.Bounded now := by
  rcases k.availability_cases now window with ⟨_, _, same⟩ | ⟨_, _, _, _, same⟩ | ⟨_, _, same⟩
  · rw [same]
    exact bounded
  · rw [same]
    exact bounded
  · rw [same]
    refine ⟨?_, ?_, bounded.disabled, bounded.disabledSince, bounded.failures⟩
    · intro t member
      exact bounded.sends t ((List.dropWhile_suffix _).mem member)
    · intro h hold
      cases hold

theorem Bounded.tidied {window : Duration} (bounded : k.Bounded now)
    (tidied : k.Tidied now window k') : k'.Bounded now := by
  rcases tidied with rfl | rfl
  · exact bounded.refresh
  · exact bounded.refresh.availability window

theorem Bounded.grant (bounded : k.Bounded now) : (k.grant now).Bounded now := by
  refine ⟨?_, bounded.held, bounded.disabled, bounded.disabledSince, bounded.failures⟩
  intro t member
  rcases List.mem_append.mp member with old | new
  · exact bounded.sends t old
  · exact (List.mem_singleton.mp new).le

end Bounded

section Failures

/-- The failures stay below the threshold, and the first strike keeps its instant. -/
def Counts (now : Instant) (k k' : KeyState) : Prop :=
  k'.consecutiveFailures < failThreshold ∧
    ∀ t, k'.disabledSince = some t → t = now ∨ k.disabledSince = some t

variable {k : KeyState} {now : Instant}

theorem counts_disable (base ceiling : Duration) (reason : String) :
    Counts now k (k.disable now base ceiling reason) := by
  constructor
  · show 0 < failThreshold
    decide
  · intro t since
    have first : k.disabledSince.getD now = t := Option.some.inj since
    cases struck : k.disabledSince with
    | none =>
      rw [struck] at first
      exact .inl first.symm
    | some s =>
      rw [struck] at first
      exact .inr (congrArg some first)

theorem counts_fail (what : String) : Counts now k (k.fail now what) := by
  unfold fail
  dsimp only
  split
  · exact counts_disable _ _ _
  · rename_i few
    exact ⟨Nat.lt_of_not_le few, fun _ since => .inr since⟩

theorem counts_success (rl : Option RateLimitInfo) : Counts now k (k.recordSuccess now rl) := by
  have noted : Counts now k (k.noteSuccess now) := by
    unfold noteSuccess
    dsimp only
    split
    · exact ⟨by show 0 < failThreshold; decide, fun t since => by cases since⟩
    · exact ⟨by show 0 < failThreshold; decide, fun t since => .inr since⟩
  unfold recordSuccess
  dsimp only
  split
  · exact noted
  · split
    · exact noted
    · exact noted

theorem counts_tooMany (low : k.consecutiveFailures < failThreshold) (rl : Option RateLimitInfo)
    (detail : String) : Counts now k (k.recordTooMany now rl detail) := by
  have kept : ∀ t, k.disabledSince = some t → t = now ∨ k.disabledSince = some t :=
    fun _ since => .inr since
  unfold recordTooMany
  cases rl with
  | some r =>
    dsimp only
    split
    · exact ⟨low, kept⟩
    · exact ⟨low, kept⟩
  | none =>
    dsimp only
    split
    · exact counts_disable _ _ _
    · exact ⟨low, kept⟩

theorem counts_digest (low : k.consecutiveFailures < failThreshold) (o : Outcome) :
    Counts now k (k.digest now o).1 := by
  have noted (status : Nat) (rl : Option RateLimitInfo) :
      (k.noteResponse now status rl).consecutiveFailures < failThreshold ∧
        Counts now (k.noteResponse now status rl) = Counts now k := by
    obtain ⟨_, _, _, _, _, same⟩ := k.noteResponse_fields now status rl
    rw [same]
    exact ⟨low, rfl⟩
  have cases := k.digest_cases now o
  generalize (k.digest now o).1 = k' at cases
  cases cases with
  | transport err => exact counts_fail _
  | success status rl bodySnippet range =>
    rw [← (noted status rl).2]
    exact counts_success rl
  | tooMany rl bodySnippet detail =>
    rw [← (noted 429 rl).2]
    exact counts_tooMany (noted 429 rl).1 rl detail
  | rejected status rl bodySnippet detail auth =>
    rw [← (noted status rl).2]
    exact counts_disable _ _ _
  | clientError status rl bodySnippet detail range rest =>
    rw [← (noted status rl).2]
    exact ⟨(noted status rl).1, fun _ since => .inr since⟩
  | serverError status rl bodySnippet detail range =>
    rw [← (noted status rl).2]
    exact counts_fail _
  | other status rl bodySnippet rest =>
    rw [← (noted status rl).2]
    exact ⟨(noted status rl).1, fun _ since => .inr since⟩

theorem slowDown?_le {o : Outcome} {wait : Duration} (asked : o.slowDown? = some wait) :
    wait ≤ .fromSecs 60 := by
  cases o with
  | transport err => cases asked
  | response status rl bodySnippet =>
    by_cases tooMany : status = 429
    · have answer := (if_pos tooMany).symm.trans asked
      cases rl with
      | none =>
        have two : 2 * braveWindow = wait := Option.some.inj answer
        rw [← two]
        decide
      | some r =>
        dsimp only at answer
        split at answer
        · cases answer
        · cases answer
          exact r.secondWait_le
    · cases (if_neg tooMany).symm.trans asked

theorem failurePark_ne_exhaust (length : Duration) : k.failurePark ≠ some (.exhaust length) := by
  intro parks
  cases parks_of_parkFor (o := .transport "") parks

theorem disable_length_le {o : Outcome} {length : Duration}
    (parks : k.parkFor o = some (.disable length)) : length ≤ authBackoffMax := by
  have short : failBackoffMax ≤ authBackoffMax := by decide
  cases parks_of_parkFor parks with
  | unexplained => decide
  | rejected => exact Backoff.doubling_le _ _ _
  | serverError => exact (Backoff.doubling_le _ _ _).trans short
  | transport => exact (Backoff.doubling_le _ _ _).trans short

theorem Bounded.digest (bounded : k.Bounded now) (o : Outcome) : (k.digest now o).1.Bounded now := by
  have effect := k.digest_effect now o
  have health := k.digest_health now o
  have counts : Counts now k (k.digest now o).1 := counts_digest bounded.failures o
  generalize (k.digest now o).1 = k' at effect health counts
  have sends : k'.sends = k.sends := congrArg Fixed.sends effect.fixed
  refine ⟨?_, ?_, ?_, ?_, counts.1⟩
  · rw [sends]
    exact bounded.sends
  · intro h hold
    rw [effect.holdUntil] at hold
    cases asked : o.slowDown? with
    | none =>
      rw [asked] at hold
      exact bounded.held h hold
    | some wait =>
      rw [asked] at hold
      cases hold
      exact Nat.add_le_add_left (slowDown?_le asked) now
  · intro u reason parked
    rcases health.cases with ⟨-, health⟩ | ⟨length, _, park, health⟩ | ⟨length, -, health⟩
    · exact bounded.disabled u reason (health.symm.trans parked)
    · cases health.symm.trans parked
      exact Nat.add_le_add_left (disable_length_le park) now
    · cases health.symm.trans parked
  · intro t since
    rcases counts.2 t since with rfl | kept
    · exact le_rfl
    · exact bounded.disabledSince t kept

end Failures

end KeyState

end BraveRotator
