import BraveRotator.Key.Ranges

namespace BraveRotator

def Outcome.monthLimit? : Outcome → Option Nat
  | .response _ rl _ => rl.bind (·.limit.month)
  | .transport _ => none

def Outcome.monthRemaining? : Outcome → Option Nat
  | .response _ rl _ => rl.bind (·.remaining.month)
  | .transport _ => none

/-- A success or a 429, where the month's quota is looked at, says that nothing is left of it and
    leaves out its limit. -/
def Outcome.SpentWithoutLimit : Outcome → Prop
  | .response status rl _ =>
    (200 ≤ status ∧ status ≤ 299 ∨ status = 429) ∧
      ∃ r, rl = some r ∧ r.limit.month = none ∧ r.remaining.month = some 0
  | .transport _ => False

def Health.isExhausted : Health → Bool
  | .exhausted _ => true
  | _ => false

theorem RateLimitInfo.monthExhausted_iff {rl : RateLimitInfo} :
    rl.monthExhausted = true ↔ rl.limit.month ≠ some 0 ∧ rl.remaining.month = some 0 := by
  unfold monthExhausted
  by_cases unlimited : rl.limit.month = some 0 <;> simp [unlimited]

namespace KeyState

/-- Brave has said that nothing is left of a monthly quota that there is. -/
def Spent (k : KeyState) : Prop :=
  k.monthlyCapOverride = none ∧ k.monthLimit ≠ some 0 ∧ k.monthRemaining = some 0

instance Spent.decidable (k : KeyState) : Decidable k.Spent := inferInstanceAs (Decidable (_ ∧ _))

def ParkedWhenSpent (k : KeyState) : Prop := k.Spent → k.health ≠ .ok

/-- An outcome after which nothing is left of the month's quota finds the key parked, or parks it. -/
def TakesQuota (k : KeyState) (o : Outcome) : Prop :=
  k.monthlyCapOverride = none → o.monthLimit?.or k.monthLimit ≠ some 0 →
    o.monthRemaining?.or k.monthRemaining = some 0 → k.health ≠ .ok ∨ k.parkFor o ≠ none

/-- A key whose cooldown is over by `now` has quota left. -/
def WakesWithQuota (k : KeyState) (now : Instant) : Prop :=
  ∀ u reason, k.health = .disabled u reason → u ≤ now → ¬ k.Spent

def remainingAfter : Option Park → Option Nat → Option Nat
  | some (.exhaust _), _ => some 0
  | _, remaining => remaining

section Month

variable (k : KeyState) (now : Instant)

theorem learnLimits_month (rl : RateLimitInfo) :
    (k.learnLimits now rl).monthLimit = rl.limit.month.or k.monthLimit ∧
      (k.learnLimits now rl).monthRemaining = rl.remaining.month.or k.monthRemaining := by
  rw [learnLimits_eq]
  exact ⟨rfl, rfl⟩

theorem noteResponse_month (status : Nat) (rl : Option RateLimitInfo) (bodySnippet : Option String) :
    (k.noteResponse now status rl).monthLimit =
        (Outcome.response status rl bodySnippet).monthLimit?.or k.monthLimit ∧
      (k.noteResponse now status rl).monthRemaining =
        (Outcome.response status rl bodySnippet).monthRemaining?.or k.monthRemaining := by
  cases rl with
  | none => exact ⟨rfl, rfl⟩
  | some rl => exact learnLimits_month _ now rl

theorem fail_month (what : String) :
    (k.fail now what).monthLimit = k.monthLimit ∧
      (k.fail now what).monthRemaining = remainingAfter k.failurePark k.monthRemaining := by
  unfold fail failurePark
  dsimp only
  split
  · exact ⟨rfl, rfl⟩
  · exact ⟨rfl, rfl⟩

theorem recordSuccess_month (rl : Option RateLimitInfo) :
    (k.recordSuccess now rl).monthLimit = k.monthLimit ∧
      (k.recordSuccess now rl).monthRemaining =
        remainingAfter (k.successPark rl) k.monthRemaining := by
  obtain ⟨_, noted⟩ := k.noteSuccess_fields now
  have cap := overrideCapExhausted_eq (k.noteSuccess now)
  unfold recordSuccess successPark
  dsimp only
  rw [cap, noted]
  dsimp only
  split
  · exact ⟨rfl, rfl⟩
  · split
    · exact ⟨rfl, rfl⟩
    · exact ⟨rfl, rfl⟩

theorem recordTooMany_month (rl : Option RateLimitInfo) (detail : String) :
    (k.recordTooMany now rl detail).monthLimit = k.monthLimit ∧
      (k.recordTooMany now rl detail).monthRemaining =
        remainingAfter (k.tooManyPark rl) k.monthRemaining := by
  unfold recordTooMany tooManyPark
  cases rl with
  | some r =>
    dsimp only
    split
    · exact ⟨rfl, rfl⟩
    · exact ⟨rfl, rfl⟩
  | none =>
    dsimp only
    split
    · exact ⟨rfl, rfl⟩
    · exact ⟨rfl, rfl⟩

/-- Every response is learnt from, and only a monthly park writes to the cached quota besides. -/
theorem digest_month (o : Outcome) :
    (k.digest now o).1.monthLimit = o.monthLimit?.or k.monthLimit ∧
      (k.digest now o).1.monthRemaining =
        remainingAfter (k.parkFor o) (o.monthRemaining?.or k.monthRemaining) := by
  have cases := k.digest_cases now o
  generalize (k.digest now o).1 = k' at cases
  cases cases with
  | transport err =>
    unfold recordTransport
    generalize ({ k.stats with
      transportErrors := _, lastStatus := _, lastError := _ } : Stats) = stats
    exact fail_month { k with stats } now _
  | success status rl bodySnippet range =>
    obtain ⟨limit, remaining⟩ := k.noteResponse_month now status rl bodySnippet
    rw [← noteResponse_parkFor k now status rl, parkFor_success _ _ _ range, ← limit, ← remaining]
    exact recordSuccess_month _ now rl
  | tooMany rl bodySnippet detail =>
    obtain ⟨limit, remaining⟩ := k.noteResponse_month now 429 rl bodySnippet
    rw [← noteResponse_parkFor k now 429 rl, ← limit, ← remaining]
    exact recordTooMany_month _ now rl detail
  | rejected status rl bodySnippet detail auth =>
    rw [parkFor_rejected _ _ _ auth]
    exact k.noteResponse_month now status rl bodySnippet
  | clientError status rl bodySnippet detail range rest =>
    rw [parkFor_none _ _ _ (by omega) rest (by omega)]
    exact k.noteResponse_month now status rl bodySnippet
  | serverError status rl bodySnippet detail range =>
    obtain ⟨limit, remaining⟩ := k.noteResponse_month now status rl bodySnippet
    rw [← noteResponse_parkFor k now status rl, parkFor_serverError _ _ _ range, ← limit,
      ← remaining]
    unfold recordServerError
    generalize ({ (k.noteResponse now status rl).stats with
      server5xx := _, lastError := _ } : Stats) = stats
    exact fail_month { k.noteResponse now status rl with stats } now _
  | other status rl bodySnippet rest =>
    rw [parkFor_none _ _ _ (by omega) (by omega) (by omega)]
    exact k.noteResponse_month now status rl bodySnippet

end Month

section Spent

variable {k : KeyState} {now : Instant}

theorem digest_ok_iff (o : Outcome) :
    (k.digest now o).1.health = .ok ↔ k.health = .ok ∧ k.parkFor o = none := by
  rcases (k.digest_health now o).cases with
    ⟨park, health⟩ | ⟨length, reason, park, health⟩ | ⟨length, park, health⟩
  · simp [health, park]
  · simp [health, park]
  · simp [health, park]

theorem digest_override (o : Outcome) :
    (k.digest now o).1.monthlyCapOverride = k.monthlyCapOverride :=
  congrArg Fixed.monthlyCapOverride (k.digest_effect now o).fixed

/-- After an outcome the key is parked if it is spent, exactly when the key takes it. -/
theorem digest_parkedWhenSpent_iff (o : Outcome) :
    (k.digest now o).1.ParkedWhenSpent ↔ k.TakesQuota o := by
  obtain ⟨limit, remaining⟩ := k.digest_month now o
  have sick : (k.digest now o).1.health ≠ .ok ↔ k.health ≠ .ok ∨ k.parkFor o ≠ none := by
    rw [Ne, digest_ok_iff o, not_and_or]
  unfold ParkedWhenSpent Spent TakesQuota
  rw [limit, remaining, digest_override o, sick]
  cases park : k.parkFor o with
  | none =>
    simp only [remainingAfter, ne_eq, not_true_eq_false, or_false]
    constructor
    · intro parked override known none
      exact parked ⟨override, known, none⟩
    · rintro parked ⟨override, known, none⟩
      exact parked override known none
  | some park' => simp

theorem refresh_parkedWhenSpent_iff (parked : k.ParkedWhenSpent) :
    (k.refresh now).ParkedWhenSpent ↔ k.WakesWithQuota now := by
  unfold ParkedWhenSpent WakesWithQuota
  by_cases healthy : k.Healthy now
  · unfold refresh
    cases state : k.health with
    | ok =>
      have left : ¬ k.Spent := fun spent => parked spent state
      simp [left]
    | disabled u reason =>
      have past : u ≤ now := healthy u (by rw [state]; rfl)
      simp [past, Spent]
    | exhausted u =>
      have past : u ≤ now := healthy u (by rw [state]; rfl)
      simp [past, Spent]
  · have sick : (k.refresh now).health ≠ .ok := fun ok => healthy ((k.refresh_ok_iff now).mp ok)
    refine iff_of_true (fun _ => sick) ?_
    intro u reason state past
    refine absurd ?_ healthy
    intro u' until_
    rw [state] at until_
    cases until_
    exact past

theorem availability_parkedWhenSpent (window : Duration) :
    (k.availability now window).1.ParkedWhenSpent ↔ k.ParkedWhenSpent := by
  obtain ⟨_, _, same⟩ := k.availability_fields now window
  rw [same]
  exact Iff.rfl

theorem tidied_parkedWhenSpent_iff {window : Duration} {k' : KeyState} (parked : k.ParkedWhenSpent)
    (tidied : k.Tidied now window k') : k'.ParkedWhenSpent ↔ k.WakesWithQuota now := by
  rcases tidied with rfl | rfl
  · exact refresh_parkedWhenSpent_iff parked
  · rw [availability_parkedWhenSpent]
    exact refresh_parkedWhenSpent_iff parked

end Spent


/-- The response says that the month is used up, or the success is the last one under the cap. -/
def MonthOver (k : KeyState) : Outcome → Prop
  | .response _ rl _ => rl.any (·.monthExhausted) = true ∨
      k.monthlyCapOverride.any (· ≤ k.stats.ok + 1) = true
  | .transport _ => False

/-- A success after which the month is over, or a 429 that says that it is. -/
def Exhausts (k : KeyState) : Outcome → Prop
  | .response status rl bodySnippet =>
    (200 ≤ status ∧ status ≤ 299) ∧ k.MonthOver (.response status rl bodySnippet) ∨
      status = 429 ∧ rl.any (·.monthExhausted) = true
  | .transport _ => False

section Exhausts

variable {k : KeyState}

theorem parkFor_of_success {o : Outcome} (success : o.isSuccess = true) :
    k.parkFor o = none ↔ ¬ k.MonthOver o := by
  cases o with
  | transport err => cases success
  | response status rl bodySnippet =>
    rw [parkFor_success _ _ _ (of_decide_eq_true success)]
    unfold successPark MonthOver
    split
    · rename_i exhausted
      exact iff_of_false (Option.some_ne_none _) fun other => other (.inl exhausted)
    · rename_i left
      split
      · rename_i capped
        exact iff_of_false (Option.some_ne_none _) fun other => other (.inr capped)
      · rename_i uncapped
        exact iff_of_true rfl fun spent => spent.elim left uncapped

theorem successPark_exhaust_iff (rl : Option RateLimitInfo) :
    (∃ length, k.successPark rl = some (.exhaust length)) ↔ k.successPark rl ≠ none := by
  unfold successPark
  split
  · simp
  · split <;> simp

theorem tooManyPark_exhaust_iff (rl : Option RateLimitInfo) :
    (∃ length, k.tooManyPark rl = some (.exhaust length)) ↔ rl.any (·.monthExhausted) = true := by
  unfold tooManyPark
  cases rl with
  | none =>
    dsimp only
    split <;> simp
  | some r => cases exhausted : r.monthExhausted <;> simp [exhausted]

theorem exhausts_iff {o : Outcome} :
    k.Exhausts o ↔ ∃ length, k.parkFor o = some (.exhaust length) := by
  cases o with
  | transport err => simp [parkFor, Exhausts, failurePark_ne_exhaust]
  | response status rl bodySnippet =>
    unfold Exhausts
    by_cases success : 200 ≤ status ∧ status ≤ 299
    · have succeeds : (Outcome.response status rl bodySnippet).isSuccess = true :=
        decide_eq_true success
      have other : status ≠ 429 := by omega
      have spent := not_congr (k.parkFor_of_success succeeds)
      rw [parkFor_success _ _ _ success, successPark_exhaust_iff,
        ← k.parkFor_success rl bodySnippet success, Ne, spent, not_not]
      simp [success, other]
    by_cases tooMany : status = 429
    · subst tooMany
      have branch : k.parkFor (.response 429 rl bodySnippet) = k.tooManyPark rl := rfl
      rw [branch, tooManyPark_exhaust_iff]
      simp
    simp only [success, tooMany, false_and, or_self, false_iff, not_exists]
    intro length parks
    cases parks_of_parkFor parks with
    | spent _ _ _ range => exact success range
    | capped _ _ _ range => exact success range
    | told => exact tooMany rfl

end Exhausts

section Uncapped

variable {k : KeyState} {now : Instant}

theorem parkFor_exhaust_iff (override : k.monthlyCapOverride = none) {o : Outcome}
    (uncapped : ∀ l, o.monthLimit? = some l → l = 0) :
    (∃ length, k.parkFor o = some (.exhaust length)) ↔ o.SpentWithoutLimit := by
  rw [← exhausts_iff]
  cases o with
  | transport err => exact Iff.rfl
  | response status rl bodySnippet =>
    have exhausted : rl.any (·.monthExhausted) = true ↔
        ∃ r, rl = some r ∧ r.limit.month = none ∧ r.remaining.month = some 0 := by
      rw [Option.any_eq_true]
      refine exists_congr fun r => and_congr_right fun same => ?_
      rw [RateLimitInfo.monthExhausted_iff]
      refine and_congr_left fun _ => ?_
      cases limit : r.limit.month with
      | none => simp
      | some l =>
        have zero : l = 0 := uncapped l (by simp [Outcome.monthLimit?, same, limit])
        simp [zero]
    have spent : k.MonthOver (.response status rl bodySnippet) ↔ rl.any (·.monthExhausted) = true := by
      unfold MonthOver
      rw [override]
      simp
    show (_ ∧ k.MonthOver _ ∨ _ ∧ _) ↔ (_ ∨ _) ∧ _
    rw [spent, ← exhausted, or_and_right]

theorem digest_exhausted_iff (uncapped : k.monthUnlimited = true) {o : Outcome}
    (unreported : ∀ l, o.monthLimit? = some l → l = 0) (before : k.health.isExhausted = false) :
    (k.digest now o).1.health.isExhausted = true ↔ o.SpentWithoutLimit := by
  have override : k.monthlyCapOverride = none := by
    cases cap : k.monthlyCapOverride with
    | none => rfl
    | some c => simp [monthUnlimited, cap] at uncapped
  rw [← parkFor_exhaust_iff override unreported]
  rcases (k.digest_health now o).cases with
    ⟨park, health⟩ | ⟨length, reason, park, health⟩ | ⟨length, park, health⟩
  · simp [health, park, before]
  · simp [health, park, Health.isExhausted]
  · simp [health, park, Health.isExhausted]

end Uncapped

end KeyState

end BraveRotator
