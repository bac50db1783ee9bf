import BraveRotator.Key.Digest

namespace BraveRotator

namespace Outcome

def isFailure : Outcome → Bool
  | .response status _ _ => 500 ≤ status ∧ status ≤ 599
  | .transport _ => true

def isTooMany : Outcome → Bool
  | .response status _ _ => status = 429
  | .transport _ => false

/-- A 429 without rate-limit headers. -/
def isUnexplained : Outcome → Bool
  | .response status rl _ => status = 429 ∧ rl = none
  | .transport _ => false

end Outcome

def Health.isDisabled : Health → Bool
  | .disabled _ _ => true
  | _ => false

def Park.isDisable : Park → Bool
  | .disable _ => true
  | .exhaust _ => false

namespace KeyState

/-- What recording the outcome makes of the health of a key that is ok. -/
def fate (k : KeyState) (now : Instant) (o : Outcome) : Health :=
  ({ k with health := .ok }.digest now o).1.health

/-- Recording the outcome disables the key, whatever its health was. -/
def disables (k : KeyState) (now : Instant) (o : Outcome) : Bool := (k.fate now o).isDisabled

section Fate

variable (k : KeyState) (now : Instant) (o : Outcome)

theorem fate_parked : ParkedAs now .ok (k.parkFor o) (k.fate now o) := by
  have parked := { k with health := .ok }.digest_health now o
  have same : { k with health := .ok }.parkFor o = k.parkFor o := by
    cases o <;> rfl
  rw [same] at parked
  exact parked

theorem disables_eq : k.disables now o = (k.parkFor o).any Park.isDisable := by
  unfold disables
  rcases (k.fate_parked now o).cases with ⟨park, fate⟩ | ⟨_, _, park, fate⟩ | ⟨_, park, fate⟩
  · rw [park, fate]
    rfl
  · rw [park, fate]
    rfl
  · rw [park, fate]
    rfl

end Fate

/-- A success, and anything that disables the key, sets its counters back. -/
def resets (k : KeyState) (now : Instant) (o : Outcome) : Bool := o.isSuccess || k.disables now o

/-- The counters after an outcome, and since when the key has been disabled. -/
structure Streaks (k : KeyState) (now : Instant) (o : Outcome) (k' : KeyState) : Prop where
  failures : k'.consecutiveFailures = if k.resets now o then 0
    else if o.isFailure then wrapU32 (k.consecutiveFailures + 1) else k.consecutiveFailures
  tooMany : k'.consecutive429 = if k.resets now o then 0
    else if o.isTooMany then wrapU32 (k.consecutive429 + 1) else k.consecutive429
  disabledSince : k'.disabledSince = if o.isSuccess then
      if 0 < k.disableStrikes then none else k.disabledSince
    else if k.disables now o then some (k.disabledSince.getD now) else k.disabledSince

section Branches

variable (k : KeyState) (now : Instant)

theorem fail_streaks (what : String) :
    (k.fail now what).consecutiveFailures =
        (if k.failurePark.any Park.isDisable then 0 else wrapU32 (k.consecutiveFailures + 1)) ∧
      (k.fail now what).consecutive429 =
        (if k.failurePark.any Park.isDisable then 0 else k.consecutive429) ∧
      (k.fail now what).disabledSince =
        if k.failurePark.any Park.isDisable then some (k.disabledSince.getD now)
        else k.disabledSince := by
  unfold fail failurePark
  dsimp only
  split
  · exact ⟨rfl, rfl, rfl⟩
  · exact ⟨rfl, rfl, rfl⟩

theorem recordServerError_streaks (status : Nat) (detail : String) :
    (k.recordServerError now status detail).consecutiveFailures =
        (if k.failurePark.any Park.isDisable then 0 else wrapU32 (k.consecutiveFailures + 1)) ∧
      (k.recordServerError now status detail).consecutive429 =
        (if k.failurePark.any Park.isDisable then 0 else k.consecutive429) ∧
      (k.recordServerError now status detail).disabledSince =
        if k.failurePark.any Park.isDisable then some (k.disabledSince.getD now)
        else k.disabledSince := by
  unfold recordServerError
  generalize ({ k.stats with server5xx := _, lastError := _ } : Stats) = stats
  exact fail_streaks { k with stats } now _

theorem recordSuccess_streaks (rl : Option RateLimitInfo) :
    (k.recordSuccess now rl).consecutiveFailures = 0 ∧
      (k.recordSuccess now rl).consecutive429 = 0 ∧
      (k.recordSuccess now rl).disabledSince =
        if 0 < k.disableStrikes then none else k.disabledSince := by
  have noted : (k.noteSuccess now).consecutiveFailures = 0 ∧ (k.noteSuccess now).consecutive429 = 0 ∧
      (k.noteSuccess now).disabledSince =
        if 0 < k.disableStrikes then none else k.disabledSince := by
    unfold noteSuccess
    dsimp only
    split
    · exact ⟨rfl, rfl, rfl⟩
    · exact ⟨rfl, rfl, rfl⟩
  unfold recordSuccess
  dsimp only
  split
  · exact noted
  · split
    · exact noted
    · exact noted

theorem recordTooMany_streaks (rl : Option RateLimitInfo) (detail : String) :
    (k.recordTooMany now rl detail).consecutiveFailures =
        (if (k.tooManyPark rl).any Park.isDisable then 0 else k.consecutiveFailures) ∧
      (k.recordTooMany now rl detail).consecutive429 =
        (if (k.tooManyPark rl).any Park.isDisable then 0 else wrapU32 (k.consecutive429 + 1)) ∧
      (k.recordTooMany now rl detail).disabledSince =
        if (k.tooManyPark rl).any Park.isDisable then some (k.disabledSince.getD now)
        else k.disabledSince := by
  unfold recordTooMany tooManyPark
  cases rl with
  | some r =>
    dsimp only
    split
    · exact ⟨rfl, rfl, rfl⟩
    · exact ⟨rfl, rfl, rfl⟩
  | none =>
    dsimp only
    split
    · exact ⟨rfl, rfl, rfl⟩
    · exact ⟨rfl, rfl, rfl⟩

theorem noteResponse_streaks (status : Nat) (rl : Option RateLimitInfo) :
    (k.noteResponse now status rl).consecutiveFailures = k.consecutiveFailures ∧
      (k.noteResponse now status rl).consecutive429 = k.consecutive429 ∧
      (k.noteResponse now status rl).disabledSince = k.disabledSince ∧
      (k.noteResponse now status rl).disableStrikes = k.disableStrikes := by
  obtain ⟨_, _, _, _, _, noted⟩ := k.noteResponse_fields now status rl
  rw [noted]
  exact ⟨rfl, rfl, rfl, rfl⟩

end Branches

/-- What an outcome that is no success does to the counters, told from whether it disables the key. -/
theorem Streaks.of_failed {k k' : KeyState} {now : Instant} {o : Outcome} (failed : o.isSuccess = false)
    (failures : k'.consecutiveFailures = if (k.parkFor o).any Park.isDisable then 0
      else if o.isFailure then wrapU32 (k.consecutiveFailures + 1) else k.consecutiveFailures)
    (tooMany : k'.consecutive429 = if (k.parkFor o).any Park.isDisable then 0
      else if o.isTooMany then wrapU32 (k.consecutive429 + 1) else k.consecutive429)
    (disabledSince : k'.disabledSince = if (k.parkFor o).any Park.isDisable then
      some (k.disabledSince.getD now) else k.disabledSince) : k.Streaks now o k' := by
  have disables := k.disables_eq now o
  constructor
  · rw [resets, failed, Bool.false_or, disables]
    exact failures
  · rw [resets, failed, Bool.false_or, disables]
    exact tooMany
  · rw [failed, disables]
    exact disabledSince

theorem Streaks.of_neutral {k k' : KeyState} {now : Instant} {o : Outcome}
    (unparked : k.parkFor o = none) (failed : o.isSuccess = false) (sound : o.isFailure = false)
    (other : o.isTooMany = false) (failures : k'.consecutiveFailures = k.consecutiveFailures)
    (tooMany : k'.consecutive429 = k.consecutive429)
    (disabledSince : k'.disabledSince = k.disabledSince) : k.Streaks now o k' := by
  apply Streaks.of_failed failed
  · rw [unparked, sound]
    exact failures
  · rw [unparked, other]
    exact tooMany
  · rw [unparked]
    exact disabledSince

theorem digest_streaks (k : KeyState) (now : Instant) (o : Outcome) :
    k.Streaks now o (k.digest now o).1 := by
  have cases := k.digest_cases now o
  generalize (k.digest now o).1 = k' at cases
  cases cases with
  | transport err =>
    have failed := fail_streaks { k with
      stats := { k.stats with
        transportErrors := k.stats.transportErrors + 1, lastStatus := none
        lastError := some err } } now s!"transport error: {err}"
    exact .of_failed rfl failed.1 failed.2.1 failed.2.2
  | success status rl bodySnippet range =>
    have success : (Outcome.response status rl bodySnippet).isSuccess = true := decide_eq_true range
    have recorded := (k.noteResponse now status rl).recordSuccess_streaks now rl
    have noted := k.noteResponse_streaks now status rl
    have reset : k.resets now (.response status rl bodySnippet) = true := by
      rw [resets, success, Bool.true_or]
    constructor
    · rw [reset]
      exact recorded.1
    · rw [reset]
      exact recorded.2.1
    · rw [success, ← noted.2.2.1, ← noted.2.2.2]
      exact recorded.2.2
  | tooMany rl bodySnippet detail =>
    have recorded := (k.noteResponse now 429 rl).recordTooMany_streaks now rl detail
    obtain ⟨failures, tooMany, since, -⟩ := k.noteResponse_streaks now 429 rl
    have park : (k.noteResponse now 429 rl).tooManyPark rl = k.parkFor (.response 429 rl bodySnippet) :=
      k.noteResponse_parkFor now 429 rl (.response 429 rl bodySnippet)
    rw [park, failures, tooMany, since] at recorded
    exact .of_failed rfl recorded.1 recorded.2.1 recorded.2.2
  | rejected status rl bodySnippet detail auth =>
    have park := k.parkFor_rejected rl bodySnippet auth
    have single : (Outcome.response status rl bodySnippet).isTooMany = false :=
      decide_eq_false (by omega)
    obtain ⟨-, -, since, -⟩ := k.noteResponse_streaks now status rl
    refine .of_failed (decide_eq_false (by omega)) ?_ ?_ ?_
    · rw [park]
      rfl
    · rw [park]
      rfl
    · rw [park, ← since]
      rfl
  | clientError status rl bodySnippet detail range rest =>
    have park := k.parkFor_none rl bodySnippet (by omega) rest (by omega)
    have sound : (Outcome.response status rl bodySnippet).isFailure = false :=
      decide_eq_false (by omega)
    have single : (Outcome.response status rl bodySnippet).isTooMany = false :=
      decide_eq_false (by omega)
    obtain ⟨failures, tooMany, since, -⟩ := k.noteResponse_streaks now status rl
    exact .of_neutral park (decide_eq_false (by omega)) sound single failures tooMany since
  | serverError status rl bodySnippet detail range =>
    have recorded := (k.noteResponse now status rl).recordServerError_streaks now status detail
    have failure : (Outcome.response status rl bodySnippet).isFailure = true := decide_eq_true range
    have single : (Outcome.response status rl bodySnippet).isTooMany = false :=
      decide_eq_false (by omega)
    obtain ⟨failures, tooMany, since, -⟩ := k.noteResponse_streaks now status rl
    rw [noteResponse_failurePark, ← k.parkFor_serverError rl bodySnippet range, failures, tooMany,
      since] at recorded
    refine .of_failed (decide_eq_false (by omega)) ?_ ?_ recorded.2.2
    · rw [failure]
      exact recorded.1
    · rw [single]
      exact recorded.2.1
  | other status rl bodySnippet rest =>
    have park : k.parkFor (.response status rl bodySnippet) = none :=
      k.parkFor_none rl bodySnippet (by omega) (by omega) (by omega)
    have sound : (Outcome.response status rl bodySnippet).isFailure = false :=
      decide_eq_false (by omega)
    have single : (Outcome.response status rl bodySnippet).isTooMany = false :=
      decide_eq_false (by omega)
    obtain ⟨failures, tooMany, since, -⟩ := k.noteResponse_streaks now status rl
    exact .of_neutral park (decide_eq_false (by omega)) sound single failures tooMany since

end KeyState

end BraveRotator
