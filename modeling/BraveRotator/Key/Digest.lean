import BraveRotator.Lib.Backoff
import BraveRotator.Key.Availability

namespace BraveRotator

/-- A park that recording an outcome starts, with its length. -/
inductive Park where
  | disable (length : Duration)
  | exhaust (length : Duration)
  deriving DecidableEq, Repr

def Park.length : Park → Duration
  | .disable length => length
  | .exhaust length => length

def Outcome.isSuccess : Outcome → Bool
  | .response status _ _ => 200 ≤ status ∧ status ≤ 299
  | .transport _ => false

/-- How long a 429 that is not a monthly exhaustion asks the key to wait. -/
def Outcome.slowDown? : Outcome → Option Duration
  | .response status rl _ =>
    if status = 429 then
      match rl with
      | some r => if r.monthExhausted then none else some r.secondWait
      | none => some (2 * braveWindow)
    else none
  | .transport _ => none

namespace KeyState

def nextStrike (k : KeyState) : Nat := min (k.disableStrikes + 1) u32Max

def failurePark (k : KeyState) : Option Park :=
  if failThreshold ≤ wrapU32 (k.consecutiveFailures + 1) then
    some (.disable (Backoff.doubling failBackoffBase failBackoffMax k.nextStrike))
  else none

/-- The park that a success ends in: Brave reports the month used up, or the override cap is. -/
def successPark (k : KeyState) (rl : Option RateLimitInfo) : Option Park :=
  if rl.any (·.monthExhausted) then some (.exhaust ((rl.bind (·.monthReset)).getD exhaustedFallback))
  else if k.monthlyCapOverride.any (· ≤ k.stats.ok + 1) then
    some (.exhaust ((rl.bind (·.monthReset)).getD overrideCapFallback))
  else none

def tooManyPark (k : KeyState) : Option RateLimitInfo → Option Park
  | some r => if r.monthExhausted then some (.exhaust (r.monthReset.getD exhaustedFallback)) else none
  | none =>
    if unexplained429Threshold ≤ wrapU32 (k.consecutive429 + 1) then
      some (.disable unexplained429Backoff)
    else none

/-- The park that an outcome starts, told from the key before it is recorded. -/
def parkFor (k : KeyState) : Outcome → Option Park
  | .transport _ => k.failurePark
  | .response status rl _ =>
    if 200 ≤ status ∧ status ≤ 299 then k.successPark rl
    else if status = 429 then k.tooManyPark rl
    else if status = 401 ∨ status = 403 then
      some (.disable (Backoff.doubling authBackoffBase authBackoffMax k.nextStrike))
    else if 500 ≤ status ∧ status ≤ 599 then k.failurePark
    else none

section Learn

variable (k : KeyState) (now : Instant)

theorem learnLimits_eq (rl : RateLimitInfo) : k.learnLimits now rl = { k with
    secLimit := ((rl.limit.second.filter (0 < ·)).map (min · maxLearnedRps)).getD k.secLimit
    limitsLearned := k.limitsLearned || (rl.limit.second.isSome || rl.limit.month.isSome)
    monthLimit := rl.limit.month.or k.monthLimit
    monthRemaining := rl.remaining.month.or k.monthRemaining
    monthResetAt := (rl.monthReset.map (now + ·)).or k.monthResetAt } := by
  unfold learnLimits
  extract_lets paced limited counted reset
  have first : paced = { k with
      secLimit := ((rl.limit.second.filter (0 < ·)).map (min · maxLearnedRps)).getD k.secLimit } := by
    unfold paced
    cases rl.limit.second.filter (0 < ·) <;> rfl
  have second : limited = { paced with monthLimit := rl.limit.month.or k.monthLimit } := by
    unfold limited
    rw [first]
    cases rl.limit.month <;> rfl
  have third : counted = { limited with monthRemaining := rl.remaining.month.or k.monthRemaining } := by
    unfold counted
    rw [second, first]
    cases rl.remaining.month <;> rfl
  have fourth : reset = { counted with
      monthResetAt := (rl.monthReset.map (now + ·)).or k.monthResetAt } := by
    unfold reset
    rw [third, second, first]
    cases rl.monthReset <;> rfl
  rw [fourth, third, second, first]
  dsimp only
  cases k.limitsLearned <;> cases rl.limit.second <;> cases rl.limit.month <;> rfl

theorem learnLimits_fields (rl : RateLimitInfo) :
    ∃ secLimit limitsLearned monthLimit monthRemaining monthResetAt, k.learnLimits now rl =
      { k with secLimit, limitsLearned, monthLimit, monthRemaining, monthResetAt } :=
  ⟨_, _, _, _, _, k.learnLimits_eq now rl⟩

theorem noteResponse_fields (status : Nat) (rl : Option RateLimitInfo) :
    ∃ secLimit limitsLearned monthLimit monthRemaining monthResetAt,
      k.noteResponse now status rl = { k with
        secLimit, limitsLearned, monthLimit, monthRemaining, monthResetAt
        stats := { k.stats with lastStatus := some status } } := by
  unfold noteResponse
  cases rl with
  | none => exact ⟨_, _, _, _, _, rfl⟩
  | some rl => exact learnLimits_fields _ now rl

end Learn

def ParkedAs (now : Instant) (health : Health) : Option Park → Health → Prop
  | none, health' => health' = health
  | some (.disable length), health' => ∃ reason, health' = .disabled (now + length) reason
  | some (.exhaust length), health' => health' = .exhausted (now + length)

theorem ParkedAs.cases {now : Instant} {health health' : Health} {park : Option Park}
    (parked : ParkedAs now health park health') :
    (park = none ∧ health' = health) ∨
      (∃ length reason, park = some (.disable length) ∧ health' = .disabled (now + length) reason) ∨
      ∃ length, park = some (.exhaust length) ∧ health' = .exhausted (now + length) := by
  rcases park with _ | ⟨length⟩ | ⟨length⟩
  · exact .inl ⟨rfl, parked⟩
  · obtain ⟨reason, same⟩ := parked
    exact .inr (.inl ⟨length, reason, rfl, same⟩)
  · exact .inr (.inr ⟨length, rfl, parked⟩)

section Branches

variable (k : KeyState) (now : Instant)

theorem disable_health (base ceiling : Duration) (reason : String)
    (reached : ceiling ≤ base * 2^16) :
    (k.disable now base ceiling reason).health =
      .disabled (now + Backoff.doubling base ceiling k.nextStrike) reason := by
  simp only [disable, nextStrike, Backoff.doubling, Backoff.capped_shift reached]

theorem disable_flat_health (length : Duration) (reason : String) :
    (k.disable now length length reason).health = .disabled (now + length) reason := by
  have flat : min (length * 1 <<< min (min (k.disableStrikes + 1) u32Max - 1) 16) length = length := by
    rw [Nat.one_shiftLeft]
    exact min_eq_right (Nat.le_mul_of_pos_right length (Nat.two_pow_pos _))
  simp only [disable, flat]

theorem fail_health (what : String) :
    ParkedAs now k.health k.failurePark (k.fail now what).health := by
  unfold fail failurePark
  dsimp only
  split
  · exact ⟨_, disable_health _ now _ _ _ (by decide)⟩
  · rfl

theorem overrideCapExhausted_eq :
    k.overrideCapExhausted = k.monthlyCapOverride.any (· ≤ k.stats.ok) := by
  unfold overrideCapExhausted effectiveMonthUsed
  cases k.monthlyCapOverride <;> rfl

theorem noteSuccess_fields : ∃ disabledSince,
    k.noteSuccess now = { k with
      stats := { k.stats with ok := k.stats.ok + 1, lastError := none }
      lastOk := some now, consecutiveFailures := 0, consecutive429 := 0
      disableStrikes := 0, disabledSince } := by
  unfold noteSuccess
  dsimp only
  split
  · exact ⟨_, rfl⟩
  · rename_i zero
    have strikes : k.disableStrikes = 0 := Nat.eq_zero_of_not_pos zero
    exact ⟨_, by rw [strikes]⟩

theorem recordSuccess_health (rl : Option RateLimitInfo) :
    ParkedAs now k.health (k.successPark rl) (k.recordSuccess now rl).health := by
  obtain ⟨_, noted⟩ := k.noteSuccess_fields now
  have cap := overrideCapExhausted_eq (k.noteSuccess now)
  unfold recordSuccess successPark
  dsimp only
  rw [cap, noted]
  dsimp only
  split
  · rfl
  · split <;> rfl

theorem recordTooMany_health (rl : Option RateLimitInfo) (detail : String) :
    ParkedAs now k.health (k.tooManyPark rl) (k.recordTooMany now rl detail).health := by
  unfold recordTooMany tooManyPark
  cases rl with
  | some r =>
    dsimp only
    split <;> rfl
  | none =>
    dsimp only
    split
    · exact ⟨_, disable_flat_health _ now _ _⟩
    · rfl

theorem recordTransport_health (err : String) :
    ParkedAs now k.health k.failurePark (k.recordTransport now err).health := by
  unfold recordTransport
  generalize ({ k.stats with
    transportErrors := _, lastStatus := _, lastError := _ } : Stats) = stats
  exact fail_health { k with stats } now _

theorem recordServerError_health (status : Nat) (detail : String) :
    ParkedAs now k.health k.failurePark (k.recordServerError now status detail).health := by
  unfold recordServerError
  generalize ({ k.stats with server5xx := _, lastError := _ } : Stats) = stats
  exact fail_health { k with stats } now _

theorem recordRejected_health (status : Nat) (detail : String) :
    ∃ reason, (k.recordRejected now status detail).health =
      .disabled (now + Backoff.doubling authBackoffBase authBackoffMax k.nextStrike) reason :=
  ⟨_, disable_health _ now _ _ _ (by decide)⟩

end Branches

section Noted

variable (k : KeyState) (now : Instant) (status : Nat) (rl : Option RateLimitInfo)

@[simp] theorem noteResponse_health : (k.noteResponse now status rl).health = k.health := by
  obtain ⟨_, _, _, _, _, noted⟩ := k.noteResponse_fields now status rl; rw [noted]

theorem noteResponse_parkFor (o : Outcome) :
    (k.noteResponse now status rl).parkFor o = k.parkFor o := by
  obtain ⟨_, _, _, _, _, noted⟩ := k.noteResponse_fields now status rl
  rw [noted]
  cases o <;> rfl

theorem noteResponse_failurePark : (k.noteResponse now status rl).failurePark = k.failurePark :=
  k.noteResponse_parkFor now status rl (.transport "")

end Noted

inductive Digested (k : KeyState) (now : Instant) : Outcome → KeyState → Prop
  | transport (err : String) : Digested k now (.transport err) (k.recordTransport now err)
  | success (status : Nat) (rl : Option RateLimitInfo) (bodySnippet : Option String)
      (range : 200 ≤ status ∧ status ≤ 299) :
      Digested k now (.response status rl bodySnippet)
        ((k.noteResponse now status rl).recordSuccess now rl)
  | tooMany (rl : Option RateLimitInfo) (bodySnippet : Option String) (detail : String) :
      Digested k now (.response 429 rl bodySnippet)
        ((k.noteResponse now 429 rl).recordTooMany now rl detail)
  | rejected (status : Nat) (rl : Option RateLimitInfo) (bodySnippet : Option String)
      (detail : String) (auth : status = 401 ∨ status = 403) :
      Digested k now (.response status rl bodySnippet)
        ((k.noteResponse now status rl).recordRejected now status detail)
  | clientError (status : Nat) (rl : Option RateLimitInfo) (bodySnippet : Option String)
      (detail : String) (range : 400 ≤ status ∧ status ≤ 499)
      (rest : ¬ (status = 429 ∨ status = 401 ∨ status = 403)) :
      Digested k now (.response status rl bodySnippet)
        ((k.noteResponse now status rl).recordClientError status detail)
  | serverError (status : Nat) (rl : Option RateLimitInfo) (bodySnippet : Option String)
      (detail : String) (range : 500 ≤ status ∧ status ≤ 599) :
      Digested k now (.response status rl bodySnippet)
        ((k.noteResponse now status rl).recordServerError now status detail)
  | other (status : Nat) (rl : Option RateLimitInfo) (bodySnippet : Option String)
      (rest : ¬ (200 ≤ status ∧ status ≤ 299 ∨ 400 ≤ status ∧ status ≤ 599)) :
      Digested k now (.response status rl bodySnippet) (k.noteResponse now status rl)

theorem digest_cases (k : KeyState) (now : Instant) (outcome : Outcome) :
    k.Digested now outcome (k.digest now outcome).1 := by
  cases outcome with
  | transport err => exact .transport err
  | response status rl bodySnippet =>
    simp only [digest]
    split
    · exact .success status rl bodySnippet ‹_›
    split
    · subst status
      exact .tooMany rl bodySnippet _
    split
    · exact .rejected status rl bodySnippet _ ‹_›
    split
    · exact .clientError status rl bodySnippet _ ‹_› (by omega)
    split
    · exact .serverError status rl bodySnippet _ ‹_›
    · exact .other status rl bodySnippet (by omega)

section ParkFor

variable (k : KeyState) {status : Nat} (rl : Option RateLimitInfo) (bodySnippet : Option String)

theorem parkFor_success (range : 200 ≤ status ∧ status ≤ 299) :
    k.parkFor (.response status rl bodySnippet) = k.successPark rl := if_pos range

theorem parkFor_rejected (auth : status = 401 ∨ status = 403) :
    k.parkFor (.response status rl bodySnippet) =
      some (.disable (Backoff.doubling authBackoffBase authBackoffMax k.nextStrike)) := by
  have success : ¬ (200 ≤ status ∧ status ≤ 299) := by omega
  have single : status ≠ 429 := by omega
  simp only [parkFor, if_neg success, if_neg single, if_pos auth]

theorem parkFor_serverError (range : 500 ≤ status ∧ status ≤ 599) :
    k.parkFor (.response status rl bodySnippet) = k.failurePark := by
  have success : ¬ (200 ≤ status ∧ status ≤ 299) := by omega
  have single : status ≠ 429 := by omega
  have auth : ¬ (status = 401 ∨ status = 403) := by omega
  simp only [parkFor, if_neg success, if_neg single, if_neg auth, if_pos range]

theorem parkFor_none (success : ¬ (200 ≤ status ∧ status ≤ 299))
    (rest : ¬ (status = 429 ∨ status = 401 ∨ status = 403))
    (server : ¬ (500 ≤ status ∧ status ≤ 599)) :
    k.parkFor (.response status rl bodySnippet) = none := by
  have single : status ≠ 429 := by omega
  have auth : ¬ (status = 401 ∨ status = 403) := by omega
  simp only [parkFor, if_neg success, if_neg single, if_neg auth, if_neg server]

end ParkFor

/-- The outcome parks the key, and why. -/
inductive Parks (k : KeyState) : Outcome → Park → Prop
  | spent (status : Nat) (rl : Option RateLimitInfo) (bodySnippet : Option String)
      (range : 200 ≤ status ∧ status ≤ 299) (exhausted : rl.any (·.monthExhausted) = true) :
      Parks k (.response status rl bodySnippet)
        (.exhaust ((rl.bind (·.monthReset)).getD exhaustedFallback))
  | capped (status : Nat) (rl : Option RateLimitInfo) (bodySnippet : Option String)
      (range : 200 ≤ status ∧ status ≤ 299)
      (reached : k.monthlyCapOverride.any (· ≤ k.stats.ok + 1) = true) :
      Parks k (.response status rl bodySnippet)
        (.exhaust ((rl.bind (·.monthReset)).getD overrideCapFallback))
  | told (r : RateLimitInfo) (bodySnippet : Option String) (exhausted : r.monthExhausted = true) :
      Parks k (.response 429 (some r) bodySnippet) (.exhaust (r.monthReset.getD exhaustedFallback))
  | unexplained (bodySnippet : Option String)
      (enough : unexplained429Threshold ≤ wrapU32 (k.consecutive429 + 1)) :
      Parks k (.response 429 none bodySnippet) (.disable unexplained429Backoff)
  | rejected (status : Nat) (rl : Option RateLimitInfo) (bodySnippet : Option String)
      (auth : status = 401 ∨ status = 403) :
      Parks k (.response status rl bodySnippet)
        (.disable (Backoff.doubling authBackoffBase authBackoffMax k.nextStrike))
  | serverError (status : Nat) (rl : Option RateLimitInfo) (bodySnippet : Option String)
      (range : 500 ≤ status ∧ status ≤ 599)
      (enough : failThreshold ≤ wrapU32 (k.consecutiveFailures + 1)) :
      Parks k (.response status rl bodySnippet)
        (.disable (Backoff.doubling failBackoffBase failBackoffMax k.nextStrike))
  | transport (err : String) (enough : failThreshold ≤ wrapU32 (k.consecutiveFailures + 1)) :
      Parks k (.transport err)
        (.disable (Backoff.doubling failBackoffBase failBackoffMax k.nextStrike))

theorem parks_of_parkFor {k : KeyState} {o : Outcome} {park : Park} (parks : k.parkFor o = some park) :
    k.Parks o park := by
  have failure : k.failurePark = some park → failThreshold ≤ wrapU32 (k.consecutiveFailures + 1) ∧
      park = .disable (Backoff.doubling failBackoffBase failBackoffMax k.nextStrike) := by
    intro failed
    unfold failurePark at failed
    split at failed
    · exact ⟨‹_›, (Option.some.inj failed).symm⟩
    · cases failed
  cases o with
  | transport err =>
    obtain ⟨enough, rfl⟩ := failure parks
    exact .transport err enough
  | response status rl bodySnippet =>
    unfold parkFor at parks
    dsimp only at parks
    split at parks
    · unfold successPark at parks
      split at parks
      · cases parks
        exact .spent status rl bodySnippet ‹_› ‹_›
      · split at parks
        · cases parks
          exact .capped status rl bodySnippet ‹_› ‹_›
        · cases parks
    split at parks
    · subst status
      cases rl with
      | some r =>
        unfold tooManyPark at parks
        dsimp only at parks
        split at parks
        · cases parks
          exact .told r bodySnippet ‹_›
        · cases parks
      | none =>
        unfold tooManyPark at parks
        dsimp only at parks
        split at parks
        · cases parks
          exact .unexplained bodySnippet ‹_›
        · cases parks
    split at parks
    · cases parks
      exact .rejected status rl bodySnippet ‹_›
    split at parks
    · obtain ⟨enough, rfl⟩ := failure parks
      exact .serverError status rl bodySnippet ‹_› enough
    · cases parks

/-- Recording an outcome parks the key as `parkFor` tells, and leaves its health alone otherwise. -/
theorem digest_health (k : KeyState) (now : Instant) (outcome : Outcome) :
    ParkedAs now k.health (k.parkFor outcome) (k.digest now outcome).1.health := by
  have cases := k.digest_cases now outcome
  generalize (k.digest now outcome).1 = k' at cases
  cases cases with
  | transport err => exact k.recordTransport_health now err
  | success status rl bodySnippet range =>
    rw [← noteResponse_health k now status rl, ← noteResponse_parkFor k now status rl,
      parkFor_success _ _ _ range]
    exact recordSuccess_health _ now rl
  | tooMany rl bodySnippet detail =>
    rw [← noteResponse_health k now 429 rl, ← noteResponse_parkFor k now 429 rl]
    exact recordTooMany_health _ now rl detail
  | rejected status rl bodySnippet detail auth =>
    rw [← noteResponse_health k now status rl, ← noteResponse_parkFor k now status rl,
      parkFor_rejected _ _ _ auth]
    exact recordRejected_health _ now status detail
  | clientError status rl bodySnippet detail range rest =>
    rw [parkFor_none _ _ _ (by omega) rest (by omega)]
    exact noteResponse_health ..
  | serverError status rl bodySnippet detail range =>
    rw [← noteResponse_health k now status rl, ← noteResponse_parkFor k now status rl,
      parkFor_serverError _ _ _ range]
    exact recordServerError_health _ now status detail
  | other status rl bodySnippet rest =>
    rw [parkFor_none _ _ _ (by omega) (by omega) (by omega)]
    exact noteResponse_health ..

end KeyState

end BraveRotator
